import DurableActors.Data.Digits
import DurableActors.ControlPlane.Contracts

/-!
# Extracting a public schema

The compiler takes from a schema the definitions that its roots need
({lit}`compiler/public-schema.ts`).  It walks a list of pending definitions, which grows while it
goes on: a reference to a definition that has no public name yet gives it a fresh one and puts it on
the list.  Roots keep their names.

Main results:

- Theorem {lit}`typeName_freshType`: the search for a fresh name ends with one that no root has.
- Theorem {lit}`rewriteReferences_spec`: what rewriting one definition does to the walk.
- Theorem {lit}`processFrom_spec`: the walk ends, with everything that is reachable or with an
  error.
- Theorem {lit}`extractPublicSchema_is_reachability`: what is returned, and when there is an error.
-/

namespace DurableActors
namespace PublicSchema

open Contracts (localStart unescape replacePair)

variable {ν : Type}

/-! ## Names in references -/

/-- The byte in a percent escape. -/
def percentByte : List Char → Option (Nat × List Char)
  | '%' :: high :: low :: rest => do
      let high ← Digits.toDigit 16 high
      let low ← Digits.toDigit 16 low
      some (16 * high + low, rest)
  | _ => none

/-- Several percent escapes. -/
def percentBytes : Nat → List Char → Option (List Nat × List Char)
  | 0, text => some ([], text)
  | count + 1, text => do
      let (byte, text) ← percentByte text
      let (bytes, text) ← percentBytes count text
      some (byte :: bytes, text)

/-- The number of bytes that follow a first byte in UTF-8. -/
def following (byte : Nat) : Nat :=
  if byte < 0xc0 then 0 else if byte < 0xe0 then 1 else if byte < 0xf0 then 2 else 3

/-- The character with the given first byte, in UTF-8. -/
def utf8Char (byte : Nat) (bytes : List Nat) : Option Char :=
  if ¬ bytes.all fun later => 0x80 ≤ later && later < 0xc0 then none
  else
    let lower := bytes.foldl (fun value later => value * 64 + (later - 0x80)) 0
    match bytes.length with
    | 0 => if byte < 0x80 then some (Char.ofNat byte) else none
    | 1 =>
        let value := (byte - 0xc0) * 64 + lower
        if 0x80 ≤ value then some (Char.ofNat value) else none
    | 2 =>
        let value := (byte - 0xe0) * 4096 + lower
        if 0x800 ≤ value ∧ ¬ (0xd800 ≤ value ∧ value < 0xe000) then some (Char.ofNat value)
        else none
    | _ =>
        let value := (byte - 0xf0) * 262144 + lower
        if 0x10000 ≤ value ∧ value < 0x110000 then some (Char.ofNat value) else none

/-- {lit}`decodeURIComponent`, for texts up to the given length. -/
def decodeFrom : Nat → List Char → Option (List Char)
  | _, [] => some []
  | 0, _ :: _ => none
  | fuel + 1, c :: rest =>
      if c = '%' then do
        let (byte, rest) ← percentByte (c :: rest)
        let (bytes, rest) ← percentBytes (following byte) rest
        let decoded ← utf8Char byte bytes
        let later ← decodeFrom fuel rest
        some (decoded :: later)
      else do
        let later ← decodeFrom fuel rest
        some (c :: later)

/-- {lit}`decodeURIComponent`. -/
def decodeURIComponent (text : List Char) : Option (List Char) :=
  decodeFrom text.length text

/-- The name in a local reference. -/
def originalName (reference : String) : Option String :=
  (decodeURIComponent (reference.toList.drop localStart.length)).map unescape

/-! ## Fresh names -/

/-- {lit}`Type${nextType}`. -/
def typeName (number : Nat) : String :=
  "Type" ++ String.ofList (Digits.format 10 number)

/-- The number that the search for a fresh name ends with. -/
def freshType (roots : List String) : Nat → Nat → Nat
  | 0, nextType => nextType
  | fuel + 1, nextType =>
      if typeName nextType ∈ roots then freshType roots fuel (nextType + 1) else nextType

/-! ## The walk -/

/-- The variables of {lit}`extractPublicSchema`. -/
structure Walk where
  names : List (String × String)
  pending : List String
  nextType : Nat
deriving DecidableEq

/-- The text of a local reference. -/
def localReference (name : String) : String :=
  "#/definitions/" ++ name

section

variable (definitions : List (String × Json ν)) (roots : List String)

/-- {lit}`rename`. -/
def rename (reference : String) (walk : Walk) : Except String (String × Walk) :=
  if ¬ localStart <+: reference.toList then
    .error ("public contracts require local type references: " ++ reference)
  else
    match originalName reference with
    | none => .error "URI malformed"
    | some original =>
        if (definitions.lookup original).isNone then
          .error ("public contract type reference is missing: " ++ reference)
        else
          match walk.names.lookup original with
          | some name => .ok (localReference name, walk)
          | none =>
              let number := freshType roots roots.length walk.nextType
              .ok (localReference (typeName number),
                { names := walk.names ++ [(original, typeName number)]
                  pending := walk.pending ++ [original]
                  nextType := number + 1 })

/-- The reference in an entry, if it is one. -/
def entryReference (key : String) (child : Json ν) : Option String :=
  if key = "$ref" then child.asString else none

mutual
/-- {lit}`rewriteReferences`.  The keys of an object are distinct, so that an object is its
entries. -/
def rewriteReferences : Json ν → Walk → Except String (Json ν × Walk)
  | .array items, walk => (rewriteItems items walk).map fun (items, walk) => (.array items, walk)
  | .object fields, walk =>
      (rewriteFields fields walk).map fun (fields, walk) => (.object fields, walk)
  | value, walk => .ok (value, walk)

def rewriteItems : List (Json ν) → Walk → Except String (List (Json ν) × Walk)
  | [], walk => .ok ([], walk)
  | item :: items, walk => do
      let (item, walk) ← rewriteReferences item walk
      let (items, walk) ← rewriteItems items walk
      return (item :: items, walk)

def rewriteFields : List (String × Json ν) → Walk → Except String (List (String × Json ν) × Walk)
  | [], walk => .ok ([], walk)
  | (key, child) :: fields, walk => do
      let (child, walk) ←
        match entryReference key child with
        | some reference =>
            (rename definitions roots reference walk).map fun (text, walk) => (.string text, walk)
        | none => rewriteReferences child walk
      let (fields, walk) ← rewriteFields fields walk
      return ((key, child) :: fields, walk)
end

/-- The loop over the pending definitions. -/
def processFrom : Nat → Nat → Walk → List (String × Json ν) →
    Option (Except String (Walk × List (String × Json ν)))
  | 0, _, _, _ => none
  | fuel + 1, index, walk, publicDefinitions =>
      match walk.pending[index]? with
      | none => some (.ok (walk, publicDefinitions))
      | some original =>
          match definitions.lookup original with
          -- An undefined value is no field of the schema.
          | none => processFrom fuel (index + 1) walk publicDefinitions
          | some value =>
              match rewriteReferences definitions roots value walk with
              | .error error => some (.error error)
              | .ok (value, later) =>
                  processFrom fuel (index + 1) later
                    (publicDefinitions ++
                      [((walk.names.lookup original).getD "undefined", value)])

end

/-- A property is set.  It keeps its place if it exists. -/
def setProperty {α : Type} (entry : String × α) : List (String × α) → List (String × α)
  | [] => [entry]
  | first :: entries =>
      if first.1 = entry.1 then entry :: entries else first :: setProperty entry entries

/-- {lit}`Object.fromEntries`. -/
def fromEntries {α : Type} (entries : List (String × α)) : List (String × α) :=
  entries.foldl (fun properties entry => setProperty entry properties) []

/-- The parts of a schema that are read and written. -/
structure Schema (ν : Type) where
  schema : Option (Json ν)
  definitions : Option (List (String × Json ν))

/-- The walk at the start. -/
def Walk.start (roots : List String) : Walk where
  names := roots.map fun name => (name, name)
  pending := roots
  nextType := 0

/-- {lit}`extractPublicSchema`, if its loop ends. -/
def extractPublicSchema (schema : Schema ν) (roots : List String) :
    Option (Except String (Schema ν)) :=
  let definitions := schema.definitions.getD []
  (processFrom definitions roots (roots.length + definitions.length + 1) 0 (.start roots) []).map
    fun result => result.map fun (_, publicDefinitions) =>
      { schema := schema.schema, definitions := some (fromEntries publicDefinitions) }

/-! ## What a schema refers to -/

mutual
/-- The references in a value: the strings of its entries {lit}`$ref`. -/
def references : Json ν → List String
  | .array items => referencesItems items
  | .object fields => referencesFields fields
  | _ => []

def referencesItems : List (Json ν) → List String
  | [] => []
  | item :: items => references item ++ referencesItems items

def referencesFields : List (String × Json ν) → List String
  | [] => []
  | (key, child) :: fields =>
      (match entryReference key child with
        | some reference => [reference]
        | none => references child) ++ referencesFields fields
end

mutual
/-- The value with its references replaced, and nothing else. -/
def replaceReferences (replace : String → String) : Json ν → Json ν
  | .array items => .array (replaceItems replace items)
  | .object fields => .object (replaceFields replace fields)
  | value => value

def replaceItems (replace : String → String) : List (Json ν) → List (Json ν)
  | [] => []
  | item :: items => replaceReferences replace item :: replaceItems replace items

def replaceFields (replace : String → String) : List (String × Json ν) → List (String × Json ν)
  | [] => []
  | (key, child) :: fields =>
      (key, match entryReference key child with
        | some reference => .string (replace reference)
        | none => replaceReferences replace child) :: replaceFields replace fields
end

/-- The definition that a reference names, if it is a local one. -/
def target (definitions : List (String × Json ν)) (reference : String) : Option String :=
  if localStart <+: reference.toList then
    (originalName reference).filter fun original => (definitions.lookup original).isSome
  else none

/-- A definition refers to another one. -/
def Refers (definitions : List (String × Json ν)) (original other : String) : Prop :=
  ∃ value, definitions.lookup original = some value ∧
    ∃ reference ∈ references value, target definitions reference = some other

/-- The definitions that the roots need. -/
def Reachable (definitions : List (String × Json ν)) (roots : List String) (original : String) :
    Prop :=
  ∃ root ∈ roots, Relation.ReflTransGen (Refers definitions) root original

/-- A reference that names no definition. -/
def Dangling (definitions : List (String × Json ν)) (original : String) : Prop :=
  ∃ value, definitions.lookup original = some value ∧
    ∃ reference ∈ references value, target definitions reference = none

/-- The references of a definition under new names. -/
def renamed (definitions : List (String × Json ν)) (name : String → String) (reference : String) :
    String :=
  localReference (name ((target definitions reference).getD "undefined"))

/-! ## Facts about names -/

theorem typeName_injective {number number' : Nat} (h : typeName number = typeName number') :
    number = number' := by
  have hread {bound n : Nat} (hlt : n < bound) :
      Digits.parse 10 bound (Digits.format 10 n) = some n := by
    have hparse : Digits.parse 10 bound (Digits.pad 0 (Digits.format 10 n)) = some n :=
      Digits.parse_pad (by omega) (by omega) hlt 0
    simpa [Digits.pad] using hparse
  have htext : Digits.format 10 number = Digits.format 10 number' := by
    have hlist := congrArg String.toList h
    simpa [typeName] using hlist
  have hfirst := hread (Nat.lt_succ_of_le (Nat.le_max_left number number'))
  have hsecond := hread (Nat.lt_succ_of_le (Nat.le_max_right number number'))
  rw [htext, hsecond] at hfirst
  exact (Option.some.inj hfirst).symm

theorem le_freshType (roots : List String) (fuel nextType : Nat) :
    nextType ≤ freshType roots fuel nextType := by
  induction fuel generalizing nextType with
  | zero => exact Nat.le_refl _
  | succ fuel ih =>
    rw [freshType]
    split
    · exact Nat.le_trans (Nat.le_succ _) (ih _)
    · exact Nat.le_refl _

/-- A search that fails has only met names of roots. -/
theorem mem_roots_of_freshType {roots : List String} {fuel nextType : Nat}
    (h : typeName (freshType roots fuel nextType) ∈ roots) :
    ∀ k ≤ fuel, typeName (nextType + k) ∈ roots := by
  induction fuel generalizing nextType with
  | zero =>
    intro k hk
    obtain rfl : k = 0 := by omega
    exact h
  | succ fuel ih =>
    rw [freshType] at h
    split at h
    · rename_i hroot
      intro k hk
      cases k with
      | zero => exact hroot
      | succ k =>
        have hlater := ih h k (by omega)
        rwa [Nat.add_right_comm, Nat.add_assoc] at hlater
    · contradiction

/-- The search ends with a name that no root has: there are more names than roots. -/
theorem typeName_freshType (roots : List String) (nextType : Nat) :
    typeName (freshType roots roots.length nextType) ∉ roots := by
  intro h
  have hall := mem_roots_of_freshType h
  let names := (Finset.range (roots.length + 1)).image fun k => typeName (nextType + k)
  have hcard : names.card = roots.length + 1 := by
    rw [Finset.card_image_of_injective, Finset.card_range]
    intro k k' heq
    have := typeName_injective heq
    omega
  have hsubset : names ⊆ roots.toFinset := by
    intro name hname
    obtain ⟨k, hk, rfl⟩ := Finset.mem_image.mp hname
    exact List.mem_toFinset.mpr (hall k (by simpa [Nat.lt_succ_iff] using hk))
  have hle := Finset.card_le_card hsubset
  have hroots := List.toFinset_card_le roots
  omega

/-! ## The walk goes on -/

/-- What is named and pending stays so. -/
structure Extends (walk later : Walk) : Prop where
  names : walk.names <+: later.names
  pending : walk.pending <+: later.pending

theorem Extends.refl (walk : Walk) : Extends walk walk :=
  ⟨List.prefix_refl _, List.prefix_refl _⟩

theorem Extends.trans {walk later last : Walk} (h : Extends walk later) (h' : Extends later last) :
    Extends walk last :=
  ⟨h.names.trans h'.names, h.pending.trans h'.pending⟩

theorem Extends.lookup {walk later : Walk} (h : Extends walk later) {original name : String}
    (hname : walk.names.lookup original = some name) :
    later.names.lookup original = some name := by
  obtain ⟨rest, hrest⟩ := h.names
  rw [← hrest, List.lookup_append, hname]
  rfl

/-- The name of a definition. -/
def Walk.name (walk : Walk) (original : String) : String :=
  (walk.names.lookup original).getD "undefined"

/-- The walk for the roots and the definitions that were given a number since. -/
structure Numbered (definitions : List (String × Json ν)) (roots : List String) (walk : Walk)
    (rest : List (String × Nat)) : Prop where
  names : walk.names = roots.map (fun root => (root, root)) ++
    rest.map fun entry => (entry.1, typeName entry.2)
  pending : walk.pending = roots ++ rest.map Prod.fst
  originals : (rest.map Prod.fst).Nodup
  numbers : (rest.map Prod.snd).Nodup
  below : ∀ entry ∈ rest, entry.2 < walk.nextType
  outside : ∀ entry ∈ rest, entry.1 ∉ roots ∧ typeName entry.2 ∉ roots
  reachable : ∀ entry ∈ rest, Reachable definitions roots entry.1
  defined : ∀ entry ∈ rest, (definitions.lookup entry.1).isSome

/-- The walk is at a state that the loop can reach. -/
def Sound (definitions : List (String × Json ν)) (roots : List String) (walk : Walk) : Prop :=
  ∃ rest, Numbered definitions roots walk rest

section

variable {definitions : List (String × Json ν)} {roots : List String} {walk : Walk}

theorem sound_start (definitions : List (String × Json ν)) (roots : List String) :
    Sound definitions roots (.start roots) := by
  refine ⟨[], ?_⟩
  constructor <;> simp [Walk.start]

theorem lookup_map_self {roots : List String} {root : String} (h : root ∈ roots) :
    (roots.map fun root => (root, root)).lookup root = some root := by
  induction roots with
  | nil => cases h
  | cons first roots ih =>
    rw [List.map_cons, List.lookup_cons]
    by_cases hfirst : root = first
    · simp [hfirst]
    · rw [beq_eq_false_iff_ne.mpr hfirst]
      exact ih ((List.mem_cons.mp h).resolve_left hfirst)

/-- Roots keep their names. -/
theorem Sound.lookup_root (h : Sound definitions roots walk) {root : String}
    (hroot : root ∈ roots) :
    walk.names.lookup root = some root := by
  obtain ⟨rest, hrest⟩ := h
  rw [hrest.names, List.lookup_append, lookup_map_self hroot]
  rfl

/-- The names are those of the pending definitions. -/
theorem Sound.exists_name_iff (h : Sound definitions roots walk) {original : String} :
    (∃ name, walk.names.lookup original = some name) ↔ original ∈ walk.pending := by
  obtain ⟨rest, hrest⟩ := h
  have hkeys : walk.names.map Prod.fst = walk.pending := by
    rw [hrest.names, hrest.pending, List.map_append, List.map_map, List.map_map]
    simp [Function.comp_def]
  rw [← hkeys, ← Option.isSome_iff_exists, List.lookup_isSome_iff, List.mem_map]
  refine exists_congr fun entry => and_congr_right fun _ => ?_
  rw [beq_iff_eq, eq_comm]

theorem mem_of_lookup {α : Type} {entries : List (String × α)} {key : String} {value : α}
    (h : entries.lookup key = some value) : (key, value) ∈ entries := by
  obtain ⟨before, after, rfl, -⟩ := List.lookup_eq_some_iff.mp h
  exact List.mem_append_right _ List.mem_cons_self

/-- The name of a root, or a numbered name. -/
theorem Numbered.name_cases {rest : List (String × Nat)} (h : Numbered definitions roots walk rest)
    {original name : String} (hname : walk.names.lookup original = some name) :
    (original ∈ roots ∧ name = original) ∨
      ∃ number, (original, number) ∈ rest ∧ name = typeName number := by
  have hmem := mem_of_lookup hname
  rw [h.names] at hmem
  rcases List.mem_append.mp hmem with hself | hrest
  · obtain ⟨root, hroot, heq⟩ := List.mem_map.mp hself
    cases heq
    exact .inl ⟨hroot, rfl⟩
  · obtain ⟨⟨_, number⟩, hentry, heq⟩ := List.mem_map.mp hrest
    cases heq
    exact .inr ⟨number, hentry, rfl⟩

/-- Different definitions have different names. -/
theorem Sound.name_injective (h : Sound definitions roots walk) {original other name : String}
    (horiginal : walk.names.lookup original = some name)
    (hother : walk.names.lookup other = some name) : original = other := by
  obtain ⟨rest, hrest⟩ := h
  rcases hrest.name_cases horiginal with ⟨hroot, rfl⟩ | ⟨number, hentry, rfl⟩ <;>
    rcases hrest.name_cases hother with ⟨hroot', heq⟩ | ⟨number', hentry', heq⟩
  · exact heq
  · subst heq
    exact absurd hroot (hrest.outside _ hentry').2
  · subst heq
    exact absurd hroot' (hrest.outside _ hentry).2
  · obtain rfl := typeName_injective heq
    have hsame := List.inj_on_of_nodup_map hrest.numbers hentry hentry' rfl
    exact (Prod.mk.inj hsame).1

/-- A definition that has no name is given one. -/
theorem Sound.push (h : Sound definitions roots walk) {original : String}
    (hnew : walk.names.lookup original = none)
    (hdefined : (definitions.lookup original).isSome)
    (hreachable : Reachable definitions roots original) :
    Sound definitions roots
      { names := walk.names ++ [(original, typeName (freshType roots roots.length walk.nextType))]
        pending := walk.pending ++ [original]
        nextType := freshType roots roots.length walk.nextType + 1 } := by
  have hpending : original ∉ walk.pending := by
    intro hmem
    obtain ⟨name, hname⟩ := h.exists_name_iff.mpr hmem
    rw [hnew] at hname
    cases hname
  obtain ⟨rest, hrest⟩ := h
  rw [hrest.pending, List.mem_append, not_or] at hpending
  have hfresh := le_freshType roots roots.length walk.nextType
  refine ⟨rest ++ [(original, freshType roots roots.length walk.nextType)], ?_⟩
  constructor
  · simp [hrest.names]
  · simp [hrest.pending]
  · rw [List.map_append]
    refine List.nodup_append.mpr ⟨hrest.originals, List.nodup_singleton _, ?_⟩
    rintro _ hold _ hlast rfl
    rw [List.map_singleton, List.mem_singleton] at hlast
    subst hlast
    exact hpending.2 hold
  · rw [List.map_append]
    refine List.nodup_append.mpr ⟨hrest.numbers, List.nodup_singleton _, ?_⟩
    rintro number hold _ hlast rfl
    obtain ⟨entry, hentry, rfl⟩ := List.mem_map.mp hold
    rw [List.map_singleton, List.mem_singleton] at hlast
    have := hrest.below entry hentry
    omega
  · intro entry hentry
    rcases List.mem_append.mp hentry with hold | hlast
    · have := hrest.below entry hold
      dsimp only
      omega
    · rw [List.mem_singleton.mp hlast]
      exact Nat.lt_succ_self _
  · intro entry hentry
    rcases List.mem_append.mp hentry with hold | hlast
    · exact hrest.outside entry hold
    · rw [List.mem_singleton.mp hlast]
      exact ⟨hpending.1, typeName_freshType roots walk.nextType⟩
  · intro entry hentry
    rcases List.mem_append.mp hentry with hold | hlast
    · exact hrest.reachable entry hold
    · rw [List.mem_singleton.mp hlast]
      exact hreachable
  · intro entry hentry
    rcases List.mem_append.mp hentry with hold | hlast
    · exact hrest.defined entry hold
    · rw [List.mem_singleton.mp hlast]
      exact hdefined

/-- A run of the walk over the given references.  It fails only if one of them names nothing;
otherwise all definitions that they name are pending, and its value is the image under the names of
any later walk. -/
def Rewritten {α : Type} (definitions : List (String × Json ν)) (roots : List String) (walk : Walk)
    (references : List String) (image : (String → String) → α) :
    Except String (α × Walk) → Prop
  | .error _ => ∃ reference ∈ references, target definitions reference = none
  | .ok (value, later) =>
      Extends walk later ∧ Sound definitions roots later ∧
        (∀ reference ∈ references, ∃ other ∈ later.pending,
          target definitions reference = some other) ∧
        ∀ last, Extends later last → value = image (renamed definitions last.name)

/-- {lit}`rename` fails exactly if the reference names no definition. -/
theorem rename_spec (h : Sound definitions roots walk) {reference : String}
    (hreachable : ∀ other, target definitions reference = some other →
      Reachable definitions roots other) :
    Rewritten definitions roots walk [reference] (fun replace => replace reference)
      (rename definitions roots reference walk) := by
  unfold rename
  split
  · rename_i hlocal
    exact ⟨reference, List.mem_singleton_self _, if_neg hlocal⟩
  rename_i hlocal
  rw [not_not] at hlocal
  split
  · rename_i hmalformed
    refine ⟨reference, List.mem_singleton_self _, ?_⟩
    rw [target, if_pos hlocal, hmalformed]
    rfl
  rename_i original horiginal
  split
  · rename_i hmissing
    refine ⟨reference, List.mem_singleton_self _, ?_⟩
    rw [target, if_pos hlocal, horiginal]
    exact Option.filter_some_neg (by rw [Option.isNone_iff_eq_none.mp hmissing]; simp)
  rename_i hpresent
  have hdefined : (definitions.lookup original).isSome := by simpa using hpresent
  have htarget : target definitions reference = some original := by
    rw [target, if_pos hlocal, horiginal]
    exact Option.filter_some_pos hdefined
  -- The name of the definition in a later walk is the one that it has now.
  have himage (later : Walk) (name : String) (hname : later.names.lookup original = some name)
      (last : Walk) (hlast : Extends later last) :
      localReference name = renamed definitions last.name reference := by
    rw [renamed, htarget, Option.getD_some, Walk.name, hlast.lookup hname, Option.getD_some]
  split
  · rename_i name hname
    refine ⟨.refl walk, h, fun _ hmem => ?_, himage walk name hname⟩
    rw [List.mem_singleton.mp hmem]
    exact ⟨original, h.exists_name_iff.mp ⟨name, hname⟩, htarget⟩
  · rename_i hnew
    refine ⟨⟨List.prefix_append _ _, List.prefix_append _ _⟩,
      h.push hnew hdefined (hreachable original htarget), fun _ hmem => ?_, himage _ _ ?_⟩
    · rw [List.mem_singleton.mp hmem]
      exact ⟨original, List.mem_append_right _ (List.mem_singleton_self _), htarget⟩
    · rw [List.lookup_append, hnew]
      simp

/-- Nothing to rewrite. -/
theorem Rewritten.pure {α : Type} (h : Sound definitions roots walk) (value : α) :
    Rewritten definitions roots walk [] (fun _ => value) (.ok (value, walk)) :=
  ⟨.refl walk, h, by simp, fun _ _ => rfl⟩

theorem Rewritten.map {α β : Type} {references : List String} {image : (String → String) → α}
    {outcome : Except String (α × Walk)} (f : α → β)
    (h : Rewritten definitions roots walk references image outcome) :
    Rewritten definitions roots walk references (fun replace => f (image replace))
      (outcome.map fun result => (f result.1, result.2)) := by
  cases outcome with
  | error error => exact h
  | ok result =>
    obtain ⟨hextends, hsound, htargets, himage⟩ := h
    exact ⟨hextends, hsound, htargets, fun last hlast => congrArg f (himage last hlast)⟩

/-- One run after another. -/
theorem Rewritten.seq {α β γ : Type} {references references' : List String}
    {image : (String → String) → α} {image' : (String → String) → β}
    {outcome : Except String (α × Walk)} {next : Walk → Except String (β × Walk)} (f : α → β → γ)
    (h : Rewritten definitions roots walk references image outcome)
    (hnext : ∀ later, Sound definitions roots later →
      Rewritten definitions roots later references' image' (next later)) :
    Rewritten definitions roots walk (references ++ references')
      (fun replace => f (image replace) (image' replace))
      (do
        let (value, walk) ← outcome
        let (value', walk) ← next walk
        return (f value value', walk)) := by
  cases outcome with
  | error error =>
    obtain ⟨reference, hmem, hnone⟩ := h
    exact ⟨reference, List.mem_append_left _ hmem, hnone⟩
  | ok result =>
    obtain ⟨value, later⟩ := result
    obtain ⟨hextends, hsound, htargets, himage⟩ := h
    have hrest := hnext later hsound
    cases houtcome : next later with
    | error error =>
      rw [houtcome] at hrest
      obtain ⟨reference, hmem, hnone⟩ := hrest
      simp only [bind, Except.bind, houtcome]
      exact ⟨reference, List.mem_append_right _ hmem, hnone⟩
    | ok result' =>
      obtain ⟨value', last⟩ := result'
      rw [houtcome] at hrest
      obtain ⟨hextends', hsound', htargets', himage'⟩ := hrest
      simp only [bind, Except.bind, houtcome]
      refine ⟨hextends.trans hextends', hsound', fun reference hmem => ?_, fun last hlast => ?_⟩
      · rcases List.mem_append.mp hmem with hfirst | hsecond
        · obtain ⟨other, hpending, htarget⟩ := htargets reference hfirst
          exact ⟨other, hextends'.pending.subset hpending, htarget⟩
        · exact htargets' reference hsecond
      · rw [himage last (hextends'.trans hlast), himage' last hlast]

mutual
/-- Rewriting a value whose references lead to definitions that the roots need. -/
theorem rewriteReferences_spec : (value : Json ν) → (walk : Walk) → Sound definitions roots walk →
    (∀ reference ∈ references value, ∀ other, target definitions reference = some other →
      Reachable definitions roots other) →
    Rewritten definitions roots walk (references value)
      (fun replace => replaceReferences replace value)
      (rewriteReferences definitions roots value walk)
  | .null, _, hsound, _ | .boolean _, _, hsound, _ | .number _, _, hsound, _
  | .string _, _, hsound, _ => .pure hsound _
  | .array items, walk, hsound, hreachable =>
    (rewriteItems_spec items walk hsound hreachable).map Json.array
  | .object fields, walk, hsound, hreachable =>
    (rewriteFields_spec fields walk hsound hreachable).map Json.object

theorem rewriteItems_spec : (items : List (Json ν)) → (walk : Walk) →
    Sound definitions roots walk →
    (∀ reference ∈ referencesItems items, ∀ other, target definitions reference = some other →
      Reachable definitions roots other) →
    Rewritten definitions roots walk (referencesItems items)
      (fun replace => replaceItems replace items) (rewriteItems definitions roots items walk)
  | [], _, hsound, _ => .pure hsound _
  | item :: items, walk, hsound, hreachable =>
    have hitem := rewriteReferences_spec item walk hsound fun reference hmem =>
      hreachable reference (List.mem_append_left _ hmem)
    hitem.seq List.cons fun later hlater => rewriteItems_spec items later hlater
      fun reference hmem => hreachable reference (List.mem_append_right _ hmem)

theorem rewriteFields_spec : (fields : List (String × Json ν)) → (walk : Walk) →
    Sound definitions roots walk →
    (∀ reference ∈ referencesFields fields, ∀ other, target definitions reference = some other →
      Reachable definitions roots other) →
    Rewritten definitions roots walk (referencesFields fields)
      (fun replace => replaceFields replace fields) (rewriteFields definitions roots fields walk)
  | [], _, hsound, _ => .pure hsound _
  | (key, child) :: fields, walk, hsound, hreachable => by
    have hrest (later : Walk) (hlater : Sound definitions roots later) :=
      rewriteFields_spec fields later hlater fun reference hmem =>
        hreachable reference (List.mem_append_right _ hmem)
    have hchild := rewriteReferences_spec child walk hsound
    simp only [referencesFields, replaceFields, rewriteFields] at hreachable ⊢
    cases hentry : entryReference key child with
    | some reference =>
      rw [hentry] at hreachable
      have hrenamed := rename_spec hsound fun other htarget =>
        hreachable reference (List.mem_append_left _ (List.mem_singleton_self _)) other htarget
      exact (hrenamed.map Json.string).seq (fun child fields => (key, child) :: fields) hrest
    | none =>
      rw [hentry] at hreachable
      exact (hchild fun reference hmem => hreachable reference (List.mem_append_left _ hmem)).seq
        (fun child fields => (key, child) :: fields) hrest
end

/-! ## The loop -/

/-- The value of a definition. -/
def valueOf (definitions : List (String × Json ν)) (original : String) : Json ν :=
  (definitions.lookup original).getD .null

/-- The entry of the public schema for a definition. -/
def publicEntry (definitions : List (String × Json ν)) (name : String → String)
    (original : String) : String × Json ν :=
  (name original, replaceReferences (renamed definitions name) (valueOf definitions original))

/-- The loop has processed the pending definitions before an index. -/
structure Processed (definitions : List (String × Json ν)) (roots : List String) (index : Nat)
    (walk : Walk) (publicDefinitions : List (String × Json ν)) : Prop where
  sound : Sound definitions roots walk
  bounded : index ≤ walk.pending.length
  closed : ∀ original ∈ walk.pending.take index,
    ∀ reference ∈ references (valueOf definitions original),
    ∃ other ∈ walk.pending, target definitions reference = some other
  entries : ∀ last, Extends walk last →
    publicDefinitions = (walk.pending.take index).map (publicEntry definitions last.name)

/-- What the loop ends with. -/
def Extracted (definitions : List (String × Json ν)) (roots : List String) :
    Option (Except String (Walk × List (String × Json ν))) → Prop
  | none => False
  | some (.error _) =>
      ∃ original, Reachable definitions roots original ∧ Dangling definitions original
  | some (.ok (walk, publicDefinitions)) =>
      Processed definitions roots walk.pending.length walk publicDefinitions

theorem Sound.reachable (h : Sound definitions roots walk) {original : String}
    (hmem : original ∈ walk.pending) : Reachable definitions roots original := by
  obtain ⟨rest, hrest⟩ := h
  rw [hrest.pending] at hmem
  rcases List.mem_append.mp hmem with hroot | hnumbered
  · exact ⟨original, hroot, .refl⟩
  · obtain ⟨entry, hentry, rfl⟩ := List.mem_map.mp hnumbered
    exact hrest.reachable entry hentry

theorem Sound.defined (h : Sound definitions roots walk)
    (hroots : ∀ root ∈ roots, (definitions.lookup root).isSome) {original : String}
    (hmem : original ∈ walk.pending) :
    definitions.lookup original = some (valueOf definitions original) := by
  have hsome : (definitions.lookup original).isSome := by
    obtain ⟨rest, hrest⟩ := h
    rw [hrest.pending] at hmem
    rcases List.mem_append.mp hmem with hroot | hnumbered
    · exact hroots original hroot
    · obtain ⟨entry, hentry, rfl⟩ := List.mem_map.mp hnumbered
      exact hrest.defined entry hentry
  obtain ⟨value, hvalue⟩ := Option.isSome_iff_exists.mp hsome
  rw [valueOf, hvalue, Option.getD_some]

/-- A definition becomes pending once. -/
theorem Sound.length_pending_le (h : Sound definitions roots walk) :
    walk.pending.length ≤ roots.length + definitions.length := by
  obtain ⟨rest, hrest⟩ := h
  have hsubset : rest.map Prod.fst ⊆ definitions.map Prod.fst := by
    intro original hmem
    obtain ⟨entry, hentry, rfl⟩ := List.mem_map.mp hmem
    obtain ⟨value, hvalue⟩ := Option.isSome_iff_exists.mp (hrest.defined entry hentry)
    exact List.mem_map.mpr ⟨(entry.1, value), mem_of_lookup hvalue, rfl⟩
  have hle := (hrest.originals.subperm hsubset).length_le
  rw [List.length_map, List.length_map] at hle
  rw [hrest.pending, List.length_append, List.length_map]
  omega

theorem processed_start (definitions : List (String × Json ν)) (roots : List String) :
    Processed definitions roots 0 (.start roots) [] where
  sound := sound_start definitions roots
  bounded := Nat.zero_le _
  closed := by simp
  entries := by simp

/-- One turn of the loop. -/
theorem Processed.step {index : Nat} {publicDefinitions : List (String × Json ν)}
    (h : Processed definitions roots index walk publicDefinitions) {original : String}
    (horiginal : walk.pending[index]? = some original) {value : Json ν} {later : Walk}
    (hextends : Extends walk later) (hsound : Sound definitions roots later)
    (htargets : ∀ reference ∈ references (valueOf definitions original),
      ∃ other ∈ later.pending, target definitions reference = some other)
    (himage : ∀ last, Extends later last →
      value = replaceReferences (renamed definitions last.name) (valueOf definitions original)) :
    Processed definitions roots (index + 1) later
      (publicDefinitions ++ [((walk.names.lookup original).getD "undefined", value)]) := by
  obtain ⟨hindex, hget⟩ := List.getElem?_eq_some_iff.mp horiginal
  have htake : later.pending.take (index + 1) = walk.pending.take index ++ [original] := by
    obtain ⟨rest, hrest⟩ := hextends.pending
    rw [← hrest, List.take_append_of_le_length hindex, List.take_add_one, horiginal]
    rfl
  have hmem : original ∈ walk.pending := hget ▸ List.getElem_mem hindex
  constructor
  · exact hsound
  · exact Nat.le_trans hindex hextends.pending.length_le
  · intro processed hprocessed reference hreference
    rw [htake] at hprocessed
    rcases List.mem_append.mp hprocessed with hold | hlast
    · obtain ⟨other, hpending, htarget⟩ := h.closed processed hold reference hreference
      exact ⟨other, hextends.pending.subset hpending, htarget⟩
    · rw [List.mem_singleton.mp hlast] at hreference
      exact htargets reference hreference
  · intro last hlast
    obtain ⟨name, hname⟩ := h.sound.exists_name_iff.mpr hmem
    have hlater : last.name original = name := by
      rw [Walk.name, (hextends.trans hlast).lookup hname, Option.getD_some]
    rw [htake, List.map_append, ← h.entries last (hextends.trans hlast), List.map_singleton,
      publicEntry, hlater, ← himage last hlast, hname, Option.getD_some]

/-- The loop ends, with everything that is reachable or with an error. -/
theorem processFrom_spec (hroots : ∀ root ∈ roots, (definitions.lookup root).isSome) {fuel : Nat} :
    ∀ {index : Nat} {walk : Walk} {publicDefinitions : List (String × Json ν)},
    Processed definitions roots index walk publicDefinitions →
    roots.length + definitions.length < fuel + index →
    Extracted definitions roots
      (processFrom definitions roots fuel index walk publicDefinitions) := by
  induction fuel with
  | zero =>
    intro index walk publicDefinitions h hfuel
    have hindex := h.bounded
    have hlength := h.sound.length_pending_le
    omega
  | succ fuel ih =>
    intro index walk publicDefinitions h hfuel
    rw [processFrom]
    cases horiginal : walk.pending[index]? with
    | none =>
      have hall : walk.pending.length = index :=
        Nat.le_antisymm (List.getElem?_eq_none_iff.mp horiginal) h.bounded
      change Processed definitions roots walk.pending.length walk publicDefinitions
      rw [hall]
      exact h
    | some original =>
      have hmem : original ∈ walk.pending := List.mem_of_getElem? horiginal
      have hvalue := h.sound.defined hroots hmem
      have hreachable := h.sound.reachable hmem
      have hspec := rewriteReferences_spec (valueOf definitions original) walk h.sound
        fun reference hreference other htarget => by
          obtain ⟨root, hroot, hpath⟩ := hreachable
          exact ⟨root, hroot, hpath.tail ⟨_, hvalue, reference, hreference, htarget⟩⟩
      simp only [hvalue]
      cases houtcome : rewriteReferences definitions roots (valueOf definitions original) walk with
      | error error =>
        rw [houtcome] at hspec
        exact ⟨original, hreachable, _, hvalue, hspec⟩
      | ok result =>
        obtain ⟨value, later⟩ := result
        rw [houtcome] at hspec
        obtain ⟨hextends, hsound, htargets, himage⟩ := hspec
        exact ih (h.step horiginal hextends hsound htargets himage) (by omega)

end

/-! ## The result -/

section

variable {definitions : List (String × Json ν)} {roots : List String} {walk : Walk}

/-- At the end of the loop the pending definitions are those that the roots need. -/
theorem Processed.mem_pending_iff {publicDefinitions : List (String × Json ν)}
    (h : Processed definitions roots walk.pending.length walk publicDefinitions)
    {original : String} : original ∈ walk.pending ↔ Reachable definitions roots original := by
  refine ⟨h.sound.reachable, fun hreachable => ?_⟩
  obtain ⟨root, hroot, hpath⟩ := hreachable
  induction hpath with
  | refl => exact h.sound.exists_name_iff.mp ⟨root, h.sound.lookup_root hroot⟩
  | tail _ hrefers ih =>
    rename_i from_ other _
    obtain ⟨value, hvalue, reference, hreference, htarget⟩ := hrefers
    have hprocessed : from_ ∈ walk.pending.take walk.pending.length := by
      rwa [List.take_length]
    obtain ⟨found, hfound, htarget'⟩ := h.closed from_ hprocessed reference
      (by rwa [valueOf, hvalue, Option.getD_some])
    rw [htarget] at htarget'
    cases htarget'
    exact hfound

/-- Without dangling references there is no error. -/
theorem not_dangling_of_processed {publicDefinitions : List (String × Json ν)}
    (h : Processed definitions roots walk.pending.length walk publicDefinitions) {original : String}
    (hreachable : Reachable definitions roots original) : ¬ Dangling definitions original := by
  rintro ⟨value, hvalue, reference, hreference, hnone⟩
  have hmem := h.mem_pending_iff.mpr hreachable
  obtain ⟨other, -, htarget⟩ := h.closed original (by rwa [List.take_length]) reference
    (by rwa [valueOf, hvalue, Option.getD_some])
  rw [hnone] at htarget
  cases htarget

end

section

variable {α : Type} {entries properties : List (String × α)}

theorem mem_setProperty {entry other : String × α} (hkeys : (properties.map Prod.fst).Nodup) :
    other ∈ setProperty entry properties ↔
      other = entry ∨ (other ∈ properties ∧ other.1 ≠ entry.1) := by
  induction properties with
  | nil => simp [setProperty]
  | cons first properties ih =>
    obtain ⟨hfirst, hrest⟩ := List.nodup_cons.mp hkeys
    rw [setProperty]
    split
    · rename_i hsame
      rw [List.mem_cons]
      refine or_congr_right ⟨fun hmem => ⟨List.mem_cons_of_mem _ hmem, fun heq => ?_⟩, ?_⟩
      · exact hfirst (hsame.trans heq.symm ▸ List.mem_map_of_mem hmem)
      · rintro ⟨hmem, hne⟩
        rcases List.mem_cons.mp hmem with rfl | hmem
        · exact absurd hsame hne
        · exact hmem
    · rename_i hother
      rw [List.mem_cons, ih hrest, List.mem_cons]
      constructor
      · rintro (rfl | heq | ⟨hmem, hne⟩)
        · exact .inr ⟨.inl rfl, hother⟩
        · exact .inl heq
        · exact .inr ⟨.inr hmem, hne⟩
      · rintro (heq | ⟨rfl | hmem, hne⟩)
        · exact .inr (.inl heq)
        · exact .inl rfl
        · exact .inr (.inr ⟨hmem, hne⟩)

theorem nodup_setProperty {entry : String × α} (hkeys : (properties.map Prod.fst).Nodup) :
    ((setProperty entry properties).map Prod.fst).Nodup := by
  induction properties with
  | nil => simp [setProperty]
  | cons first properties ih =>
    obtain ⟨hfirst, hrest⟩ := List.nodup_cons.mp hkeys
    rw [setProperty]
    split
    · rename_i hsame
      rw [List.map_cons, ← hsame]
      exact hkeys
    · rename_i hother
      rw [List.map_cons, List.nodup_cons]
      refine ⟨fun hmem => ?_, ih hrest⟩
      obtain ⟨later, hlater, heq⟩ := List.mem_map.mp hmem
      rcases (mem_setProperty hrest).mp hlater with rfl | ⟨hold, -⟩
      · exact hother heq.symm
      · exact hfirst (List.mem_map.mpr ⟨later, hold, heq⟩)

private theorem foldl_setProperty (hkeys : (properties.map Prod.fst).Nodup)
    (hsame : ∀ first ∈ properties ++ entries, ∀ second ∈ properties ++ entries,
      first.1 = second.1 → first = second) :
    ((entries.foldl (fun properties entry => setProperty entry properties) properties).map
        Prod.fst).Nodup ∧
      ∀ entry, entry ∈ entries.foldl (fun properties entry => setProperty entry properties)
        properties ↔ entry ∈ properties ++ entries := by
  induction entries generalizing properties with
  | nil => exact ⟨hkeys, by simp⟩
  | cons entry entries ih =>
    have hmem (other : String × α) : other ∈ setProperty entry properties ++ entries ↔
        other ∈ properties ++ entry :: entries := by
      rw [List.mem_append, mem_setProperty hkeys, List.mem_append, List.mem_cons]
      constructor
      · rintro ((rfl | ⟨hold, -⟩) | hlater)
        · exact .inr (.inl rfl)
        · exact .inl hold
        · exact .inr (.inr hlater)
      · rintro (hold | rfl | hlater)
        · by_cases hkey : other.1 = entry.1
          · exact .inl (.inl (hsame _ (by simp [hold]) _ (by simp) hkey))
          · exact .inl (.inr ⟨hold, hkey⟩)
        · exact .inl (.inl rfl)
        · exact .inr hlater
    obtain ⟨hnodup, hentries⟩ := ih (nodup_setProperty hkeys) fun first hfirst second hsecond =>
      hsame first ((hmem first).mp hfirst) second ((hmem second).mp hsecond)
    exact ⟨hnodup, fun other => (hentries other).trans (hmem other)⟩

/-- An object from entries that agree where their keys do. -/
theorem fromEntries_spec
    (hsame : ∀ first ∈ entries, ∀ second ∈ entries, first.1 = second.1 → first = second) :
    ((fromEntries entries).map Prod.fst).Nodup ∧
      ∀ entry, entry ∈ fromEntries entries ↔ entry ∈ entries :=
  foldl_setProperty List.nodup_nil hsame

end

/-! ## References to public names -/

/-- The names that stand for themselves in references. -/
def Clean (name : String) : Prop :=
  '/' ∉ name.toList ∧ '~' ∉ name.toList ∧ '%' ∉ name.toList

instance (name : String) : Decidable (Clean name) :=
  inferInstanceAs (Decidable (_ ∧ _ ∧ _))

theorem clean_typeName (number : Nat) : Clean (typeName number) := by
  have hdigit {d : Nat} (hd : d < 10) :
      Nat.digitChar d ≠ '/' ∧ Nat.digitChar d ≠ '~' ∧ Nat.digitChar d ≠ '%' := by
    interval_cases d <;> decide
  have hmem {c : Char} (hc : c ∈ (typeName number).toList) : c ≠ '/' ∧ c ≠ '~' ∧ c ≠ '%' := by
    have hsplit : c ∈ ['T', 'y', 'p', 'e'] ∨ c ∈ Digits.format 10 number := by
      simpa [typeName, or_assoc] using hc
    rcases hsplit with hletter | hnumber
    · simp only [List.mem_cons, List.not_mem_nil, or_false] at hletter
      rcases hletter with rfl | rfl | rfl | rfl <;> decide
    · have hpad : c ∈ Digits.pad 0 (Digits.format 10 number) := by simpa [Digits.pad] using hnumber
      obtain ⟨d, hd, rfl⟩ := Digits.mem_pad (by omega) hpad
      exact hdigit hd
  exact ⟨fun h => (hmem h).1 rfl, fun h => (hmem h).2.1 rfl, fun h => (hmem h).2.2 rfl⟩

theorem decodeURIComponent_of_clean {text : List Char} (h : '%' ∉ text) :
    decodeURIComponent text = some text := by
  unfold decodeURIComponent
  induction text with
  | nil => rfl
  | cons c text ih =>
    rw [List.mem_cons, not_or] at h
    rw [List.length_cons, decodeFrom, if_neg (Ne.symm h.1), ih h.2]
    rfl

theorem replacePair_of_clean {second result : Char} {text : List Char} (h : '~' ∉ text) :
    replacePair '~' second result text = text := by
  induction text with
  | nil => rfl
  | cons c text ih =>
    rw [List.mem_cons, not_or] at h
    cases text with
    | nil => rfl
    | cons d text => rw [replacePair, if_neg fun hpair => h.1 hpair.1.symm, ih h.2]

theorem unescape_of_clean {name : String} (h : '~' ∉ name.toList) :
    unescape name.toList = name := by
  rw [unescape, replacePair_of_clean h, replacePair_of_clean h, String.ofList_toList]

theorem toList_localReference (name : String) :
    (localReference name).toList = localStart ++ name.toList :=
  String.toList_append

theorem originalName_localReference {name : String} (h : Clean name) :
    originalName (localReference name) = some name := by
  rw [originalName, toList_localReference, List.drop_left, decodeURIComponent_of_clean h.2.2,
    Option.map_some, unescape_of_clean h.2.1]

theorem tokensOf_localReference {name : String} (h : Clean name) :
    Contracts.tokensOf (localReference name) = ["definitions", name] := by
  have hsplit : (localReference name).toList.drop 2 =
      "definitions".toList ++ '/' :: name.toList := by
    have hstart : localStart = '#' :: '/' :: ("definitions".toList ++ ['/']) := by decide
    rw [toList_localReference, hstart, List.cons_append, List.cons_append, List.drop_succ_cons,
      List.drop_succ_cons, List.drop_zero, List.append_assoc, List.singleton_append]
  have hslash : '/' ∉ "definitions".toList := by decide
  have htilde : '~' ∉ "definitions".toList := by decide
  rw [Contracts.tokensOf, hsplit, List.splitOn_append_cons_self_of_not_mem hslash,
    List.splitOn_eq_singleton h.1, List.map_cons, List.map_singleton, unescape_of_clean h.2.1,
    unescape_of_clean htilde]

/-- A reference leads to a definition: the compiler finds its name, and a reader that follows
pointers finds its value. -/
def Resolves (definitions : List (String × Json ν)) (reference : String) : Prop :=
  ∃ name value, target definitions reference = some name ∧ definitions.lookup name = some value ∧
    Contracts.follow (.object [("definitions", .object definitions)])
      (Contracts.tokensOf reference) = some value

theorem resolves_localReference {definitions : List (String × Json ν)} {name : String}
    {value : Json ν} (h : Clean name) (hvalue : definitions.lookup name = some value) :
    Resolves definitions (localReference name) := by
  refine ⟨name, value, ?_, hvalue, ?_⟩
  · rw [target, toList_localReference, if_pos (List.prefix_append _ _),
      originalName_localReference h]
    exact Option.filter_some_pos (by rw [hvalue]; rfl)
  · rw [tokensOf_localReference h]
    simp [Contracts.follow, Contracts.stepInto, hvalue]

theorem entryReference_replaceReferences (replace : String → String) (key : String)
    (child : Json ν) :
    entryReference key (replaceReferences replace child) = entryReference key child := by
  cases child <;> rfl

mutual
theorem references_replaceReferences (replace : String → String) : (value : Json ν) →
    references (replaceReferences replace value) = (references value).map replace
  | .null | .boolean _ | .number _ | .string _ => rfl
  | .array items => referencesItems_replaceItems replace items
  | .object fields => referencesFields_replaceFields replace fields

theorem referencesItems_replaceItems (replace : String → String) : (items : List (Json ν)) →
    referencesItems (replaceItems replace items) = (referencesItems items).map replace
  | [] => rfl
  | item :: items => by
    rw [replaceItems, referencesItems, referencesItems, references_replaceReferences replace item,
      referencesItems_replaceItems replace items, List.map_append]

theorem referencesFields_replaceFields (replace : String → String) :
    (fields : List (String × Json ν)) →
    referencesFields (replaceFields replace fields) = (referencesFields fields).map replace
  | [] => rfl
  | (key, child) :: fields => by
    rw [replaceFields, referencesFields, referencesFields,
      referencesFields_replaceFields replace fields, List.map_append]
    congr 1
    have hchild := references_replaceReferences replace child
    cases hentry : entryReference key child with
    | some reference =>
      have hkey : key = "$ref" := by
        unfold entryReference at hentry
        split at hentry
        · assumption
        · cases hentry
      simp [entryReference, hkey, Json.asString]
    | none =>
      simp only [entryReference_replaceReferences, hentry]
      exact hchild
end

/-! ## Extraction -/

/-- A public schema: the definitions that the roots need, under other names.  Roots keep their
names, no two definitions share one, and in the values only the references are changed. -/
structure IsPublic (definitions : List (String × Json ν)) (roots : List String)
    (name : String → String) (output : List (String × Json ν)) : Prop where
  fixed : ∀ root ∈ roots, name root = root
  injective : Set.InjOn name {original | Reachable definitions roots original}
  keys : (output.map Prod.fst).Nodup
  entries : ∀ entry, entry ∈ output ↔
    ∃ original, Reachable definitions roots original ∧ entry = publicEntry definitions name original
  resolves : ∀ entry ∈ output, ∀ reference ∈ references entry.2, Resolves output reference

theorem lookup_of_mem {α : Type} {entries : List (String × α)}
    (hkeys : (entries.map Prod.fst).Nodup) {entry : String × α} (h : entry ∈ entries) :
    entries.lookup entry.1 = some entry.2 := by
  obtain ⟨before, after, rfl⟩ := List.append_of_mem h
  refine List.lookup_eq_some_iff.mpr ⟨before, after, rfl, fun earlier hearlier => ?_⟩
  rw [List.map_append, List.nodup_append] at hkeys
  exact bne_iff_ne.mpr fun heq =>
    hkeys.2.2 earlier.1 (List.mem_map_of_mem hearlier) entry.1 (by simp) heq.symm

section

variable {definitions : List (String × Json ν)} {roots : List String} {walk : Walk}

/-- The names of the pending definitions are clean. -/
theorem Sound.clean_name (h : Sound definitions roots walk) (hclean : ∀ root ∈ roots, Clean root)
    {original : String} (hmem : original ∈ walk.pending) : Clean (walk.name original) := by
  obtain ⟨name, hname⟩ := h.exists_name_iff.mpr hmem
  obtain ⟨rest, hrest⟩ := h
  rw [Walk.name, hname, Option.getD_some]
  rcases hrest.name_cases hname with ⟨hroot, rfl⟩ | ⟨number, -, rfl⟩
  · exact hclean _ hroot
  · exact clean_typeName number

/-- Different pending definitions have different names. -/
theorem Sound.name_injOn (h : Sound definitions roots walk) {original other : String}
    (horiginal : original ∈ walk.pending) (hother : other ∈ walk.pending)
    (heq : walk.name original = walk.name other) : original = other := by
  obtain ⟨name, hname⟩ := h.exists_name_iff.mpr horiginal
  obtain ⟨name', hname'⟩ := h.exists_name_iff.mpr hother
  rw [Walk.name, Walk.name, hname, hname', Option.getD_some, Option.getD_some] at heq
  subst heq
  exact h.name_injective hname hname'

/-- What the loop has collected at its end. -/
theorem Processed.isPublic (hclean : ∀ root ∈ roots, Clean root)
    {publicDefinitions : List (String × Json ν)}
    (h : Processed definitions roots walk.pending.length walk publicDefinitions) :
    IsPublic definitions roots walk.name (fromEntries publicDefinitions) := by
  have hpublic : publicDefinitions = walk.pending.map (publicEntry definitions walk.name) := by
    rw [h.entries walk (.refl walk), List.take_length]
  have hsame : ∀ first ∈ publicDefinitions, ∀ second ∈ publicDefinitions,
      first.1 = second.1 → first = second := by
    rw [hpublic]
    intro first hfirst second hsecond heq
    obtain ⟨original, horiginal, rfl⟩ := List.mem_map.mp hfirst
    obtain ⟨other, hother, rfl⟩ := List.mem_map.mp hsecond
    rw [h.sound.name_injOn horiginal hother heq]
  obtain ⟨hkeys, hmem⟩ := fromEntries_spec hsame
  have hentries : ∀ entry, entry ∈ fromEntries publicDefinitions ↔
      ∃ original, Reachable definitions roots original ∧
        entry = publicEntry definitions walk.name original := by
    intro entry
    rw [hmem, hpublic, List.mem_map]
    refine exists_congr fun original => and_congr h.mem_pending_iff eq_comm
  refine ⟨fun root hroot => ?_, fun original horiginal other hother => ?_, hkeys, hentries,
    fun entry hentry reference hreference => ?_⟩
  · rw [Walk.name, h.sound.lookup_root hroot, Option.getD_some]
  · exact h.sound.name_injOn (h.mem_pending_iff.mpr horiginal) (h.mem_pending_iff.mpr hother)
  · obtain ⟨original, horiginal, rfl⟩ := (hentries entry).mp hentry
    have hpending := h.mem_pending_iff.mpr horiginal
    rw [publicEntry, references_replaceReferences] at hreference
    obtain ⟨old, hold, rfl⟩ := List.mem_map.mp hreference
    obtain ⟨other, hother, htarget⟩ := h.closed original (by rwa [List.take_length]) old hold
    rw [renamed, htarget, Option.getD_some]
    have hentry' : publicEntry definitions walk.name other ∈ fromEntries publicDefinitions :=
      (hentries _).mpr ⟨other, h.mem_pending_iff.mp hother, rfl⟩
    exact resolves_localReference (h.sound.clean_name hclean hother) (lookup_of_mem hkeys hentry')

end

/-- For roots that are defined and whose names stand for themselves in references, the extraction
ends.  It fails exactly if a definition that the roots need has a reference that is not local or
names nothing, and otherwise returns exactly the definitions that the roots need. -/
theorem extractPublicSchema_is_reachability (schema : Schema ν) (roots : List String)
    (hroots : ∀ root ∈ roots, ((schema.definitions.getD []).lookup root).isSome)
    (hclean : ∀ root ∈ roots, Clean root) :
    ((∃ error, extractPublicSchema schema roots = some (.error error)) ∧
        ∃ original, Reachable (schema.definitions.getD []) roots original ∧
          Dangling (schema.definitions.getD []) original) ∨
      ((¬ ∃ original, Reachable (schema.definitions.getD []) roots original ∧
          Dangling (schema.definitions.getD []) original) ∧
        ∃ name output,
          extractPublicSchema schema roots =
            some (.ok { schema := schema.schema, definitions := some output }) ∧
          IsPublic (schema.definitions.getD []) roots name output) := by
  have hspec := processFrom_spec hroots (processed_start (schema.definitions.getD []) roots)
    (Nat.lt_succ_self _)
  unfold extractPublicSchema
  cases hresult : processFrom (schema.definitions.getD []) roots
      (roots.length + (schema.definitions.getD []).length + 1) 0 (.start roots) [] with
  | none =>
    rw [hresult] at hspec
    exact hspec.elim
  | some result =>
    rw [hresult] at hspec
    cases result with
    | error error => exact .inl ⟨⟨error, by simp [hresult, Except.map]⟩, hspec⟩
    | ok result =>
      obtain ⟨walk, publicDefinitions⟩ := result
      refine .inr ⟨?_, walk.name, fromEntries publicDefinitions, by simp [hresult, Except.map],
        hspec.isPublic hclean⟩
      rintro ⟨original, hreachable, hdangling⟩
      exact not_dangling_of_processed hspec hreachable hdangling

/-- Two definitions that refer to each other, and one that nothing needs. -/
def cyclicSchema : Schema Nat where
  schema := none
  definitions := some
    [("A", .object [("$ref", .string "#/definitions/B%20C")]),
      ("B C", .object [("$ref", .string "#/definitions/A")]), ("D", .boolean true)]

/-- What the root {lit}`A` needs of it. -/
def cyclicPublic : List (String × Json Nat) :=
  [("A", .object [("$ref", .string "#/definitions/Type0")]),
    ("Type0", .object [("$ref", .string "#/definitions/A")])]

/-- The walk after the root was processed. -/
def cyclicWalk : Walk where
  names := [("A", "A"), ("B C", "Type0")]
  pending := ["A", "B C"]
  nextType := 1

theorem rename_root :
    rename (cyclicSchema.definitions.getD []) ["A"] "#/definitions/B%20C" (.start ["A"]) =
      .ok ("#/definitions/Type0", cyclicWalk) := by
  decide +kernel

theorem rename_other :
    rename (cyclicSchema.definitions.getD []) ["A"] "#/definitions/A" cyclicWalk =
      .ok ("#/definitions/A", cyclicWalk) := by
  decide +kernel

/-- A definition that is a reference is processed. -/
theorem processFrom_reference {definitions : List (String × Json ν)} {roots : List String}
    {fuel index : Nat} {walk later : Walk} {publicDefinitions : List (String × Json ν)}
    {original reference text : String} (hpending : walk.pending[index]? = some original)
    (hlookup : definitions.lookup original = some (.object [("$ref", .string reference)]))
    (hrename : rename definitions roots reference walk = .ok (text, later)) :
    processFrom definitions roots (fuel + 1) index walk publicDefinitions =
      processFrom definitions roots fuel (index + 1) later (publicDefinitions ++
        [((walk.names.lookup original).getD "undefined", .object [("$ref", .string text)])]) := by
  rw [processFrom, hpending]
  simp [hlookup, rewriteReferences, rewriteFields, entryReference, Json.asString, hrename,
    Except.map, bind, Except.bind, pure, Except.pure]

theorem extractPublicSchema_cyclic :
    extractPublicSchema cyclicSchema ["A"] =
      some (.ok { schema := none, definitions := some cyclicPublic }) := by
  have hprocess : processFrom (cyclicSchema.definitions.getD []) ["A"] 5 0 (.start ["A"]) [] =
      some (.ok (cyclicWalk, cyclicPublic)) :=
    (processFrom_reference rfl rfl rename_root).trans
      ((processFrom_reference rfl rfl rename_other).trans rfl)
  have hfuel : ["A"].length + (cyclicSchema.definitions.getD []).length + 1 = 5 := by
    simp [cyclicSchema]
  have hentries : fromEntries cyclicPublic = cyclicPublic := by
    simp [fromEntries, cyclicPublic, setProperty]
  simp only [extractPublicSchema, hfuel, hprocess, Option.map_some, Except.map, hentries]
  simp [cyclicSchema]

theorem extractPublicSchema_is_reachability_of_cyclic :
    extractPublicSchema cyclicSchema ["A"] =
        some (.ok { schema := none, definitions := some cyclicPublic }) ∧
      ∃ name, IsPublic (cyclicSchema.definitions.getD []) ["A"] name cyclicPublic := by
  have hextract := extractPublicSchema_cyclic
  refine ⟨hextract, ?_⟩
  obtain ⟨⟨error, herror⟩, -⟩ | ⟨-, name, output, houtput, hpublic⟩ :=
    extractPublicSchema_is_reachability cyclicSchema ["A"] (by decide) (by decide)
  · rw [hextract] at herror
    cases herror
  · rw [hextract] at houtput
    cases houtput
    exact ⟨name, hpublic⟩

end PublicSchema
end DurableActors
