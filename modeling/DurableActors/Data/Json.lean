import Mathlib

/-!
# JSON documents and schemas

Documents over a type of numbers, so that two sides with different numbers can read
the same document: the reader's document is the writer's with every number mapped.

A schema is a function that reads a document or rejects it.  A reader agrees with a
writer when the schema accepts the document and what was read looks the same as
what was written.

Main results:

- Theorem {lit}`prune_agrees_iff`: dropping fields shows unless there are none to drop.
- Theorem {lit}`agrees_asArray`: an array agrees when every item does.
-/

/-- A JSON document with numbers of the given type. -/
inductive Json (ν : Type)
  | null
  | boolean (value : Bool)
  | number (value : ν)
  | string (text : String)
  | array (items : List (Json ν))
  | object (fields : List (String × Json ν))

namespace Json

variable {ν μ δ : Type} {α β γ : Type}

/-! ## Numbers and fields of a document -/

mutual
/-- The document with every number mapped. -/
def map (f : ν → μ) : Json ν → Json μ
  | null => null
  | boolean value => boolean value
  | number value => number (f value)
  | string text => string text
  | array items => array (mapItems f items)
  | object fields => object (mapFields f fields)

def mapItems (f : ν → μ) : List (Json ν) → List (Json μ)
  | [] => []
  | item :: items => map f item :: mapItems f items

def mapFields (f : ν → μ) : List (String × Json ν) → List (String × Json μ)
  | [] => []
  | (name, value) :: fields => (name, map f value) :: mapFields f fields
end

mutual
/-- The document without the fields of the given name. -/
def prune (drop : String) : Json ν → Json ν
  | null => null
  | boolean value => boolean value
  | number value => number value
  | string text => string text
  | array items => array (pruneItems drop items)
  | object fields => object (pruneFields drop fields)

def pruneItems (drop : String) : List (Json ν) → List (Json ν)
  | [] => []
  | item :: items => prune drop item :: pruneItems drop items

def pruneFields (drop : String) : List (String × Json ν) → List (String × Json ν)
  | [] => []
  | (name, value) :: fields =>
      if name = drop then pruneFields drop fields
      else (name, prune drop value) :: pruneFields drop fields
end

mutual
/-- The numbers of a document. -/
def numbers : Json ν → List ν
  | null | boolean _ | string _ => []
  | number value => [value]
  | array items => numbersItems items
  | object fields => numbersFields fields

def numbersItems : List (Json ν) → List ν
  | [] => []
  | item :: items => numbers item ++ numbersItems items

def numbersFields : List (String × Json ν) → List ν
  | [] => []
  | (_, value) :: fields => numbers value ++ numbersFields fields
end

mutual
/-- The names of the fields of a document, at every depth. -/
def names : Json ν → List String
  | null | boolean _ | string _ | number _ => []
  | array items => namesItems items
  | object fields => namesFields fields

def namesItems : List (Json ν) → List String
  | [] => []
  | item :: items => names item ++ namesItems items

def namesFields : List (String × Json ν) → List String
  | [] => []
  | (name, value) :: fields => name :: (names value ++ namesFields fields)
end

mutual
/-- The bytes of the document's text, given those of numbers and strings. -/
def bytes (number : ν → Nat) (string : String → Nat) : Json ν → Nat
  | .null => 4
  | .boolean value => if value then 4 else 5
  | .number value => number value
  | .string text => string text
  | .array items => 2 + (items.length - 1) + bytesItems number string items
  | .object fields => 2 + (fields.length - 1) + bytesFields number string fields

def bytesItems (number : ν → Nat) (string : String → Nat) : List (Json ν) → Nat
  | [] => 0
  | item :: items => bytes number string item + bytesItems number string items

def bytesFields (number : ν → Nat) (string : String → Nat) : List (String × Json ν) → Nat
  | [] => 0
  | (name, value) :: fields =>
      string name + 1 + bytes number string value + bytesFields number string fields
end

theorem mapItems_eq_map (f : ν → μ) (items : List (Json ν)) :
    mapItems f items = items.map (map f) := by
  induction items with
  | nil => simp [mapItems]
  | cons item items ih => simp [mapItems, ih]

theorem mapFields_append (f : ν → μ) (fields others : List (String × Json ν)) :
    mapFields f (fields ++ others) = mapFields f fields ++ mapFields f others := by
  induction fields with
  | nil => simp [mapFields]
  | cons field fields ih => simp [mapFields, ih]

theorem length_mapFields (f : ν → μ) (fields : List (String × Json ν)) :
    (mapFields f fields).length = fields.length := by
  induction fields with
  | nil => simp [mapFields]
  | cons field fields ih => simp [mapFields, ih]

theorem length_pruneFields_le (drop : String) (fields : List (String × Json ν)) :
    (pruneFields drop fields).length ≤ fields.length := by
  induction fields with
  | nil => simp [pruneFields]
  | cons field fields ih =>
      simp only [pruneFields]
      split
      · exact Nat.le_succ_of_le ih
      · simpa using ih

section Agreement

variable (f : ν → μ) (g : μ → δ) (h : ν → δ) (drop : String)

mutual
/-- The reader sees every number and field of the writer exactly when its numbers look the same and
no field is dropped. -/
theorem prune_agrees_iff : (document : Json ν) →
    ((prune drop (map f document)).map g = document.map h ↔
      (∀ n ∈ document.numbers, g (f n) = h n) ∧ drop ∉ document.names)
  | null | boolean _ | string _ | number _ => by simp [map, prune, numbers, names]
  | array items => by simpa [map, prune, numbers, names] using pruneItems_agrees_iff items
  | object fields => by simpa [map, prune, numbers, names] using pruneFields_agrees_iff fields

theorem pruneItems_agrees_iff : (items : List (Json ν)) →
    (mapItems g (pruneItems drop (mapItems f items)) = mapItems h items ↔
      (∀ n ∈ numbersItems items, g (f n) = h n) ∧ drop ∉ namesItems items)
  | [] => by simp [mapItems, pruneItems, numbersItems, namesItems]
  | item :: items => by
      simp only [mapItems, pruneItems, numbersItems, namesItems, List.cons.injEq,
        List.mem_append, or_imp, forall_and, not_or, prune_agrees_iff item,
        pruneItems_agrees_iff items]
      tauto

theorem pruneFields_agrees_iff : (fields : List (String × Json ν)) →
    (mapFields g (pruneFields drop (mapFields f fields)) = mapFields h fields ↔
      (∀ n ∈ numbersFields fields, g (f n) = h n) ∧ drop ∉ namesFields fields)
  | [] => by simp [mapFields, pruneFields, numbersFields, namesFields]
  | (name, value) :: fields => by
      simp only [mapFields, pruneFields, numbersFields, namesFields]
      by_cases hname : name = drop
      · -- A dropped field leaves too few.
        simp only [hname, if_true, List.mem_cons, true_or, not_true_eq_false, and_false, iff_false]
        intro heq
        have hlength := congrArg List.length heq
        have hle := length_pruneFields_le drop (mapFields f fields)
        simp only [length_mapFields, List.length_cons] at hlength hle
        omega
      · simp only [hname, if_false, mapFields, List.cons.injEq, Prod.mk.injEq, true_and,
          List.mem_append, List.mem_cons, or_imp, forall_and, not_or, prune_agrees_iff value,
          pruneFields_agrees_iff fields, Ne.symm hname, false_or]
        tauto
end

end Agreement

/-! ## Schemas -/

def asString : Json ν → Option String
  | string text => some text
  | _ => none

def asBoolean : Json ν → Option Bool
  | boolean value => some value
  | _ => none

def asArray (schema : Json ν → Option α) : Json ν → Option (List α)
  | array items => items.mapM schema
  | _ => none

def asObject : Json ν → Option (List (String × Json ν))
  | object fields => some fields
  | _ => none

/-- A field that must be there. -/
def field (fields : List (String × Json ν)) (name : String) (schema : Json ν → Option α) :
    Option α :=
  (fields.lookup name).bind schema

/-- A field that may be missing. -/
def optionalField (fields : List (String × Json ν)) (name : String)
    (schema : Json ν → Option α) : Option (Option α) :=
  match fields.lookup name with
  | none => some none
  | some value => (schema value).map some

section Fields

variable {fields : List (String × Json ν)} {name other : String} {value : Json ν}
  {schema : Json ν → Option α}

@[simp] theorem field_cons_self : field ((name, value) :: fields) name schema = schema value := by
  simp [field]

@[simp] theorem field_cons_of_ne (h : name ≠ other) :
    field ((other, value) :: fields) name schema = field fields name schema := by
  simp [field, List.lookup_cons, beq_false_of_ne h]

@[simp] theorem optionalField_nil :
    optionalField ([] : List (String × Json ν)) name schema = some none := rfl

@[simp] theorem optionalField_cons_self :
    optionalField ((name, value) :: fields) name schema = (schema value).map some := by
  simp [optionalField]

@[simp] theorem optionalField_cons_of_ne (h : name ≠ other) :
    optionalField ((other, value) :: fields) name schema = optionalField fields name schema := by
  simp [optionalField, List.lookup_cons, beq_false_of_ne h]

theorem optionalField_append {others : List (String × Json ν)}
    (h : ∀ field ∈ fields, field.1 ≠ name) :
    optionalField (fields ++ others) name schema = optionalField others name schema := by
  induction fields with
  | nil => rfl
  | cons field fields ih =>
      rw [List.forall_mem_cons] at h
      rw [List.cons_append, optionalField_cons_of_ne h.1.symm, ih h.2]

end Fields

/-- A value that passes a check. -/
def refine (check : α → Prop) [DecidablePred check] (value : Option α) : Option α :=
  value.filter fun value => check value

@[simp] theorem refine_some (check : α → Prop) [DecidablePred check] (value : α) :
    refine check (some value) = if check value then some value else none := by
  simp [refine, Option.filter]

theorem refine_eq_some {check : α → Prop} [DecidablePred check] {read : Option α} {value : α} :
    refine check read = some value ↔ read = some value ∧ check value := by
  simp [refine, Option.filter_eq_some_iff]

/-- The schema accepts the document and what it read looks as given. -/
def Agrees (read : Option α) (view : α → β) (seen : β) : Prop :=
  ∃ value, read = some value ∧ view value = seen

theorem agrees_some {value : α} {view : α → β} {seen : β} :
    Agrees (some value) view seen ↔ view value = seen := by
  simp [Agrees]

@[simp] theorem agrees_none {view : α → β} {seen : β} : ¬ Agrees none view seen := by
  simp [Agrees]

/-- What is made of one reading. -/
theorem agrees_bind {read : Option α} {make : α → β} {view : β → γ} {seen : γ} {look : α → δ}
    {part : δ} (h : ∀ value, view (make value) = seen ↔ look value = part) :
    Agrees (read.bind fun value => some (make value)) view seen ↔ Agrees read look part := by
  cases read with
  | none => simp
  | some value => simp [agrees_some, h]

/-- What is made of two readings. -/
theorem agrees_bind₂ {ε κ : Type} {read : Option α} {other : Option κ} {make : α → κ → β}
    {view : β → γ} {seen : γ} {look : α → δ} {part : δ} {glance : κ → ε} {rest : ε}
    (h : ∀ value second, view (make value second) = seen ↔
      look value = part ∧ glance second = rest) :
    Agrees (read.bind fun value => other.bind fun second => some (make value second)) view seen ↔
      Agrees read look part ∧ Agrees other glance rest := by
  cases read with
  | none => simp
  | some value =>
      cases other with
      | none => simp
      | some second => simp [agrees_some, h]

/-- An array agrees when every item does. -/
theorem agrees_mapM (schema : Json ν → Option α) (view : α → β) (write : γ → Json ν)
    (look : γ → β) (items : List γ) :
    Agrees ((items.map write).mapM schema) (List.map view) (items.map look) ↔
      ∀ item ∈ items, Agrees (schema (write item)) view (look item) := by
  induction items with
  | nil => simp [Agrees]
  | cons item items ih =>
      rw [List.forall_mem_cons, ← ih]
      simp only [Agrees, List.map_cons, List.mapM_cons, Option.bind_eq_bind,
        Option.bind_eq_some_iff, Option.pure_def, Option.some.injEq]
      constructor
      · rintro ⟨_, ⟨value, hvalue, values, hvalues, rfl⟩, hview⟩
        simp only [List.map_cons, List.cons.injEq] at hview
        exact ⟨⟨value, hvalue, hview.1⟩, values, hvalues, hview.2⟩
      · rintro ⟨⟨value, hvalue, hview⟩, values, hvalues, hviews⟩
        exact ⟨_, ⟨value, hvalue, values, hvalues, rfl⟩, by simp [hview, hviews]⟩

end Json
