import DurableActors.Data.Base64
import DurableActors.Data.Digits
import DurableActors.Actor.Protocol

/-!
# Names in the bucket

The names of snapshot objects and owner records of {lit}`storage_paths.rs` and {lit}`storage.rs`,
the streams and positions of {lit}`bucket/runtime.rs`, and the parsers that read them back.

Names are lists of characters.

Main results:

- Theorem {lit}`actorFromSnapshot_name`: the actor of a snapshot's name.
- Theorem {lit}`snapshotPosition_name`: the epoch and version of a snapshot's name.
- Theorem {lit}`storage_names_faithful`: names determine what they name.
-/

namespace DurableActors
namespace Paths

/-- What the libraries compute: the first byte of a SHA-256 hash, and the texts of decoding
errors. -/
structure Libraries where
  firstByte : String → UInt8
  decodeError : List Char → Error

/-! ## Paths -/

/-- {lit}`ROOT`. -/
@[irreducible] def root : List Char := "durable-actors/v3/".toList

/-- The directory of snapshots. -/
@[irreducible] def snapshotsDirectory : List Char := "snapshots".toList

/-- The directory of owner records. -/
@[irreducible] def ownersDirectory : List Char := "owners".toList

/-- The ending of every object. -/
@[irreducible] def json : List Char := ".json".toList

/-- The start of a storage key. -/
@[irreducible] def keyStart : List Char := "object.v4.".toList

/-- The last part of the first version's name. -/
@[irreducible] def firstName : List Char := "1.json".toList

/-- {lit}`str::strip_prefix`. -/
def strip (start text : List Char) : Option (List Char) :=
  if start <+: text then some (text.drop start.length) else none

/-- {lit}`str::strip_suffix`. -/
def stripEnd (ending text : List Char) : Option (List Char) :=
  if ending <:+ text then some (text.take (text.length - ending.length)) else none

/-- {lit}`component`. -/
def component (value : String) : List Char := Base64.encode value.toByteArray.data.toList

variable (libraries : Libraries)

/-- {lit}`decode`. -/
def decode (text : List Char) : Except Error String :=
  match (Base64.decode text).bind fun bytes => String.fromUTF8? ⟨bytes.toArray⟩ with
  | some value => .ok value
  | none => .error (libraries.decodeError text)

/-- {lit}`actor_path`. -/
def actorPath (actor : ActorKey) : List Char :=
  Digits.pad 2 (Digits.format 16 (libraries.firstByte actor.storageKey).toNat) ++
    '/' :: component actor.projectId ++
    '/' :: component actor.actorName ++
    '/' :: component actor.actorId

/-- {lit}`snapshots`. -/
def snapshots (actor : ActorKey) : Except Error (List Char) := do
  actor.validate
  return root ++ snapshotsDirectory ++ '/' :: actorPath libraries actor ++ ['/']

/-- {lit}`actor_from_key`. -/
def actorFromKey (key : String) : Except Error ActorKey := do
  let some rest := strip keyStart key.toList | .error "invalid actor key"
  let [projectId, actorName, actorId] := rest.splitOn ':' | .error "invalid actor identity"
  let actor : ActorKey :=
    { projectId := String.ofList projectId
      actorName := String.ofList actorName
      actorId := String.ofList actorId }
  actor.validate
  return actor

/-- {lit}`owner`. -/
def owner (key : String) : Except Error (List Char) := do
  let actor ← actorFromKey key
  return root ++ ownersDirectory ++ '/' :: actorPath libraries actor ++ json

/-- {lit}`actor_from_snapshot`. -/
def actorFromSnapshot (object : List Char) : Except Error ActorKey := do
  let some rest := strip root object | .error "invalid snapshot root"
  let [kind, _, projectId, actorName, actorId, _, _] := rest.splitOn '/'
    | .error "invalid snapshot path"
  if kind ≠ snapshotsDirectory then
    .error "invalid snapshot path"
  else
    let actor : ActorKey :=
      { projectId := ← decode libraries projectId
        actorName := ← decode libraries actorName
        actorId := ← decode libraries actorId }
    actor.validate
    let start ← snapshots libraries actor
    if start <+: object then .ok actor else .error "snapshot shard mismatch"

/-! ## Snapshots -/

/-- {lit}`u8::is_ascii_hexdigit`. -/
def isAsciiHexdigit (c : Char) : Bool := (Digits.toDigit 16 c).isSome

/-- The check of a nonce. -/
def isNonce (nonce : List Char) : Bool := nonce.length = 32 && nonce.all isAsciiHexdigit

/-- {lit}`snapshot_object_name`. -/
def snapshotObjectName (actor : ActorKey) (stateVersion : Nat) (nonce : List Char) :
    Except Error (List Char) := do
  actor.validate
  if stateVersion = 0 then .error "actor state version must be positive"
  else if !isNonce nonce then .error "actor state object nonce is invalid"
  else
    let start ← snapshots libraries actor
    return start ++ nonce ++ '/' :: Digits.format 10 stateVersion ++ json

/-- {lit}`char::is_control`. -/
def isControl (c : Char) : Bool := c.toNat < 32 || (127 ≤ c.toNat && c.toNat < 160)

/-- {lit}`validate_object_name`. -/
def validateObjectName (name : List Char) : Except Error Unit :=
  if root <+: name ∧ (name.map Char.utf8Size).sum ≤ 1024 ∧ ¬ name.any isControl then .ok ()
  else .error "actor state object name is invalid"

/-- {lit}`validate_snapshot_object_name`. -/
def validateSnapshotObjectName (actor : ActorKey) (stateVersion : Nat) (name : List Char) :
    Except Error Unit := do
  validateObjectName name
  let start ← snapshots libraries actor
  match ((strip start name).getD []).splitOn '/' with
  | [nonce, version] =>
      if isNonce nonce && version = Digits.format 10 stateVersion ++ json then .ok ()
      else .error "actor state object name does not match its commit"
  | _ => .error "actor state object name does not match its commit"

/-- The nonce of an epoch. -/
def epochNonce (epoch : Nat) : List Char := Digits.pad 32 (Digits.format 16 epoch)

/-- The name of a stream, {lit}`Ownership::stream`. -/
def stream (actor : ActorKey) (epoch : Nat) : Except Error (List Char) := do
  let name ← snapshotObjectName libraries actor 1 (epochNonce epoch)
  let some start := stripEnd firstName name
    | .error "called `Option::unwrap()` on a `None` value"
  return start

/-- The object of a version of a stream, {lit}`ReplicaStream::object_name`. -/
def objectName (stream : List Char) (version : Nat) : List Char :=
  stream ++ Digits.format 10 version ++ json

/-- {lit}`snapshot_position`. -/
def snapshotPosition (object : List Char) : Option (Nat × Nat) := do
  let parts := (object.splitOn '/').reverse
  let name ← parts.head?
  let version ← Digits.parse 10 (2 ^ 64) (← stripEnd json name)
  let epoch ← Digits.parse 16 (2 ^ 64) (← parts.tail.head?)
  return (epoch, version)

/-! ## Texts -/

theorem strip_append (start text : List Char) : strip start (start ++ text) = some text := by
  simp [strip]

theorem stripEnd_append (text ending : List Char) :
    stripEnd ending (text ++ ending) = some text := by
  simp [stripEnd]

theorem decode_component (value : String) : decode libraries (component value) = .ok value := by
  have hutf8 : String.fromUTF8? value.toByteArray = some value := by
    rw [String.fromUTF8?, dif_pos value.isValidUTF8]
    rfl
  have hbytes : (Base64.decode (component value)).bind
      (fun bytes => String.fromUTF8? ⟨bytes.toArray⟩) = some value := by
    rw [component, Base64.decode_encode, Option.bind_some]
    exact hutf8
  rw [decode, hbytes]

theorem slash_notMem_component (value : String) : '/' ∉ component value := by
  intro hmem
  exact absurd (Base64.mem_encode hmem) (by decide)

/-- A number has no slash. -/
theorem slash_notMem_pad {radix : Nat} (hradix : 2 ≤ radix) (hradix' : radix ≤ 16) (width n : Nat) :
    '/' ∉ Digits.pad width (Digits.format radix n) := by
  intro hmem
  obtain ⟨d, hd, heq⟩ := Digits.mem_pad hradix hmem
  have hall : ∀ d : Fin 16, '/' ≠ Nat.digitChar d := by decide
  exact hall ⟨d, hd.trans_le hradix'⟩ heq

theorem pad_zero (text : List Char) : Digits.pad 0 text = text := by
  simp [Digits.pad]

theorem slash_notMem_version (version : Nat) :
    '/' ∉ Digits.format 10 version ++ json := by
  have hformat := slash_notMem_pad (by decide : 2 ≤ 10) (by decide) 0 version
  rw [pad_zero] at hformat
  rw [List.mem_append, not_or]
  exact ⟨hformat, by decide +kernel⟩

theorem slash_notMem_epochNonce (epoch : Nat) : '/' ∉ epochNonce epoch :=
  slash_notMem_pad (by decide) (by decide) 32 epoch

/-- The nonce of an epoch is one. -/
theorem isNonce_epochNonce {epoch : Nat} (h : epoch < 2 ^ 64) : isNonce (epochNonce epoch) := by
  have hlength : (Digits.format 16 epoch).length ≤ 16 :=
    Digits.length_format_le (by decide) (by decide) (h.trans_le (by decide))
  have hdigits : ∀ c ∈ epochNonce epoch, isAsciiHexdigit c = true := by
    intro c hc
    obtain ⟨d, hd, rfl⟩ := Digits.mem_pad (by decide) hc
    rw [isAsciiHexdigit, Digits.toDigit_digitChar (Nat.le_refl 16) hd]
    rfl
  rw [isNonce, Bool.and_eq_true, decide_eq_true_eq, List.all_eq_true]
  exact ⟨Digits.length_pad (hlength.trans (by decide)), hdigits⟩

/-! ## Actors -/

/-- The parts of a validated key. -/
theorem components_of_validate {actor : ActorKey} (h : actor.validate = .ok ()) :
    validateComponent "project ID" actor.projectId 64 = .ok () ∧
      validateComponent "actor name" actor.actorName 48 = .ok () ∧
      validateComponent "actor ID" actor.actorId 128 = .ok () := by
  unfold ActorKey.validate at h
  simp only [bind, Except.bind] at h
  split at h
  · cases h
  rename_i hproject
  split at h
  · cases h
  rename_i hname
  split at h
  · cases h
  rename_i hid
  exact ⟨hproject, hname, hid⟩

theorem colon_notMem {name value : String} {maxBytes : Nat}
    (h : validateComponent name value maxBytes = .ok ()) : ':' ∉ value.toList := by
  intro hmem
  exact absurd ((validateComponent_ok h).2.2 ':' hmem) (by decide)

theorem storageKey_toList (actor : ActorKey) :
    actor.storageKey.toList = keyStart ++ (actor.projectId.toList ++
      ':' :: (actor.actorName.toList ++ ':' :: actor.actorId.toList)) := by
  have hcolon : ":".toList = [':'] := rfl
  have hstart : "object.v4.".toList = keyStart := by decide +kernel
  rw [← hstart]
  simp only [ActorKey.storageKey, toString, String.toList_append, hcolon, List.append_assoc,
    List.cons_append, List.nil_append]

/-- The key of an actor names the actor. -/
theorem actorFromKey_storageKey {actor : ActorKey} (h : actor.validate = .ok ()) :
    actorFromKey actor.storageKey = .ok actor := by
  obtain ⟨hproject, hname, hid⟩ := components_of_validate h
  have hparts : (actor.projectId.toList ++ ':' :: (actor.actorName.toList ++
      ':' :: actor.actorId.toList)).splitOn ':' =
        [actor.projectId.toList, actor.actorName.toList, actor.actorId.toList] := by
    rw [List.splitOn_append_cons_self_of_not_mem (colon_notMem hproject),
      List.splitOn_append_cons_self_of_not_mem (colon_notMem hname),
      List.splitOn_eq_singleton (colon_notMem hid)]
  rw [actorFromKey, storageKey_toList, strip_append]
  simp only [hparts, String.ofList_toList, h, bind, Except.bind, pure, Except.pure]

/-! ## Names -/

/-- A stream's name behind the root and the directory. -/
def streamPath (actor : ActorKey) (epoch : Nat) (rest : List Char) : List Char :=
  Digits.pad 2 (Digits.format 16 (libraries.firstByte actor.storageKey).toNat) ++
    '/' :: (component actor.projectId ++
    '/' :: (component actor.actorName ++
    '/' :: (component actor.actorId ++
    '/' :: (epochNonce epoch ++ '/' :: rest))))

variable {actor : ActorKey} {epoch version : Nat}

theorem snapshots_eq (h : actor.validate = .ok ()) :
    snapshots libraries actor =
      .ok (root ++ snapshotsDirectory ++ '/' :: actorPath libraries actor ++ ['/']) := by
  rw [snapshots, h]
  rfl

theorem snapshotObjectName_eq (h : actor.validate = .ok ()) (hepoch : epoch < 2 ^ 64)
    (hversion : 0 < version) :
    snapshotObjectName libraries actor version (epochNonce epoch) =
      .ok (root ++ (snapshotsDirectory ++ '/' ::
        streamPath libraries actor epoch (Digits.format 10 version ++ json))) := by
  rw [snapshotObjectName, h, snapshots_eq libraries h, isNonce_epochNonce hepoch]
  simp only [bind, Except.bind, if_neg hversion.ne', Bool.not_true, Bool.false_eq_true, if_false,
    pure, Except.pure, streamPath, actorPath, List.append_assoc, List.cons_append, List.nil_append]

theorem stream_eq (h : actor.validate = .ok ()) (hepoch : epoch < 2 ^ 64) :
    stream libraries actor epoch =
      .ok (root ++ (snapshotsDirectory ++ '/' :: streamPath libraries actor epoch [])) := by
  have hjson : Digits.format 10 1 ++ json = firstName := by decide +kernel
  have hname : root ++ (snapshotsDirectory ++ '/' ::
      streamPath libraries actor epoch (Digits.format 10 1 ++ json)) =
      root ++ (snapshotsDirectory ++ '/' :: streamPath libraries actor epoch []) ++ firstName := by
    simp only [streamPath, hjson, List.append_assoc, List.cons_append, List.nil_append]
  rw [stream, snapshotObjectName_eq libraries h hepoch Nat.one_pos, hname]
  simp only [bind, Except.bind, stripEnd_append, pure, Except.pure]

/-! ## Reading names -/

theorem slash_notMem_snapshotsDirectory : '/' ∉ snapshotsDirectory := by decide +kernel

/-- The parts of a stream's name. -/
theorem splitOn_streamPath (actor : ActorKey) (epoch : Nat) (rest : List Char) :
    (streamPath libraries actor epoch rest).splitOn '/' =
      Digits.pad 2 (Digits.format 16 (libraries.firstByte actor.storageKey).toNat) ::
        component actor.projectId :: component actor.actorName :: component actor.actorId ::
        epochNonce epoch :: rest.splitOn '/' := by
  rw [streamPath,
    List.splitOn_append_cons_self_of_not_mem
      (slash_notMem_pad (by decide) (by decide) 2 _),
    List.splitOn_append_cons_self_of_not_mem (slash_notMem_component _),
    List.splitOn_append_cons_self_of_not_mem (slash_notMem_component _),
    List.splitOn_append_cons_self_of_not_mem (slash_notMem_component _),
    List.splitOn_append_cons_self_of_not_mem (slash_notMem_epochNonce epoch)]

theorem splitOn_snapshot (actor : ActorKey) (epoch version : Nat) :
    (snapshotsDirectory ++ '/' :: streamPath libraries actor epoch
        (Digits.format 10 version ++ json)).splitOn '/' =
      [snapshotsDirectory,
        Digits.pad 2 (Digits.format 16 (libraries.firstByte actor.storageKey).toNat),
        component actor.projectId, component actor.actorName, component actor.actorId,
        epochNonce epoch, Digits.format 10 version ++ json] := by
  rw [List.splitOn_append_cons_self_of_not_mem slash_notMem_snapshotsDirectory,
    splitOn_streamPath, List.splitOn_eq_singleton (slash_notMem_version version)]

/-- A snapshot's name starts with the directory of its actor. -/
theorem snapshots_isPrefix (actor : ActorKey) (epoch : Nat) (rest : List Char) :
    root ++ snapshotsDirectory ++ '/' :: actorPath libraries actor ++ ['/'] <+:
      root ++ (snapshotsDirectory ++ '/' :: streamPath libraries actor epoch rest) := by
  refine ⟨epochNonce epoch ++ '/' :: rest, ?_⟩
  simp only [streamPath, actorPath, List.append_assoc, List.cons_append, List.nil_append]

/-- The name of a snapshot gives its actor back. -/
theorem actorFromSnapshot_name (h : actor.validate = .ok ()) (epoch version : Nat) :
    actorFromSnapshot libraries (root ++ (snapshotsDirectory ++ '/' ::
      streamPath libraries actor epoch (Digits.format 10 version ++ json))) = .ok actor := by
  have hstart := snapshots_isPrefix libraries actor epoch (Digits.format 10 version ++ json)
  rw [actorFromSnapshot, strip_append]
  simp only [splitOn_snapshot, decode_component, h, snapshots_eq libraries h, bind, Except.bind,
    ne_eq, not_true_eq_false, if_false, if_pos hstart]

/-- The name of a snapshot gives its epoch and version back. -/
theorem snapshotPosition_name (actor : ActorKey) (hepoch : epoch < 2 ^ 64)
    (hversion : version < 2 ^ 64) :
    snapshotPosition (root ++ (snapshotsDirectory ++ '/' ::
      streamPath libraries actor epoch (Digits.format 10 version ++ json))) =
        some (epoch, version) := by
  obtain ⟨start, hroot⟩ : ∃ start, root = start ++ ['/'] :=
    ⟨"durable-actors/v3".toList, by decide +kernel⟩
  have hparts : (root ++ (snapshotsDirectory ++ '/' :: streamPath libraries actor epoch
      (Digits.format 10 version ++ json))).splitOn '/' = start.splitOn '/' ++
        (snapshotsDirectory ++ '/' :: streamPath libraries actor epoch
          (Digits.format 10 version ++ json)).splitOn '/' := by
    rw [hroot, List.append_assoc, List.singleton_append, List.splitOn_append_cons_self]
  have hversion' : Digits.parse 10 (2 ^ 64) (Digits.format 10 version) = some version := by
    have hparse := Digits.parse_pad (by decide : 2 ≤ 10) (by decide) hversion 0
    rwa [pad_zero] at hparse
  have hepoch' : Digits.parse 16 (2 ^ 64) (epochNonce epoch) = some epoch :=
    Digits.parse_pad (by decide) (by decide) hepoch 32
  rw [snapshotPosition, hparts, splitOn_snapshot]
  generalize 2 ^ 64 = bound at hversion' hepoch' ⊢
  simp [stripEnd_append, hversion', hepoch']

/-! ## Accepting names -/

/-- A character of names. -/
def Printable (c : Char) : Prop := 33 ≤ c.toNat ∧ c.toNat < 127

instance : DecidablePred Printable := fun _ => inferInstanceAs (Decidable (_ ∧ _))

theorem printable_component (value : String) : ∀ c ∈ component value, Printable c := by
  intro c hc
  rcases Base64.mem_encode hc with h | rfl | rfl
  · simp only [Char.isAlphanum, Char.isAlpha, Char.isUpper, Char.isLower, Char.isDigit,
      Bool.or_eq_true, Bool.and_eq_true, decide_eq_true_eq, UInt32.le_iff_toNat_le] at h
    have hval : c.toNat = c.val.toNat := rfl
    simp at h
    unfold Printable
    omega
  · decide
  · decide

theorem printable_pad {radix : Nat} (hradix : 2 ≤ radix) (hradix' : radix ≤ 16) (width n : Nat) :
    ∀ c ∈ Digits.pad width (Digits.format radix n), Printable c := by
  intro c hc
  obtain ⟨d, hd, rfl⟩ := Digits.mem_pad hradix hc
  have hall : ∀ d : Fin 16, Printable (Nat.digitChar d) := by decide
  exact hall ⟨d, hd.trans_le hradix'⟩

theorem printable_of_all {text : List Char} (h : text.all (decide <| Printable ·) = true) :
    ∀ c ∈ text, Printable c := by
  simpa using h

theorem printable_version (version : Nat) :
    ∀ c ∈ Digits.format 10 version ++ json, Printable c := by
  have hformat := printable_pad (by decide : 2 ≤ 10) (by decide) 0 version
  rw [pad_zero] at hformat
  exact List.forall_mem_append.mpr ⟨hformat, printable_of_all (by decide +kernel)⟩

theorem validateObjectName_eq_ok {name : List Char} (hroot : root <+: name)
    (hlength : name.length ≤ 1024) (hprintable : ∀ c ∈ name, Printable c) :
    validateObjectName name = .ok () := by
  have hsize : name.map Char.utf8Size = List.replicate name.length 1 := by
    refine List.eq_replicate_iff.mpr ⟨List.length_map _, fun size hsize => ?_⟩
    obtain ⟨c, hc, rfl⟩ := List.mem_map.mp hsize
    refine Char.utf8Size_eq_one_iff.mpr ?_
    rw [UInt32.le_iff_toNat_le]
    exact Nat.le_of_lt_succ ((hprintable c hc).2.trans (by decide))
  have hcontrol : ¬ name.any isControl := by
    simp only [List.any_eq_true, not_exists, not_and]
    intro c hc
    obtain ⟨hlow, hhigh⟩ := hprintable c hc
    simp [isControl]
    omega
  exact if_pos ⟨hroot, by rw [hsize]; simpa using hlength, hcontrol⟩

theorem printable_streamPath (actor : ActorKey) (epoch : Nat) {rest : List Char}
    (hrest : ∀ c ∈ rest, Printable c) :
    ∀ c ∈ streamPath libraries actor epoch rest, Printable c := by
  have hslash : Printable '/' := by decide
  simp only [streamPath, List.forall_mem_append, List.forall_mem_cons]
  exact ⟨printable_pad (by decide) (by decide) 2 _, hslash, printable_component _, hslash,
    printable_component _, hslash, printable_component _, hslash,
    printable_pad (by decide) (by decide) 32 epoch, hslash, hrest⟩

theorem length_component_le {name value : String} {maxBytes : Nat}
    (h : validateComponent name value maxBytes = .ok ()) :
    (component value).length ≤ (maxBytes * 4 + 2) / 3 := by
  have hsize : value.toByteArray.data.toList.length ≤ maxBytes := (validateComponent_ok h).2.1
  rw [component, Base64.length_encode]
  omega

theorem length_streamPath_le (h : actor.validate = .ok ()) (hepoch : epoch < 2 ^ 64)
    (rest : List Char) : (streamPath libraries actor epoch rest).length ≤ 360 + rest.length := by
  obtain ⟨hproject, hname, hid⟩ := components_of_validate h
  have hproject := length_component_le hproject
  have hname := length_component_le hname
  have hid := length_component_le hid
  have hshard : (Digits.pad 2 (Digits.format 16
      (libraries.firstByte actor.storageKey).toNat)).length = 2 :=
    Digits.length_pad (Digits.length_format_le (by decide) (by decide)
      ((libraries.firstByte actor.storageKey).toNat_lt.trans_le (by decide)))
  have hnonce : (epochNonce epoch).length = 32 := by
    have := isNonce_epochNonce hepoch
    simp only [isNonce, Bool.and_eq_true, decide_eq_true_eq] at this
    exact this.1
  simp only [streamPath, List.length_append, List.length_cons]
  omega

/-- Every generated name is accepted. -/
theorem validateSnapshotObjectName_name (h : actor.validate = .ok ()) (hepoch : epoch < 2 ^ 64)
    (hversion : version < 2 ^ 64) :
    validateSnapshotObjectName libraries actor version (root ++ (snapshotsDirectory ++ '/' ::
      streamPath libraries actor epoch (Digits.format 10 version ++ json))) = .ok () := by
  have hprintable : ∀ c ∈ root ++ (snapshotsDirectory ++ '/' ::
      streamPath libraries actor epoch (Digits.format 10 version ++ json)), Printable c := by
    refine List.forall_mem_append.mpr ⟨printable_of_all (by decide +kernel),
      List.forall_mem_append.mpr ⟨printable_of_all (by decide +kernel),
        List.forall_mem_cons.mpr ⟨by decide, ?_⟩⟩⟩
    exact printable_streamPath libraries actor epoch (printable_version version)
  have hlength : (root ++ (snapshotsDirectory ++ '/' ::
      streamPath libraries actor epoch (Digits.format 10 version ++ json))).length ≤ 1024 := by
    have hroot : root.length = 18 := by decide +kernel
    have hdirectory : snapshotsDirectory.length = 9 := by decide +kernel
    have hjson : json.length = 5 := by decide +kernel
    have hpath := length_streamPath_le libraries h hepoch (Digits.format 10 version ++ json)
    have hdigits : (Digits.format 10 version).length ≤ 20 :=
      Digits.length_format_le (by decide) (by decide) (hversion.trans_le (by decide))
    simp only [List.length_append, List.length_cons] at hpath ⊢
    omega
  have hstrip : strip (root ++ snapshotsDirectory ++ '/' :: actorPath libraries actor ++ ['/'])
      (root ++ (snapshotsDirectory ++ '/' :: streamPath libraries actor epoch
        (Digits.format 10 version ++ json))) =
      some (epochNonce epoch ++ '/' :: (Digits.format 10 version ++ json)) := by
    rw [← strip_append (root ++ snapshotsDirectory ++ '/' :: actorPath libraries actor ++ ['/'])]
    congr 1
    simp only [streamPath, actorPath, List.append_assoc, List.cons_append, List.nil_append]
  rw [validateSnapshotObjectName,
    validateObjectName_eq_ok (List.prefix_append _ _) hlength hprintable, snapshots_eq libraries h]
  simp only [bind, Except.bind, hstrip, Option.getD_some,
    List.splitOn_append_cons_self_of_not_mem (slash_notMem_epochNonce epoch),
    List.splitOn_eq_singleton (slash_notMem_version version), isNonce_epochNonce hepoch]
  simp

/-! ## Names determine what they name -/

theorem component_injective {first second : String} (h : component first = component second) :
    first = second := by
  have hdecode := decode_component ⟨fun _ => 0, fun _ => ""⟩ first
  rw [h, decode_component] at hdecode
  exact (Except.ok.inj hdecode).symm

/-- A stream's name starts the names of its own objects only. -/
theorem eq_of_isPrefix {other : ActorKey} {otherEpoch : Nat} {rest : List Char}
    (hepoch : epoch < 2 ^ 64) (hotherEpoch : otherEpoch < 2 ^ 64)
    (h : root ++ (snapshotsDirectory ++ '/' :: streamPath libraries actor epoch []) <+:
      root ++ (snapshotsDirectory ++ '/' :: streamPath libraries other otherEpoch rest)) :
    other = actor ∧ otherEpoch = epoch := by
  obtain ⟨tail, htail⟩ := h
  have hpaths : streamPath libraries actor epoch tail =
      streamPath libraries other otherEpoch rest := by
    simpa [streamPath] using htail
  have hparts := congrArg (List.splitOn '/') hpaths
  rw [splitOn_streamPath, splitOn_streamPath] at hparts
  simp only [List.cons.injEq] at hparts
  obtain ⟨-, hproject, hname, hid, hnonce, -⟩ := hparts
  obtain ⟨projectId, actorName, actorId⟩ := actor
  obtain ⟨projectId', actorName', actorId'⟩ := other
  cases component_injective hproject
  cases component_injective hname
  cases component_injective hid
  refine ⟨rfl, ?_⟩
  have hparse := Digits.parse_pad (by decide) (Nat.le_refl 16) hepoch 32
  rw [show Digits.pad 32 (Digits.format 16 epoch) = Digits.pad 32 (Digits.format 16 otherEpoch)
    from hnonce, Digits.parse_pad (by decide) (Nat.le_refl 16) hotherEpoch 32] at hparse
  exact Option.some.inj hparse

/-- The owner record of an actor. -/
theorem owner_storageKey (h : actor.validate = .ok ()) :
    owner libraries actor.storageKey =
      .ok (root ++ ownersDirectory ++ '/' :: actorPath libraries actor ++ json) := by
  rw [owner, actorFromKey_storageKey h]
  rfl

theorem actorPath_injective {other : ActorKey} {ending : List Char} (hending : '/' ∉ ending)
    (h : actorPath libraries actor ++ ending = actorPath libraries other ++ ending) :
    actor = other := by
  have hparts (actor : ActorKey) : (actorPath libraries actor ++ ending).splitOn '/' =
      [Digits.pad 2 (Digits.format 16 (libraries.firstByte actor.storageKey).toNat),
        component actor.projectId, component actor.actorName,
        component actor.actorId ++ ending] := by
    have hlast : '/' ∉ component actor.actorId ++ ending := by
      rw [List.mem_append, not_or]
      exact ⟨slash_notMem_component _, hending⟩
    simp only [actorPath, List.append_assoc, List.cons_append]
    rw [List.splitOn_append_cons_self_of_not_mem (slash_notMem_pad (by decide) (by decide) 2 _),
      List.splitOn_append_cons_self_of_not_mem (slash_notMem_component _),
      List.splitOn_append_cons_self_of_not_mem (slash_notMem_component _),
      List.splitOn_eq_singleton hlast]
  have heq := congrArg (List.splitOn '/') h
  rw [hparts, hparts] at heq
  simp only [List.cons.injEq, List.append_cancel_right_eq, and_true] at heq
  obtain ⟨-, hproject, hname, hid⟩ := heq
  obtain ⟨projectId, actorName, actorId⟩ := actor
  obtain ⟨projectId', actorName', actorId'⟩ := other
  cases component_injective hproject
  cases component_injective hname
  cases component_injective hid
  rfl

/-- A version of a stream: a valid actor, an epoch, and a positive version, as {lit}`u64`. -/
structure SnapshotId where
  actor : ActorKey
  epoch : Nat
  version : Nat
  valid : actor.validate = .ok ()
  epoch_lt : epoch < 2 ^ 64
  version_pos : 0 < version
  version_lt : version < 2 ^ 64

/-- The name of a version. -/
def SnapshotId.name (id : SnapshotId) : Except Error (List Char) :=
  snapshotObjectName libraries id.actor id.version (epochNonce id.epoch)

/-- Names determine what they name.  For versions of any streams of any valid actors: every name
is generated, the one that the stream gives, accepted, and read back as the actor, epoch and
version, so that different versions have different names; a stream's name starts the names of its
own versions only; positions of one stream are ordered as the versions; and the key and the owner
record of an actor determine the actor. -/
theorem storage_names_faithful (id other : SnapshotId) :
    ∃ name otherName start, id.name libraries = .ok name ∧ other.name libraries = .ok otherName ∧
      stream libraries id.actor id.epoch = .ok start ∧ objectName start id.version = name ∧
      actorFromSnapshot libraries name = .ok id.actor ∧
      snapshotPosition name = some (id.epoch, id.version) ∧
      validateSnapshotObjectName libraries id.actor id.version name = .ok () ∧
      (name = otherName → id = other) ∧
      (start <+: otherName ↔ other.actor = id.actor ∧ other.epoch = id.epoch) ∧
      (start <+: otherName →
        ((snapshotPosition name).map toLex < (snapshotPosition otherName).map toLex ↔
          id.version < other.version)) ∧
      actorFromKey id.actor.storageKey = .ok id.actor ∧
      (owner libraries id.actor.storageKey).isOk ∧
      (owner libraries id.actor.storageKey = owner libraries other.actor.storageKey →
        id.actor = other.actor) := by
  have hname (id : SnapshotId) : id.name libraries = .ok (root ++ (snapshotsDirectory ++ '/' ::
      streamPath libraries id.actor id.epoch (Digits.format 10 id.version ++ json))) :=
    snapshotObjectName_eq libraries id.valid id.epoch_lt id.version_pos
  have hactor (id : SnapshotId) := actorFromSnapshot_name libraries id.valid id.epoch id.version
  have hposition (id : SnapshotId) := snapshotPosition_name libraries id.actor id.epoch_lt
    id.version_lt
  have hstart : root ++ (snapshotsDirectory ++ '/' ::
        streamPath libraries id.actor id.epoch []) <+:
      root ++ (snapshotsDirectory ++ '/' :: streamPath libraries other.actor other.epoch
        (Digits.format 10 other.version ++ json)) ↔
      other.actor = id.actor ∧ other.epoch = id.epoch := by
    refine ⟨eq_of_isPrefix libraries id.epoch_lt other.epoch_lt, ?_⟩
    rintro ⟨hactor, hepoch⟩
    rw [hactor, hepoch]
    exact ⟨Digits.format 10 other.version ++ json, by simp [streamPath]⟩
  refine ⟨_, _, _, hname id, hname other, stream_eq libraries id.valid id.epoch_lt, ?_, hactor id,
    hposition id, validateSnapshotObjectName_name libraries id.valid id.epoch_lt id.version_lt, ?_,
    hstart, ?_, actorFromKey_storageKey id.valid, ?_, ?_⟩
  · simp [objectName, streamPath]
  · intro heq
    have hactors := hactor id
    have hpositions := hposition id
    rw [heq, hactor other] at hactors
    rw [heq, hposition other] at hpositions
    have hactors := Except.ok.inj hactors
    obtain ⟨hepochs, hversions⟩ := Prod.mk.inj (Option.some.inj hpositions)
    cases id
    cases other
    cases hactors
    cases hepochs
    cases hversions
    rfl
  · intro hprefixed
    obtain ⟨-, hepoch⟩ := hstart.mp hprefixed
    rw [hposition id, hposition other, hepoch]
    simp [Prod.Lex.toLex_lt_toLex]
  · rw [owner_storageKey libraries id.valid]
    rfl
  · intro heq
    rw [owner_storageKey libraries id.valid, owner_storageKey libraries other.valid] at heq
    have hjson : '/' ∉ json := by decide +kernel
    refine actorPath_injective libraries hjson ?_
    simpa using heq

end Paths
end DurableActors
