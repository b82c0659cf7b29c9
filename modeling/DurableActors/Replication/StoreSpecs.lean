import DurableActors.Replication.Durability

/-!
# What the operations of a replica store do

Each operation keeps the files durable at every call, so that a crash is harmless
wherever it comes, and leaves the memory a copy of the directory when it ends, with
or without an error.

Main results:

- Theorem {lit}`append_spec`: an append that returns without an error made its snapshot
  the head of the stream for good.
- Theorem {lit}`sealSession_spec`: a seal that returns has the heads of a cut.
- Theorem {lit}`openStore_spec`: a store that was opened is a copy of its directory and
  fits into its capacity.
-/

namespace DurableActors
namespace Replication

open Effects Effects.Prog Weight

/-! ## Calls on a machine -/

/-- The files and the memory of a replica. -/
structure Machine where
  directory : Files
  memory : StoreState

/-- A call that fails changes nothing. -/
def Attempts {α : Type} (machine : Machine) (effect : α → Machine → Prop) :
    Except Error α → Machine → Prop
  | .ok value, machine' => effect value machine'
  | .error _, machine' => machine' = machine

/-- The entries list each file once. -/
structure Lists (files : Files) (entries : List DirEntry) : Prop where
  mem : ∀ name, .file name ∈ entries ↔ (files.shown name).isSome
  once : ∀ name, entries.count (.file name) ≤ 1

/-- What a call answers and does. -/
def Performs : (op : StoreOp) → Machine → op.Ans → Machine → Prop
  | .readDir, machine, answer, machine' =>
      Attempts machine (fun entries machine' => machine' = machine ∧ Lists machine.directory entries)
        answer machine'
  | .readFile name, machine, answer, machine' =>
      Attempts machine
        (fun content machine' => machine' = machine ∧ machine.directory.shown name = some content)
        answer machine'
  | .persist name content, machine, answer, machine' =>
      Attempts machine
        (fun _ machine' =>
          machine' = { machine with directory := machine.directory.change name (some content) })
        answer machine'
  | .persistNoclobber name content, machine, answer, machine' =>
      Attempts machine
        (fun _ machine' => machine.directory.shown name = none ∧
          machine' = { machine with directory := machine.directory.change name (some content) })
        answer machine'
  | .removeFile name, machine, answer, machine' =>
      Attempts machine
        (fun _ machine' => machine' = { machine with directory := machine.directory.change name none })
        answer machine'
  | .syncDirectory, machine, answer, machine' =>
      Attempts machine
        (fun _ machine' => machine' = { machine with directory := machine.directory.sync })
        answer machine'
  | .load, machine, answer, machine' => answer = machine.memory ∧ machine' = machine
  | .store state, machine, _, machine' => machine' = { machine with memory := state }
  | .shuffleObjects objects, machine, answer, machine' => answer.Perm objects ∧ machine' = machine
  | .shuffleHeads heads, machine, answer, machine' => answer.Perm heads ∧ machine' = machine
  | .createDirectory, machine, _, machine' => machine' = machine
  | .tryLock, machine, _, machine' => machine' = machine
  | .writePending, machine, _, machine' => machine' = machine
  | .removePending, machine, _, machine' => machine' = machine

/-- The obligation of an operation that may change the head of one stream: the files are durable
after every call, and the heads of the other streams stay. -/
def protocol (encoding : Encoding) (limit : Option Nat) (history : List Event)
    (own : Option StreamPrefix) : Protocol calls Machine where
  perform := Performs
  rely := Eq
  guarantee machine machine' :=
    Durable encoding limit history machine'.directory ∧
      ∀ streamPrefix, own ≠ some streamPrefix →
        machine'.directory.stored (.stream streamPrefix) ⊆
          machine.directory.stored (.stream streamPrefix)

variable {encoding : Encoding} {limit : Option Nat} {history : List Event}
  {own : Option StreamPrefix} {machine : Machine}

section Calls

variable {α : Type} {post : Except Error α → Machine → Prop}
  {unitPost : Except Error Unit → Machine → Prop}

/-- The rule for calls that leave the files alone. -/
theorem meets_quiet {op : StoreOp} {next : op.Ans → StoreProg α}
    (hdurable : Durable encoding limit history machine.directory)
    (hquiet : ∀ answer machine', Performs op machine answer machine' →
      machine'.directory = machine.directory ∧
        (next answer).Meets (protocol encoding limit history own) post machine') :
    Prog.Meets (protocol encoding limit history own) (Prog.call (I := calls) op next) post
      machine := by
  rintro _ rfl answer machine' hperforms
  obtain ⟨hsame, hnext⟩ := hquiet answer machine' hperforms
  refine ⟨⟨?_, ?_⟩, hnext⟩
  · rwa [hsame]
  · intro streamPrefix _
    rw [hsame]

/-- The rule for programs that begin by reading the memory. -/
theorem meets_load {next : StoreState → StoreProg α}
    (hdurable : Durable encoding limit history machine.directory)
    (h : (next machine.memory).Meets (protocol encoding limit history own) post machine) :
    (load >>= next).Meets (protocol encoding limit history own) post machine := by
  refine meets_quiet hdurable fun answer machine' hperforms => ?_
  obtain ⟨rfl, rfl⟩ := hperforms
  exact ⟨rfl, h⟩

theorem meets_shuffleObjects {objects : List SnapshotObject}
    {next : List SnapshotObject → StoreProg α}
    (hdurable : Durable encoding limit history machine.directory)
    (h : ∀ listed : List SnapshotObject, listed.Perm objects →
      (next listed).Meets (protocol encoding limit history own) post machine) :
    (shuffleObjects objects >>= next).Meets (protocol encoding limit history own) post machine := by
  refine meets_quiet hdurable fun answer machine' hperforms => ?_
  obtain ⟨hperm, rfl⟩ := hperforms
  exact ⟨rfl, h answer hperm⟩

theorem meets_shuffleHeads {heads : List StreamHead} {next : List StreamHead → StoreProg α}
    (hdurable : Durable encoding limit history machine.directory)
    (h : ∀ listed : List StreamHead, listed.Perm heads →
      (next listed).Meets (protocol encoding limit history own) post machine) :
    (shuffleHeads heads >>= next).Meets (protocol encoding limit history own) post machine := by
  refine meets_quiet hdurable fun answer machine' hperforms => ?_
  obtain ⟨hperm, rfl⟩ := hperforms
  exact ⟨rfl, h answer hperm⟩

theorem meets_store {state : StoreState}
    (hdurable : Durable encoding limit history machine.directory)
    (h : unitPost (.ok ()) { machine with memory := state }) :
    (store state).Meets (protocol encoding limit history own) unitPost machine := by
  refine meets_quiet hdurable fun answer machine' hperforms => ?_
  obtain rfl : machine' = { machine with memory := state } := hperforms
  exact ⟨rfl, h⟩

/-- The rule for calls to the file system that touch no named file. -/
theorem meets_attempt {op : StoreOp} {answers : op.Ans → Except Error Unit}
    (hdurable : Durable encoding limit history machine.directory)
    (hop : ∀ answer machine', Performs op machine answer machine' → machine' = machine)
    (h : ∀ result, unitPost result machine) :
    Prog.Meets (protocol encoding limit history own)
      (Prog.call (I := calls) op fun answer => Prog.lift (answers answer)) unitPost machine := by
  refine meets_quiet hdurable fun answer machine' hperforms => ?_
  obtain rfl := hop answer machine' hperforms
  exact ⟨rfl, meets_lift.mpr (h _)⟩

theorem meets_writePending (hdurable : Durable encoding limit history machine.directory)
    (h : ∀ result, unitPost result machine) :
    writePending.Meets (protocol encoding limit history own) unitPost machine :=
  meets_attempt hdurable (fun _ _ hperforms => hperforms) h

theorem meets_removePending (hdurable : Durable encoding limit history machine.directory)
    (h : ∀ result, unitPost result machine) :
    removePending.Meets (protocol encoding limit history own) unitPost machine :=
  meets_attempt hdurable (fun _ _ hperforms => hperforms) h

theorem meets_createDirectory (hdurable : Durable encoding limit history machine.directory)
    (h : ∀ result, unitPost result machine) :
    createDirectory.Meets (protocol encoding limit history own) unitPost machine :=
  meets_attempt hdurable (fun _ _ hperforms => hperforms) h

theorem meets_tryLock (hdurable : Durable encoding limit history machine.directory)
    (h : ∀ result, unitPost result machine) :
    tryLock.Meets (protocol encoding limit history own) unitPost machine :=
  meets_attempt hdurable (fun _ _ hperforms => hperforms) h

theorem meets_readDir {post : Except Error (List DirEntry) → Machine → Prop}
    (hdurable : Durable encoding limit history machine.directory)
    (hok : ∀ entries, Lists machine.directory entries → post (.ok entries) machine)
    (herror : ∀ error, post (.error error) machine) :
    readDir.Meets (protocol encoding limit history own) post machine := by
  refine meets_quiet hdurable fun answer machine' hperforms => ?_
  cases answer with
  | ok entries =>
      obtain ⟨rfl, hlists⟩ := hperforms
      exact ⟨rfl, hok entries hlists⟩
  | error error =>
      obtain rfl : machine' = machine := hperforms
      exact ⟨rfl, herror error⟩

theorem meets_readFile {name : FileName} {post : Except Error name.Content → Machine → Prop}
    (hdurable : Durable encoding limit history machine.directory)
    (hok : ∀ content, machine.directory.shown name = some content → post (.ok content) machine)
    (herror : ∀ error, post (.error error) machine) :
    (readFile name).Meets (protocol encoding limit history own) post machine := by
  refine meets_quiet hdurable fun answer machine' hperforms => ?_
  cases answer with
  | ok content =>
      obtain ⟨rfl, hshown⟩ := hperforms
      exact ⟨rfl, hok content hshown⟩
  | error error =>
      obtain rfl : machine' = machine := hperforms
      exact ⟨rfl, herror error⟩

theorem meets_syncDirectory (hdurable : Durable encoding limit history machine.directory)
    (hok : unitPost (.ok ()) { machine with directory := machine.directory.sync })
    (herror : ∀ error, unitPost (.error error) machine) :
    syncDirectory.Meets (protocol encoding limit history own) unitPost machine := by
  rintro _ rfl answer machine' hperforms
  cases answer with
  | ok _ =>
      obtain rfl : machine' = { machine with directory := machine.directory.sync } := hperforms
      exact ⟨⟨hdurable.within machine.directory.sync_within,
        fun _ _ => machine.directory.sync_within _⟩, hok⟩
  | error error =>
      obtain rfl : machine' = machine := hperforms
      exact ⟨⟨hdurable, fun _ _ => subset_rfl⟩, herror error⟩

/-- The rule for changes of a file. -/
theorem meets_change {op : StoreOp} {name : FileName} {content : Option name.Content}
    {next : op.Ans → StoreProg Unit}
    (hdurable : Durable encoding limit history machine.directory)
    (hchanged : Durable encoding limit history (machine.directory.change name content))
    (hown : ∀ streamPrefix, name = .stream streamPrefix → own = some streamPrefix)
    (hperforms : ∀ answer machine', Performs op machine answer machine' →
      (machine' = machine ∨
        machine' = { machine with directory := machine.directory.change name content }) ∧
      (next answer).Meets (protocol encoding limit history own) unitPost machine') :
    Prog.Meets (protocol encoding limit history own) (Prog.call (I := calls) op next) unitPost
      machine := by
  rintro _ rfl answer machine' hanswer
  obtain ⟨hcases, hnext⟩ := hperforms answer machine' hanswer
  refine ⟨?_, hnext⟩
  rcases hcases with rfl | rfl
  · exact ⟨hdurable, fun _ _ => subset_rfl⟩
  · refine ⟨hchanged, fun streamPrefix hother => ?_⟩
    have hname : FileName.stream streamPrefix ≠ name := by
      rintro rfl
      exact hother (hown streamPrefix rfl)
    rw [Directory.stored_change_of_ne hname]

theorem meets_persist {name : FileName} {content : name.Content}
    (hdurable : Durable encoding limit history machine.directory)
    (hchanged : Durable encoding limit history (machine.directory.change name (some content)))
    (hown : ∀ streamPrefix, name = .stream streamPrefix → own = some streamPrefix)
    (hok : unitPost (.ok ())
      { machine with directory := machine.directory.change name (some content) })
    (herror : ∀ error, unitPost (.error error) machine) :
    (persist name content).Meets (protocol encoding limit history own) unitPost machine := by
  refine meets_change hdurable hchanged hown fun answer machine' hperforms => ?_
  cases answer with
  | ok _ =>
      obtain rfl : machine' = _ := hperforms
      exact ⟨.inr rfl, hok⟩
  | error error =>
      obtain rfl : machine' = machine := hperforms
      exact ⟨.inl rfl, herror error⟩

theorem meets_persistNoclobber {name : FileName} {content : name.Content}
    (hdurable : Durable encoding limit history machine.directory)
    (hchanged : Durable encoding limit history (machine.directory.change name (some content)))
    (hown : ∀ streamPrefix, name = .stream streamPrefix → own = some streamPrefix)
    (hok : unitPost (.ok ())
      { machine with directory := machine.directory.change name (some content) })
    (herror : ∀ error, unitPost (.error error) machine) :
    (persistNoclobber name content).Meets (protocol encoding limit history own) unitPost
      machine := by
  refine meets_change hdurable hchanged hown fun answer machine' hperforms => ?_
  cases answer with
  | ok _ =>
      obtain ⟨-, rfl⟩ := hperforms
      exact ⟨.inr rfl, hok⟩
  | error error =>
      obtain rfl : machine' = machine := hperforms
      exact ⟨.inl rfl, herror error⟩

theorem meets_removeFile {name : FileName}
    (hdurable : Durable encoding limit history machine.directory)
    (hchanged : Durable encoding limit history (machine.directory.change name none))
    (hown : ∀ streamPrefix, name = .stream streamPrefix → own = some streamPrefix)
    (hok : unitPost (.ok ()) { machine with directory := machine.directory.change name none })
    (herror : ∀ error, unitPost (.error error) machine) :
    (removeFile name).Meets (protocol encoding limit history own) unitPost machine := by
  refine meets_change hdurable hchanged hown fun answer machine' hperforms => ?_
  cases answer with
  | ok _ =>
      obtain rfl : machine' = _ := hperforms
      exact ⟨.inr rfl, hok⟩
  | error error =>
      obtain rfl : machine' = machine := hperforms
      exact ⟨.inl rfl, herror error⟩

end Calls

/-! ## The memory as a copy of the directory -/

/-- The files are durable, and the memory is a copy of the directory that counts its bytes. -/
structure Sound (encoding : Encoding) (limit : Option Nat) (history : List Event)
    (machine : Machine) : Prop where
  durable : Durable encoding limit history machine.directory
  snapshots : ∀ object,
    machine.memory.snapshots.lookup object =
      (machine.directory.shown (.blob object)).map Blob.metadata
  streams : ∀ streamPrefix,
    machine.memory.streams.lookup streamPrefix = machine.directory.shown (.stream streamPrefix)
  sessions : ∀ session,
    machine.memory.sessions.lookup session = machine.directory.shown (.session session)
  used : machine.memory.used = weight Metadata.size machine.memory.snapshots
  bounded : machine.memory.used < wordLimit
  counted : CountedIn machine.directory machine.memory.snapshots

/-- An open store between two operations: also, it fits into the capacity. -/
structure Idle (encoding : Encoding) (limit : Option Nat) (history : List Event)
    (machine : Machine) : Prop extends Sound encoding limit history machine where
  fits : ∀ capacity ∈ limit, machine.memory.capacity = capacity ∧ machine.memory.used ≤ capacity

/-- No change waits for a sync. -/
def AllSettled (machine : Machine) : Prop := ∀ name, machine.directory.IsSettled name

theorem Sound.sync (h : Sound encoding limit history machine) :
    Sound encoding limit history { machine with directory := machine.directory.sync } where
  durable := h.durable.within machine.directory.sync_within
  snapshots := h.snapshots
  streams := h.streams
  sessions := h.sessions
  used := h.used
  bounded := h.bounded
  counted := h.counted.within machine.directory.sync_within

theorem Idle.sync (h : Idle encoding limit history machine) :
    Idle encoding limit history { machine with directory := machine.directory.sync } where
  toSound := h.toSound.sync
  fits := h.fits

theorem allSettled_sync : AllSettled { machine with directory := machine.directory.sync } :=
  fun name => Directory.isSettled_sync _ name

/-- A blob that the memory knows is in the directory. -/
theorem Sound.shown_of_lookup (h : Sound encoding limit history machine) {object : SnapshotObject}
    {metadata : Metadata} (hlookup : machine.memory.snapshots.lookup object = some metadata) :
    ∃ blob : Blob, machine.directory.shown (.blob object) = some blob ∧ blob.metadata = metadata := by
  rw [h.snapshots object] at hlookup
  exact Option.map_eq_some_iff.mp hlookup

theorem Sound.shown_of_lookup_none (h : Sound encoding limit history machine)
    {object : SnapshotObject} (hlookup : machine.memory.snapshots.lookup object = none) :
    machine.directory.shown (.blob object) = none := by
  rw [h.snapshots object] at hlookup
  exact Option.map_eq_none_iff.mp hlookup

/-- A session that was sealed is sealed in the memory. -/
theorem Sound.session_of_sealed (h : Sound encoding limit history machine) {session : HostSession}
    {cut : SessionHead} (hsealed : Sealed history session cut) :
    machine.memory.session session = { cut with streams := [] } := by
  have hrecord := (h.durable.cut session cut hsealed).record _ (machine.directory.shown_mem _)
  unfold StoreState.session
  rw [h.sessions session, hrecord]
  rfl

/-- An open session was not sealed. -/
theorem Sound.not_sealed (h : Sound encoding limit history machine) {session : HostSession}
    (hopen : (machine.memory.session session).sealed = false) (cut : SessionHead) :
    ¬ Sealed history session cut := by
  intro hsealed
  rw [h.session_of_sealed hsealed] at hopen
  have hcut := (h.durable.cut session cut hsealed).sealed
  simp [hcut] at hopen

theorem session_session (h : Sound encoding limit history machine) (session : HostSession) :
    (machine.memory.session session).session = session ∧
      (machine.memory.session session).streams = [] := by
  unfold StoreState.session
  cases hlookup : machine.memory.sessions.lookup session with
  | none => exact ⟨rfl, rfl⟩
  | some head =>
      rw [h.sessions session] at hlookup
      have hstored := machine.directory.shown_mem (.session session)
      rw [hlookup] at hstored
      exact h.durable.session session head hstored

/-! ## Keeping a blob -/

/-- What an operation left as it was while it made everything durable. -/
structure Written (machine machine' : Machine) : Prop where
  settled : AllSettled machine'
  streams : machine'.memory.streams = machine.memory.streams
  sessions : machine'.memory.sessions = machine.memory.sessions

theorem checkedAdd_eq_some {a b c : Nat} (h : checkedAdd a b = some c) :
    c = a + b ∧ a + b < wordLimit := by
  unfold checkedAdd at h
  split at h
  · rename_i hlt
    exact ⟨(Option.some.inj h).symm, hlt⟩
  · cases h

/-- A blob is added to the directory and to the memory. -/
theorem Idle.addBlob (h : Idle encoding limit history machine) (blob : Blob) {used : Nat}
    (hsize : encoding.size blob.bytes = blob.metadata.size)
    (habsent : machine.memory.snapshots.lookup blob.metadata.object = none)
    (hused : checkedAdd machine.memory.used blob.metadata.size = some used)
    (hfits : used ≤ machine.memory.capacity) :
    Idle encoding limit history
      { directory := machine.directory.change (.blob blob.metadata.object) (some blob)
        memory :=
          { machine.memory with
            used
            snapshots := machine.memory.snapshots.insert blob.metadata.object blob.metadata } } := by
  obtain ⟨husedEq, hlt⟩ := checkedAdd_eq_some hused
  have hshown := h.shown_of_lookup_none habsent
  have hcounted := h.counted.addBlob rfl habsent
  have hweight : used = weight Metadata.size
      (machine.memory.snapshots.insert blob.metadata.object blob.metadata) := by
    rw [weight_insert habsent, husedEq, h.used, Nat.add_comm]
  have hcapacity : ∀ capacity ∈ limit, used ≤ capacity := by
    intro capacity hcapacity
    rw [← (h.fits capacity hcapacity).1]
    exact hfits
  refine ⟨⟨?_, ?_, ?_, ?_, hweight, ?_, hcounted⟩, ?_⟩
  · refine h.durable.changeBlob ?_ (h.durable.unreferenced_of_absent hshown) ?_
    · rintro _ ⟨⟩
      exact ⟨rfl, hsize⟩
    · intro capacity hmem
      refine ⟨_, ?_, hcounted⟩
      rw [← hweight]
      exact hcapacity capacity hmem
  · intro object
    by_cases hobject : object = blob.metadata.object
    · subst hobject
      simp
    · rw [AList.lookup_insert_ne hobject, Directory.shown_change_of_ne (by simpa using hobject)]
      exact h.snapshots object
  · intro streamPrefix
    simpa using h.streams streamPrefix
  · intro session
    simpa using h.sessions session
  · rw [husedEq]
    exact hlt
  · intro capacity hmem
    exact ⟨(h.fits capacity hmem).1, hcapacity capacity hmem⟩

theorem readBlob_spec (h : Sound encoding limit history machine) {object : SnapshotObject}
    {size : Nat} :
    (readBlob encoding object size).Meets (protocol encoding limit history own)
      (fun result machine' => machine' = machine ∧ ∀ bytes, result = .ok bytes →
        ∃ blob : Blob, machine.directory.shown (.blob object) = some blob ∧ blob.bytes = bytes)
      machine := by
  unfold readBlob
  refine Meets.bind (meets_readFile h.durable ?_ ?_)
  · intro blob hshown
    refine Meets.bind (meets_ensure.mpr ⟨?_, ?_⟩)
    · intro _
      refine ⟨rfl, ?_⟩
      rintro _ ⟨⟩
      exact ⟨blob, hshown, rfl⟩
    · intro _
      exact ⟨rfl, nofun⟩
  · intro error
    exact ⟨rfl, nofun⟩

theorem put_spec (h : Idle encoding limit history machine) {metadata : Metadata}
    {bytes : StateSnapshot} (hsize : encoding.size bytes = metadata.size) :
    (put encoding metadata bytes).Meets (protocol encoding limit history own)
      (always (Idle encoding limit history) fun _ machine' => Written machine machine' ∧
        ∃ blob : Blob, machine'.directory.shown (.blob metadata.object) = some blob ∧
          blob.bytes = bytes)
      machine := by
  unfold put
  refine meets_load h.durable ?_
  cases hlookup : machine.memory.snapshots.lookup metadata.object with
  | some existing =>
      refine (readBlob_spec h.toSound).seq ?_ ?_
      · rintro held _ ⟨rfl, hheld⟩
        refine Meets.bind (meets_ensure.mpr ⟨?_, fun _ => ⟨h, trivial⟩⟩)
        rintro rfl
        refine meets_syncDirectory h.durable ⟨h.sync, ⟨allSettled_sync, rfl, rfl⟩, ?_⟩
          fun _ => ⟨h, trivial⟩
        exact hheld held rfl
      · rintro error _ ⟨rfl, -⟩
        exact ⟨h, trivial⟩
  | none =>
      refine Meets.bind (meets_context.mpr ⟨?_, fun _ => ⟨h, trivial⟩⟩)
      intro used hused
      refine Meets.bind (meets_ensure.mpr ⟨?_, fun _ => ⟨h, trivial⟩⟩)
      intro hfits
      refine Meets.bind (meets_writePending h.durable fun result => ?_)
      cases result with
      | error error => exact ⟨h, trivial⟩
      | ok _ =>
          have hadded := h.addBlob { metadata, bytes } hsize hlookup hused hfits
          refine Meets.bind (meets_persistNoclobber h.durable hadded.durable (by simp) ?_
            fun _ => ⟨h, trivial⟩)
          refine Meets.bind (meets_store hadded.durable ?_)
          refine meets_syncDirectory hadded.durable ⟨hadded.sync, ⟨allSettled_sync, rfl, rfl⟩, ?_⟩
            fun _ => ⟨hadded, trivial⟩
          exact ⟨{ metadata, bytes }, by simp, rfl⟩

/-! ## Writing records -/

/-- A session record is written to the directory and to the memory. -/
theorem Idle.saveSession (h : Idle encoding limit history machine) {record : SessionHead}
    (hchanged : Durable encoding limit history
      (machine.directory.change (.session record.session) (some record))) :
    Idle encoding limit history
      { directory := machine.directory.change (.session record.session) (some record)
        memory :=
          { machine.memory with
            sessions := machine.memory.sessions.insert record.session record } } := by
  refine ⟨⟨hchanged, ?_, ?_, ?_, h.used, h.bounded, h.counted.saveSession⟩, h.fits⟩
  · intro object
    simpa using h.snapshots object
  · intro streamPrefix
    simpa using h.streams streamPrefix
  · intro session
    by_cases hsession : session = record.session
    · subst hsession
      simp
    · rw [AList.lookup_insert_ne hsession, Directory.shown_change_of_ne (by simpa using hsession)]
      exact h.sessions session

theorem saveSession_spec (h : Idle encoding limit history machine) (record : SessionHead)
    (hstreams : record.streams = [])
    (hseal : ∀ cut, Sealed history record.session cut → record = { cut with streams := [] }) :
    (saveSession record).Meets (protocol encoding limit history own)
      (always (Idle encoding limit history) fun _ machine' => AllSettled machine' ∧
        machine'.memory.streams = machine.memory.streams ∧
        machine'.memory.sessions = machine.memory.sessions.insert record.session record)
      machine := by
  have hchanged := h.durable.saveSession hstreams hseal
  have hsaved := h.saveSession hchanged
  unfold saveSession
  refine Meets.bind (meets_writePending h.durable fun result => ?_)
  cases result with
  | error error => exact ⟨h, trivial⟩
  | ok _ =>
      refine Meets.bind (meets_persist h.durable hchanged (by simp) ?_ fun _ => ⟨h, trivial⟩)
      refine meets_load hchanged ?_
      refine Meets.bind (meets_store hchanged ?_)
      exact meets_syncDirectory hchanged ⟨hsaved.sync, allSettled_sync, rfl, rfl⟩
        fun _ => ⟨hsaved, trivial⟩

/-- A head record is written to the directory and to the memory. -/
theorem Idle.saveHead (h : Idle encoding limit history machine) {head : StreamHead}
    (hcounted : CountedIn
      (machine.directory.change (.stream head.stream.streamPrefix) (some head))
      machine.memory.snapshots)
    (hchanged : Durable encoding limit history
      (machine.directory.change (.stream head.stream.streamPrefix) (some head))) :
    Idle encoding limit history
      { directory := machine.directory.change (.stream head.stream.streamPrefix) (some head)
        memory :=
          { machine.memory with
            streams := machine.memory.streams.insert head.stream.streamPrefix head } } := by
  refine ⟨⟨hchanged, ?_, ?_, ?_, h.used, h.bounded, hcounted⟩, h.fits⟩
  · intro object
    simpa using h.snapshots object
  · intro streamPrefix
    by_cases hpre : streamPrefix = head.stream.streamPrefix
    · subst hpre
      simp
    · rw [AList.lookup_insert_ne hpre, Directory.shown_change_of_ne (by simpa using hpre)]
      exact h.streams streamPrefix
  · intro session
    simpa using h.sessions session

/-- When every change is durable, the memory counts every blob that a crash may leave. -/
theorem Sound.countedIn_change (h : Sound encoding limit history machine)
    (hsettled : AllSettled machine) (streamPrefix : StreamPrefix) (content : Option StreamHead) :
    CountedIn (machine.directory.change (.stream streamPrefix) content)
      machine.memory.snapshots := by
  intro object blob hblob
  rw [Directory.stored_change_of_ne (by simp)] at hblob
  rw [h.snapshots object, ← hsettled _ _ hblob]
  exact .inl rfl

theorem saveHead_spec (h : Idle encoding limit history machine) (hsettled : AllSettled machine)
    (head : StreamHead) {latest : SnapshotRef} (hlatest : head.latest = some latest)
    (hobject : latest.object.stream = head.stream.streamPrefix)
    (hblob : ∃ blob : Blob, machine.directory.shown (.blob latest.object) = some blob ∧
      checksum blob.bytes = latest.digest)
    (hnewer : ∀ old, machine.memory.streams.lookup head.stream.streamPrefix = some old →
      old.stream = head.stream ∧
        ∀ snapshot, old.latest = some snapshot → snapshot.stateVersion < latest.stateVersion)
    (hopen : ∀ cut, ¬ Sealed history head.stream.session cut) :
    (saveHead head).Meets (protocol encoding limit history (some head.stream.streamPrefix))
      (always (Idle encoding limit history) fun _ machine' => AllSettled machine' ∧
        machine'.directory.shown (.stream head.stream.streamPrefix) = some head)
      machine := by
  have hcounted := h.countedIn_change hsettled head.stream.streamPrefix (some head)
  have hchanged : Durable encoding limit history
      (machine.directory.change (.stream head.stream.streamPrefix) (some head)) := by
    refine h.durable.saveHead (fun object => hsettled _) hlatest hobject hblob ?_ hopen ?_
    · intro old hold
      rw [← h.streams] at hold
      exact hnewer old hold
    · intro capacity hcapacity
      refine ⟨_, ?_, hcounted⟩
      rw [← h.used]
      exact (h.fits capacity hcapacity).2
  have hsaved := h.saveHead hcounted hchanged
  unfold saveHead
  refine Meets.bind (meets_writePending h.durable fun result => ?_)
  cases result with
  | error error => exact ⟨h, trivial⟩
  | ok _ =>
      refine Meets.bind (meets_persist h.durable hchanged (by simp) ?_ fun _ => ⟨h, trivial⟩)
      refine meets_load hchanged ?_
      refine Meets.bind (meets_store hchanged ?_)
      exact meets_syncDirectory hchanged ⟨hsaved.sync, allSettled_sync, by simp⟩
        fun _ => ⟨hsaved, trivial⟩

/-! ## Deleting blobs -/

/-- What deleting blobs leaves as it was. -/
structure Pruned (encoding : Encoding) (limit : Option Nat) (history : List Event)
    (machine machine' : Machine) : Prop where
  sound : Sound encoding limit history machine'
  streams : machine'.memory.streams = machine.memory.streams
  sessions : machine'.memory.sessions = machine.memory.sessions
  capacity : machine'.memory.capacity = machine.memory.capacity
  used_le : machine'.memory.used ≤ machine.memory.used
  lookup : ∀ object metadata, machine'.memory.snapshots.lookup object = some metadata →
    machine.memory.snapshots.lookup object = some metadata
  within : ∀ streamPrefix, machine'.directory.stored (.stream streamPrefix) ⊆
    machine.directory.stored (.stream streamPrefix)

theorem Pruned.refl (h : Sound encoding limit history machine) :
    Pruned encoding limit history machine machine :=
  ⟨h, rfl, rfl, rfl, le_rfl, fun _ _ hlookup => hlookup, fun _ => subset_rfl⟩

theorem Pruned.trans {machine' machine'' : Machine}
    (h : Pruned encoding limit history machine machine')
    (h' : Pruned encoding limit history machine' machine'') :
    Pruned encoding limit history machine machine'' where
  sound := h'.sound
  streams := h'.streams.trans h.streams
  sessions := h'.sessions.trans h.sessions
  capacity := h'.capacity.trans h.capacity
  used_le := h'.used_le.trans h.used_le
  lookup object metadata hlookup := h.lookup object metadata (h'.lookup object metadata hlookup)
  within streamPrefix := (h'.within streamPrefix).trans (h.within streamPrefix)

theorem Pruned.sync {machine' : Machine} (h : Pruned encoding limit history machine machine') :
    Pruned encoding limit history machine
      { machine' with directory := machine'.directory.sync } where
  sound := h.sound.sync
  streams := h.streams
  sessions := h.sessions
  capacity := h.capacity
  used_le := h.used_le
  lookup := h.lookup
  within streamPrefix := (machine'.directory.sync_within _).trans (h.within streamPrefix)

theorem Pruned.idle {machine' : Machine} (h : Idle encoding limit history machine)
    (hpruned : Pruned encoding limit history machine machine') :
    Idle encoding limit history machine' where
  toSound := hpruned.sound
  fits capacity hcapacity := by
    obtain ⟨hsame, hused⟩ := h.fits capacity hcapacity
    exact ⟨hpruned.capacity.trans hsame, hpruned.used_le.trans hused⟩

theorem wrappingSub_eq {a b : Nat} (hle : b ≤ a) (hlt : a < wordLimit) : wrappingSub a b = a - b := by
  unfold wrappingSub
  rw [Nat.add_comm, Nat.add_sub_assoc hle, Nat.add_mod_left, Nat.mod_eq_of_lt]
  exact Nat.lt_of_le_of_lt (Nat.sub_le _ _) hlt

/-- An obsolete blob is deleted from the directory and from the memory. -/
theorem Sound.deleteBlob (h : Sound encoding limit history machine) {object : SnapshotObject}
    {left : Nat} (hobsolete : Obsolete machine.directory object)
    (hused : left = weight Metadata.size (machine.memory.snapshots.erase object))
    (hle : left ≤ machine.memory.used) :
    Pruned encoding limit history machine
      { directory := machine.directory.change (.blob object) none
        memory :=
          { machine.memory with
            snapshots := machine.memory.snapshots.erase object
            used := left } } := by
  refine ⟨⟨?_, ?_, ?_, ?_, hused, ?_, ?_⟩, rfl, rfl, rfl, hle, ?_, ?_⟩
  · refine h.durable.changeBlob (by simp) (h.durable.unreferenced_of_obsolete hobsolete) ?_
    intro capacity hcapacity
    obtain ⟨table, hweight, hcounted⟩ := h.durable.budget capacity hcapacity
    exact ⟨table, hweight, hcounted.deleteBlob⟩
  · intro other
    by_cases hother : other = object
    · subst hother
      simp
    · rw [AList.lookup_erase_ne hother, Directory.shown_change_of_ne (by simpa using hother)]
      exact h.snapshots other
  · intro streamPrefix
    simpa using h.streams streamPrefix
  · intro session
    simpa using h.sessions session
  · exact Nat.lt_of_le_of_lt hle h.bounded
  · exact h.counted.deleteBlob.erase (obsolete_changeBlob.mpr hobsolete)
  · intro other held hheld
    by_cases hother : other = object
    · subst hother
      simp at hheld
    · rwa [AList.lookup_erase_ne hother] at hheld
  · intro streamPrefix
    simp

/-- The bytes of a deleted blob are given back, without underflow. -/
theorem Sound.wrappingSub_used (h : Sound encoding limit history machine) {object : SnapshotObject}
    {metadata : Metadata} (hlookup : machine.memory.snapshots.lookup object = some metadata) :
    metadata.size ≤ machine.memory.used ∧
      wrappingSub machine.memory.used metadata.size =
        weight Metadata.size (machine.memory.snapshots.erase object) := by
  have hsize : metadata.size ≤ machine.memory.used := by
    rw [h.used]
    exact size_le_weight hlookup
  have herase : weight Metadata.size machine.memory.snapshots =
      metadata.size + weight Metadata.size (machine.memory.snapshots.erase object) :=
    weight_erase hlookup
  refine ⟨hsize, ?_⟩
  rw [wrappingSub_eq hsize h.bounded, h.used, herase, Nat.add_sub_cancel_left]

theorem removeSnapshot_spec (h : Sound encoding limit history machine) {object : SnapshotObject}
    {metadata : Metadata} (hobsolete : Obsolete machine.directory object)
    (hlookup : machine.memory.snapshots.lookup object = some metadata) :
    (removeSnapshot object).Meets (protocol encoding limit history own)
      (always (Pruned encoding limit history machine) fun _ machine' =>
        machine'.memory.snapshots = machine.memory.snapshots.erase object)
      machine := by
  obtain ⟨hsize, hsub⟩ := h.wrappingSub_used hlookup
  have hle : wrappingSub machine.memory.used metadata.size ≤ machine.memory.used := by
    rw [wrappingSub_eq hsize h.bounded]
    exact Nat.sub_le _ _
  have hdeleted := h.deleteBlob hobsolete hsub hle
  unfold removeSnapshot
  refine Meets.bind (meets_removeFile h.durable hdeleted.sound.durable (by simp) ?_
    fun _ => ⟨.refl h, trivial⟩)
  refine meets_load hdeleted.sound.durable ?_
  refine Meets.bind (meets_context.mpr ⟨?_, ?_⟩)
  · intro found hfound
    rw [hlookup] at hfound
    cases hfound
    exact meets_store hdeleted.sound.durable ⟨hdeleted, rfl⟩
  · intro hnone
    rw [hlookup] at hnone
    cases hnone

theorem mem_obsolete {state : StoreState} {head : StreamHead} {latest : SnapshotRef}
    {object : SnapshotObject} :
    object ∈ state.obsolete head latest ↔ object ∈ state.snapshots ∧
      object.stream = head.stream.streamPrefix ∧ object ≠ latest.object := by
  simp [StoreState.obsolete, AList.mem_keys]

/-- The loop of deletions.  The objects that are left are still held; the others are not. -/
theorem removeSnapshots_spec (h : Sound encoding limit history machine)
    {objects : List SnapshotObject} (hnodup : objects.Nodup)
    (hobsolete : ∀ object ∈ objects, Obsolete machine.directory object)
    (hheld : ∀ object ∈ objects, object ∈ machine.memory.snapshots) :
    (forEach removeSnapshot objects).Meets (protocol encoding limit history own)
      (always (Pruned encoding limit history machine) fun _ machine' =>
        ∀ object ∈ objects, machine'.memory.snapshots.lookup object = none)
      machine := by
  refine (Meets.forEach
    (fun rest machine' => Pruned encoding limit history machine machine' ∧ rest.Nodup ∧
      (∀ object ∈ rest, object ∈ objects ∧ object ∈ machine'.memory.snapshots) ∧
      ∀ object ∈ objects, object ∈ rest ∨ machine'.memory.snapshots.lookup object = none)
    (fun _ machine' => Pruned encoding limit history machine machine')
    ?_ ⟨.refl h, hnodup, fun object hobject => ⟨hobject, hheld object hobject⟩,
      fun object hobject => .inl hobject⟩).mono ?_
  · rintro object rest machine' ⟨hpruned, hrest, hleft, hdone⟩
    obtain ⟨hobject, hmem⟩ := hleft object List.mem_cons_self
    obtain ⟨metadata, hlookup⟩ := Option.isSome_iff_exists.mp (AList.lookup_isSome.mpr hmem)
    have hobsolete' : Obsolete machine'.directory object :=
      fun content hcontent => hobsolete object hobject content (hpruned.within _ hcontent)
    refine (removeSnapshot_spec hpruned.sound hobsolete' hlookup).mono ?_
    rintro (error | _) machine'' ⟨hpruned', herased⟩
    · exact hpruned.trans hpruned'
    · obtain ⟨hnotin, hrest'⟩ := List.nodup_cons.mp hrest
      change machine''.memory.snapshots = _ at herased
      refine ⟨hpruned.trans hpruned', hrest', ?_, ?_⟩
      · intro other hother
        obtain ⟨hmember, hstill⟩ := hleft other (List.mem_cons_of_mem _ hother)
        refine ⟨hmember, ?_⟩
        rw [herased, AList.mem_erase]
        exact ⟨fun heq => hnotin (heq ▸ hother), hstill⟩
      · intro other hother
        rw [herased]
        rcases hdone other hother with hmember | hnone
        · rcases List.mem_cons.mp hmember with rfl | hlater
          · exact .inr (AList.lookup_erase _ _)
          · exact .inl hlater
        · by_cases hsame : other = object
          · subst hsame
            exact .inr (AList.lookup_erase _ _)
          · exact .inr (by rw [AList.lookup_erase_ne hsame, hnone])
  · rintro (error | _) machine' hresult
    · exact ⟨hresult, trivial⟩
    · obtain ⟨hpruned, -, -, hdone⟩ := hresult
      refine ⟨hpruned, fun object hobject => ?_⟩
      rcases hdone object hobject with hnil | hnone
      · cases hnil
      · exact hnone

/-- The blobs of a stream other than the newest one are deleted. -/
theorem pruneStream_spec (h : Sound encoding limit history machine) {head : StreamHead}
    {latest : SnapshotRef} (hlatest : head.latest = some latest)
    (hhead : ∀ content ∈ machine.directory.stored (.stream head.stream.streamPrefix),
      content = some head) :
    (pruneStream head).Meets (protocol encoding limit history own)
      (always (Pruned encoding limit history machine) fun _ machine' =>
        ∀ object : SnapshotObject, object.stream = head.stream.streamPrefix →
          object ≠ latest.object → machine'.memory.snapshots.lookup object = none)
      machine := by
  have hobsolete : ∀ object ∈ machine.memory.obsolete head latest,
      Obsolete machine.directory object := by
    intro object hobject content hcontent
    obtain ⟨-, hstream, hne⟩ := mem_obsolete.mp hobject
    rw [hstream] at hcontent
    exact ⟨head, latest, hhead content hcontent, hlatest, hne.symm⟩
  have hnone : ∀ machine', Pruned encoding limit history machine machine' →
      (∀ object ∈ machine.memory.obsolete head latest,
        machine'.memory.snapshots.lookup object = none) →
      ∀ object : SnapshotObject, object.stream = head.stream.streamPrefix →
        object ≠ latest.object → machine'.memory.snapshots.lookup object = none := by
    intro machine' hpruned hdone object hstream hne
    cases hlookup : machine'.memory.snapshots.lookup object with
    | none => rfl
    | some metadata =>
        have hmem : object ∈ machine.memory.snapshots :=
          AList.lookup_isSome.mp (by simp [hpruned.lookup object metadata hlookup])
        rw [hdone object (mem_obsolete.mpr ⟨hmem, hstream, hne⟩)] at hlookup
        cases hlookup
  unfold pruneStream
  rw [hlatest]
  refine meets_load h.durable ?_
  refine meets_shuffleObjects h.durable fun objects hperm => ?_
  split
  next hempty =>
    obtain rfl := List.isEmpty_iff.mp hempty
    have hnil := List.nil_perm.mp hperm
    refine ⟨.refl h, hnone _ (.refl h) ?_⟩
    rw [hnil]
    exact fun _ hmem => absurd hmem List.not_mem_nil
  next =>
    have hnodup : objects.Nodup := hperm.nodup_iff.mpr (machine.memory.snapshots.keys_nodup.filter _)
    refine (removeSnapshots_spec h hnodup (fun object hobject => ?_) fun object hobject => ?_).seq
      ?_ ?_
    · exact hobsolete object (hperm.mem_iff.mp hobject)
    · exact (mem_obsolete.mp (hperm.mem_iff.mp hobject)).1
    · rintro _ pruned ⟨hpruned, hdone⟩
      refine meets_syncDirectory hpruned.sound.durable ⟨hpruned.sync, ?_⟩
        fun _ => ⟨hpruned, trivial⟩
      exact hnone _ hpruned.sync fun object hobject => hdone object (hperm.mem_iff.mpr hobject)
    · rintro error pruned ⟨hpruned, -⟩
      exact ⟨hpruned, trivial⟩

/-! ## Appending -/

theorem head_eq_ok {state : StoreState} {stream : ReplicaStream} {head : StreamHead}
    (h : state.head stream = .ok head) :
    head.stream = stream ∧ (state.streams.lookup stream.streamPrefix = some head ∨
      state.streams.lookup stream.streamPrefix = none ∧ head.latest = none) := by
  unfold StoreState.head at h
  split at h
  next found hfound =>
    split at h
    next hstream =>
      cases h
      exact ⟨hstream, .inl hfound⟩
    next => cases h
  next hnone =>
    cases h
    exact ⟨rfl, .inr ⟨hnone, rfl⟩⟩

theorem snapshot_eq_ok {stream : ReplicaStream} {bytes : StateSnapshot} {snapshot : SnapshotRef}
    (h : stream.snapshot bytes = .ok snapshot) :
    snapshot = SnapshotRef.new (stream.object bytes.stateVersion) bytes bytes := by
  unfold ReplicaStream.snapshot StateSnapshot.decode at h
  cases hvalid : bytes.validate with
  | error error =>
      rw [hvalid] at h
      cases h
  | ok _ =>
      rw [hvalid] at h
      simp only [Bind.bind, Except.bind, Pure.pure, Except.pure] at h
      split at h
      · cases h
      · exact (Except.ok.inj h).symm

/-- What holds after an append that returned without an error. -/
structure Appended (history : List Event) (stream : ReplicaStream) (bytes : StateSnapshot)
    (machine : Machine) : Prop where
  isOpen : ∀ cut, ¬ Sealed history stream.session cut
  head : ∃ snapshot head, stream.snapshot bytes = .ok snapshot ∧ head.stream = stream ∧
    head.latest = some snapshot ∧
    ∀ content ∈ machine.directory.stored (.stream stream.streamPrefix), content = some head

theorem Appended.of_pruned {machine' : Machine} {stream : ReplicaStream} {bytes : StateSnapshot}
    (h : Appended history stream bytes machine)
    (hpruned : Pruned encoding limit history machine machine') :
    Appended history stream bytes machine' := by
  obtain ⟨snapshot, head, hsnapshot, hstream, hlatest, hstored⟩ := h.head
  exact ⟨h.isOpen, snapshot, head, hsnapshot, hstream, hlatest,
    fun content hcontent => hstored content (hpruned.within _ hcontent)⟩

/-- Deleting the older blobs ends an append. -/
theorem pruneStream_appended (h : Idle encoding limit history machine) {head : StreamHead}
    {snapshot : SnapshotRef} {bytes : StateSnapshot}
    (hsnapshot : head.stream.snapshot bytes = .ok snapshot) (hlatest : head.latest = some snapshot)
    (hsettled : AllSettled machine)
    (hshown : machine.directory.shown (.stream head.stream.streamPrefix) = some head)
    (hopen : ∀ cut, ¬ Sealed history head.stream.session cut) :
    (pruneStream head).Meets (protocol encoding limit history own)
      (always (Idle encoding limit history) fun _ => Appended history head.stream bytes)
      machine := by
  have hstored : ∀ content ∈ machine.directory.stored (.stream head.stream.streamPrefix),
      content = some head := by
    intro content hcontent
    rw [hsettled _ content hcontent, hshown]
  have happended : Appended history head.stream bytes machine :=
    ⟨hopen, snapshot, head, hsnapshot, rfl, hlatest, hstored⟩
  refine (pruneStream_spec h.toSound hlatest hstored).mono ?_
  rintro (error | _) machine' ⟨hpruned, -⟩
  · exact ⟨hpruned.idle h, trivial⟩
  · exact ⟨hpruned.idle h, happended.of_pruned hpruned⟩

theorem replaceHead_spec (h : Idle encoding limit history machine) {head : StreamHead}
    {snapshot : SnapshotRef} {bytes : StateSnapshot}
    (hsnapshot : head.stream.snapshot bytes = .ok snapshot)
    (hnewer : ∀ old, machine.memory.streams.lookup head.stream.streamPrefix = some old →
      old.stream = head.stream ∧
        ∀ below, old.latest = some below → below.stateVersion < snapshot.stateVersion)
    (hopen : ∀ cut, ¬ Sealed history head.stream.session cut) :
    (replaceHead encoding head snapshot bytes).Meets
      (protocol encoding limit history (some head.stream.streamPrefix))
      (always (Idle encoding limit history) fun _ => Appended history head.stream bytes)
      machine := by
  have hnew := snapshot_eq_ok hsnapshot
  unfold replaceHead
  refine Meets.seqAlways (put_spec h rfl) ?_
  rintro _ written hwritten ⟨⟨hsettled, hstreams, -⟩, blob, hshown, hbytes⟩
  have hblob : ∃ blob : Blob, written.directory.shown (.blob snapshot.object) = some blob ∧
      checksum blob.bytes = snapshot.digest := by
    refine ⟨blob, hshown, ?_⟩
    rw [hbytes, hnew]
    rfl
  have hobject : snapshot.object.stream = head.stream.streamPrefix := by
    rw [hnew]
    rfl
  refine Meets.seqAlways
    (saveHead_spec hwritten hsettled { head with latest := some snapshot } rfl hobject hblob ?_
      hopen) ?_
  · rwa [hstreams]
  · rintro _ saved hsaved ⟨hsettled', hshown'⟩
    exact pruneStream_appended hsaved hsnapshot rfl hsettled' hshown' hopen

theorem append_spec (h : Idle encoding limit history machine) {stream : ReplicaStream}
    {bytes : StateSnapshot} :
    (append encoding stream bytes).Meets
      (protocol encoding limit history (some stream.streamPrefix))
      (always (Idle encoding limit history) fun _ => Appended history stream bytes) machine := by
  unfold append
  refine meets_load h.durable ?_
  refine Meets.bind (meets_lift.mpr ?_)
  cases hhead : machine.memory.head stream with
  | error error => exact ⟨h, trivial⟩
  | ok head =>
      obtain ⟨rfl, hfound⟩ := head_eq_ok hhead
      refine Meets.bind (meets_ensure.mpr ⟨?_, fun _ => ⟨h, trivial⟩⟩)
      rintro ⟨-, hunsealed⟩
      have hopen := h.not_sealed (by simpa using hunsealed)
      refine Meets.bind (meets_lift.mpr ?_)
      cases hsnapshot : head.stream.snapshot bytes with
      | error error => exact ⟨h, trivial⟩
      | ok snapshot =>
          cases hlatest : head.latest with
          | none =>
              dsimp only
              refine replaceHead_spec h hsnapshot (fun old hold => ?_) hopen
              rcases hfound with hsome | ⟨hnone, -⟩
              · rw [hold] at hsome
                cases hsome
                exact ⟨rfl, fun below hbelow => by rw [hlatest] at hbelow; cases hbelow⟩
              · rw [hold] at hnone
                cases hnone
          | some latest =>
              have hsome : machine.memory.streams.lookup head.stream.streamPrefix = some head := by
                rcases hfound with hsome | ⟨-, hnone⟩
                · exact hsome
                · rw [hlatest] at hnone
                  cases hnone
              dsimp only
              refine Meets.bind (meets_ensure.mpr ⟨fun hle => ?_, fun _ => ⟨h, trivial⟩⟩)
              dsimp only
              split
              · -- The snapshot is already the head; it is acknowledged again once it is durable.
                refine Meets.bind (meets_ensure.mpr ⟨?_, fun _ => ⟨h, trivial⟩⟩)
                rintro rfl
                refine Meets.bind (meets_syncDirectory h.durable ?_ fun _ => ⟨h, trivial⟩)
                refine pruneStream_appended h.sync hsnapshot hlatest allSettled_sync ?_ hopen
                rw [← hsome]
                exact (h.streams _).symm
              · rename_i hne
                refine replaceHead_spec h hsnapshot (fun old hold => ?_) hopen
                rw [hold] at hsome
                cases hsome
                refine ⟨rfl, fun below hbelow => ?_⟩
                rw [hlatest] at hbelow
                cases hbelow
                omega

/-! ## Sessions -/

theorem initializeSession_spec (h : Idle encoding limit history machine) {session : HostSession} :
    (initializeSession session).Meets (protocol encoding limit history own)
      (always (Idle encoding limit history) fun _ _ => ∀ cut, ¬ Sealed history session cut)
      machine := by
  obtain ⟨hsession, hstreams⟩ := session_session h.toSound session
  unfold initializeSession
  refine meets_load h.durable ?_
  refine Meets.bind (meets_ensure.mpr ⟨fun hunsealed => ?_, fun _ => ⟨h, trivial⟩⟩)
  have hopen := h.not_sealed (by simpa using hunsealed)
  refine (saveSession_spec h { machine.memory.session session with initialized := true } hstreams
    ?_).mono ?_
  · intro cut hsealed
    replace hsealed : Sealed history session cut := by rwa [← hsession]
    exact absurd hsealed (hopen cut)
  · rintro (error | _) machine' ⟨hidle, -⟩
    · exact ⟨hidle, trivial⟩
    · exact ⟨hidle, hopen⟩

theorem mem_headsOf (h : Sound encoding limit history machine) {session : HostSession}
    {head : StreamHead} :
    head ∈ machine.memory.headsOf session ↔
      machine.directory.shown (.stream head.stream.streamPrefix) = some head ∧
        head.stream.session = session := by
  simp only [StoreState.headsOf, List.mem_filter, List.mem_map, decide_eq_true_eq]
  refine and_congr_left fun _ => ?_
  constructor
  · rintro ⟨⟨streamPrefix, found⟩, hentry, rfl⟩
    have hlookup := AList.mem_lookup_iff.mpr hentry
    have hshown := (h.streams streamPrefix).symm.trans hlookup
    have hstored := machine.directory.shown_mem (.stream streamPrefix)
    rw [hshown] at hstored
    rw [(h.durable.stream streamPrefix found hstored).1]
    exact hshown
  · intro hshown
    rw [← h.streams] at hshown
    exact ⟨⟨_, head⟩, AList.mem_lookup_iff.mp hshown, rfl⟩

theorem nodup_headsOf (h : Sound encoding limit history machine) (session : HostSession) :
    (machine.memory.headsOf session).Nodup := by
  refine List.Nodup.filter _ (List.Nodup.map_on ?_ machine.memory.streams.nodupKeys.nodup)
  rintro ⟨firstPrefix, first⟩ hfirst ⟨secondPrefix, second⟩ hsecond (rfl : first = second)
  -- A head is kept under the prefix of its stream.
  have hkey : ∀ streamPrefix, (⟨streamPrefix, first⟩ : Sigma fun _ : StreamPrefix => StreamHead) ∈
      machine.memory.streams.entries → first.stream.streamPrefix = streamPrefix := by
    intro streamPrefix hentry
    have hshown := (h.streams streamPrefix).symm.trans (AList.mem_lookup_iff.mpr hentry)
    have hstored := machine.directory.shown_mem (.stream streamPrefix)
    rw [hshown] at hstored
    exact (h.durable.stream streamPrefix first hstored).1
  rw [← hkey firstPrefix hfirst, ← hkey secondPrefix hsecond]

/-- The heads that a seal returns are a cut. -/
theorem Sound.cutAt (h : Sound encoding limit history machine) (hsettled : AllSettled machine)
    {session : HostSession} {record : SessionHead} (hsealed : record.sealed = true)
    (hstreams : record.streams = [])
    (hrecord : machine.memory.sessions.lookup session = some record) :
    CutAt encoding machine.directory session
      { record with
        streams := (machine.memory.headsOf session).mergeSort fun first second =>
          encoding.before first.stream.streamPrefix second.stream.streamPrefix } where
  sealed := hsealed
  record content hcontent := by
    rw [hsettled _ content hcontent, ← h.sessions, hrecord, ← hstreams]
  member head hhead := ((mem_headsOf h).mp (List.mem_mergeSort.mp hhead)).2
  heads head hhead content hcontent := by
    rw [hsettled _ content hcontent]
    exact ((mem_headsOf h).mp (List.mem_mergeSort.mp hhead)).1
  complete streamPrefix head hstored hmember := by
    refine List.mem_mergeSort.mpr ((mem_headsOf h).mpr ⟨?_, hmember⟩)
    rw [(h.durable.stream streamPrefix head hstored).1]
    exact (hsettled _ _ hstored).symm
  ordered := by
    apply List.pairwise_mergeSort
    · intro first second third
      exact encoding.before_trans _ _ _
    · intro first second
      exact encoding.before_total _ _
  nodup := (List.mergeSort_perm _ _).nodup_iff.mpr (nodup_headsOf h session)

theorem sealSession_spec (h : Idle encoding limit history machine) {session : HostSession} :
    (sealSession encoding session).Meets (protocol encoding limit history own)
      (always (Idle encoding limit history) fun cut machine' =>
        CutAt encoding machine'.directory session cut)
      machine := by
  obtain ⟨hsession, hstreams⟩ := session_session h.toSound session
  unfold sealSession
  refine meets_load h.durable ?_
  refine Meets.seqAlways
    (saveSession_spec h { machine.memory.session session with sealed := true } hstreams ?_) ?_
  · intro cut hsealed
    replace hsealed : Sealed history session cut := by rwa [← hsession]
    rw [h.session_of_sealed hsealed]
    simp [(h.durable.cut session cut hsealed).sealed]
  · rintro _ saved hsaved ⟨hsettled, -, hsessions⟩
    refine meets_load hsaved.durable ⟨hsaved, ?_⟩
    refine hsaved.cutAt hsettled rfl hstreams ?_
    rw [hsessions]
    simp [hsession]

/-! ## Reading -/

theorem streamHead_spec (h : Idle encoding limit history machine) {stream : ReplicaStream} :
    (streamHead stream).Meets (protocol encoding limit history own)
      (fun result machine' => machine' = machine ∧
        ∀ head, result = .ok head → machine.memory.head stream = .ok head)
      machine := by
  unfold streamHead
  refine meets_load h.durable ?_
  refine Meets.bind (meets_ensure.mpr ⟨fun _ => ?_, fun _ => ⟨rfl, nofun⟩⟩)
  exact meets_lift.mpr ⟨rfl, fun _ hresult => hresult⟩

theorem read_spec (h : Idle encoding limit history machine) {object : SnapshotObject} :
    (read encoding object).Meets (protocol encoding limit history own)
      (fun _ machine' => machine' = machine) machine := by
  unfold read
  refine meets_load h.durable ?_
  cases machine.memory.snapshots.lookup object with
  | none => rfl
  | some metadata =>
      refine (readBlob_spec h.toSound).seq ?_ ?_
      · rintro bytes _ ⟨rfl, -⟩
        rfl
      · rintro error _ ⟨rfl, -⟩
        rfl

/-! ## Opening -/

/-- The files of a replica that is not open.  No head waits for a sync, and a blob that only a crash
would bring back will be deleted. -/
structure Resting (files : Files) : Prop where
  streams : ∀ streamPrefix, files.IsSettled (.stream streamPrefix)
  blobs : ∀ object blob, some blob ∈ files.stored (.blob object) →
    (files.shown (.blob object)).map Blob.metadata = some blob.metadata ∨ Obsolete files object

theorem resting_settled (shown : (name : FileName) → Option name.Content) :
    Resting (Directory.settled shown) where
  streams _ := Directory.isSettled_settled _ _
  blobs object blob hblob := by
    rw [Directory.mem_stored_settled] at hblob
    exact .inl (by rw [Directory.shown_settled, ← hblob]; rfl)

/-- A store whose opening failed rests again. -/
theorem Resting.of_pruned {machine' : Machine} (h : Resting machine.directory)
    (hpruned : Pruned encoding limit history machine machine') : Resting machine'.directory where
  streams streamPrefix content hcontent := by
    rw [h.streams _ _ (hpruned.within _ hcontent),
      h.streams _ _ (hpruned.within _ (machine'.directory.shown_mem _))]
  blobs object blob hblob := by
    rw [← hpruned.sound.snapshots object]
    exact hpruned.sound.counted object blob hblob

/-- What the memory holds while entries of the directory are still to be read. -/
structure Loading (files : Files) (capacity : Nat) (rest : List DirEntry) (machine : Machine) :
    Prop where
  directory : machine.directory = files
  capacity : machine.memory.capacity = capacity
  snapshots : ∀ object, machine.memory.snapshots.lookup object =
    if .file (.blob object) ∈ rest then none
    else (files.shown (.blob object)).map Blob.metadata
  streams : ∀ streamPrefix, machine.memory.streams.lookup streamPrefix =
    if .file (.stream streamPrefix) ∈ rest then none else files.shown (.stream streamPrefix)
  sessions : ∀ session, machine.memory.sessions.lookup session =
    if .file (.session session) ∈ rest then none else files.shown (.session session)
  used : machine.memory.used = weight Metadata.size machine.memory.snapshots
  bounded : machine.memory.used < wordLimit
  once : ∀ name, rest.count (.file name) ≤ 1

theorem loading_init {files : Files} {entries : List DirEntry} (capacity : Nat)
    (hlists : Lists files entries) :
    Loading files capacity entries
      { directory := files
        memory := { capacity, used := 0, snapshots := ∅, streams := ∅, sessions := ∅ } } := by
  have habsent : ∀ name, .file name ∉ entries → files.shown name = none := by
    intro name hname
    rw [hlists.mem] at hname
    simpa using hname
  refine ⟨rfl, rfl, ?_, ?_, ?_, rfl, Nat.two_pow_pos 64, hlists.once⟩
  · intro object
    split
    next => rfl
    next hobject => simp [habsent _ hobject]
  · intro streamPrefix
    split
    next => rfl
    next hpre => simp [habsent _ hpre]
  · intro session
    split
    next => rfl
    next hsession => simp [habsent _ hsession]

/-- An entry that names no file is passed over. -/
theorem Loading.skip {files : Files} {capacity : Nat} {entry : DirEntry} {rest : List DirEntry}
    (h : Loading files capacity (entry :: rest) machine) (hentry : ∀ name, entry ≠ .file name) :
    Loading files capacity rest machine := by
  have hmem : ∀ name, .file name ∈ entry :: rest ↔ .file name ∈ rest := by
    intro name
    simp [(hentry name).symm]
  refine ⟨h.directory, h.capacity, ?_, ?_, ?_, h.used, h.bounded, ?_⟩
  · intro object
    simpa only [hmem] using h.snapshots object
  · intro streamPrefix
    simpa only [hmem] using h.streams streamPrefix
  · intro session
    simpa only [hmem] using h.sessions session
  · intro name
    exact (List.count_le_count_cons).trans (h.once name)

/-- A file that is read is not listed again. -/
theorem Loading.not_mem {files : Files} {capacity : Nat} {name : FileName} {rest : List DirEntry}
    (h : Loading files capacity (.file name :: rest) machine) : .file name ∉ rest := by
  intro hmem
  have honce := h.once name
  rw [List.count_cons_self] at honce
  have hpositive := List.count_pos_iff.mpr hmem
  omega

theorem file_mem_cons {name other : FileName} {rest : List DirEntry} (hother : other ≠ name) :
    .file other ∈ DirEntry.file name :: rest ↔ .file other ∈ rest := by
  simp [hother]

section Loading

variable {files : Files} {capacity : Nat} {rest : List DirEntry}

theorem Loading.tail_once {entry : DirEntry} (h : Loading files capacity (entry :: rest) machine)
    (name : FileName) : rest.count (.file name) ≤ 1 :=
  List.count_le_count_cons.trans (h.once name)

theorem Loading.takeSession {session : HostSession} {head : SessionHead}
    (h : Loading files capacity (.file (.session session) :: rest) machine)
    (hshown : files.shown (.session session) = some head) (hkey : head.session = session) :
    Loading files capacity rest
      { machine with
        memory := { machine.memory with
          sessions := machine.memory.sessions.insert head.session head } } := by
  rw [hkey]
  refine ⟨h.directory, h.capacity, ?_, ?_, ?_, h.used, h.bounded, h.tail_once⟩
  · intro object
    simpa only [file_mem_cons (show FileName.blob object ≠ .session session by simp)]
      using h.snapshots object
  · intro streamPrefix
    simpa only [file_mem_cons (show FileName.stream streamPrefix ≠ .session session by simp)]
      using h.streams streamPrefix
  · intro other
    by_cases hother : other = session
    · subst hother
      rw [AList.lookup_insert, if_neg h.not_mem, hshown]
    · rw [AList.lookup_insert_ne hother]
      simpa only [file_mem_cons (show FileName.session other ≠ .session session by simpa)]
        using h.sessions other

theorem Loading.takeStream {streamPrefix : StreamPrefix} {head : StreamHead}
    (h : Loading files capacity (.file (.stream streamPrefix) :: rest) machine)
    (hshown : files.shown (.stream streamPrefix) = some head)
    (hkey : head.stream.streamPrefix = streamPrefix) :
    Loading files capacity rest
      { machine with
        memory := { machine.memory with
          streams := machine.memory.streams.insert head.stream.streamPrefix head } } := by
  rw [hkey]
  refine ⟨h.directory, h.capacity, ?_, ?_, ?_, h.used, h.bounded, h.tail_once⟩
  · intro object
    simpa only [file_mem_cons (show FileName.blob object ≠ .stream streamPrefix by simp)]
      using h.snapshots object
  · intro other
    by_cases hother : other = streamPrefix
    · subst hother
      rw [AList.lookup_insert, if_neg h.not_mem, hshown]
    · rw [AList.lookup_insert_ne hother]
      simpa only [file_mem_cons (show FileName.stream other ≠ .stream streamPrefix by simpa)]
        using h.streams other
  · intro session
    simpa only [file_mem_cons (show FileName.session session ≠ .stream streamPrefix by simp)]
      using h.sessions session

theorem Loading.takeBlob {object : SnapshotObject} {blob : Blob} {used : Nat}
    (h : Loading files capacity (.file (.blob object) :: rest) machine)
    (hshown : files.shown (.blob object) = some blob) (hkey : blob.metadata.object = object)
    (hused : checkedAdd machine.memory.used blob.metadata.size = some used) :
    Loading files capacity rest
      { machine with
        memory := { machine.memory with
          used
          snapshots := machine.memory.snapshots.insert blob.metadata.object blob.metadata } } := by
  rw [hkey]
  obtain ⟨rfl, hlt⟩ := checkedAdd_eq_some hused
  have habsent : machine.memory.snapshots.lookup object = none := by
    rw [h.snapshots object, if_pos List.mem_cons_self]
  refine ⟨h.directory, h.capacity, ?_, ?_, ?_, ?_, hlt, h.tail_once⟩
  · intro other
    by_cases hother : other = object
    · subst hother
      rw [AList.lookup_insert, if_neg h.not_mem, hshown]
      rfl
    · rw [AList.lookup_insert_ne hother]
      simpa only [file_mem_cons (show FileName.blob other ≠ .blob object by simpa)]
        using h.snapshots other
  · intro streamPrefix
    simpa only [file_mem_cons (show FileName.stream streamPrefix ≠ .blob object by simp)]
      using h.streams streamPrefix
  · intro session
    simpa only [file_mem_cons (show FileName.session session ≠ .blob object by simp)]
      using h.sessions session
  · rw [weight_insert habsent, h.used, Nat.add_comm]

/-- One entry of the directory is taken into the memory. -/
theorem restoreEntry_spec (hdurable : Durable encoding limit history files) {entry : DirEntry}
    (h : Loading files capacity (entry :: rest) machine) :
    (restoreEntry encoding entry).Meets (protocol encoding limit history own)
      (either (fun _ => Loading files capacity rest) fun _ machine' => machine'.directory = files)
      machine := by
  have hmachine : Durable encoding limit history machine.directory := by rwa [h.directory]
  cases entry with
  | pending =>
      refine meets_removePending hmachine fun result => ?_
      cases result with
      | ok _ => exact h.skip (by simp)
      | error _ => exact h.directory
  | other => exact h.skip (by simp)
  | file name =>
      cases name with
      | session session =>
          refine Meets.bind (meets_readFile hmachine ?_ fun _ => h.directory)
          intro head hshown
          rw [h.directory] at hshown
          refine Meets.bind (meets_ensure.mpr ⟨?_, fun _ => h.directory⟩)
          intro hkey
          refine meets_load hmachine ?_
          exact meets_store hmachine (h.takeSession hshown hkey)
      | stream streamPrefix =>
          refine Meets.bind (meets_readFile hmachine ?_ fun _ => h.directory)
          intro head hshown
          rw [h.directory] at hshown
          refine Meets.bind (meets_ensure.mpr ⟨?_, fun _ => h.directory⟩)
          intro hkey
          refine meets_load hmachine ?_
          exact meets_store hmachine (h.takeStream hshown hkey)
      | blob object =>
          refine Meets.bind (meets_readFile hmachine ?_ fun _ => h.directory)
          intro blob hshown
          rw [h.directory] at hshown
          refine Meets.bind (meets_ensure.mpr ⟨?_, fun _ => h.directory⟩)
          intro hkey
          refine Meets.bind (meets_ensure.mpr ⟨fun _ => ?_, fun _ => h.directory⟩)
          refine meets_load hmachine ?_
          refine Meets.bind (meets_context.mpr ⟨fun used hused => ?_, fun _ => h.directory⟩)
          exact meets_store hmachine (h.takeBlob hshown hkey hused)

/-- When every entry was taken, the memory is a copy of the directory. -/
theorem Loading.sound (h : Loading files capacity [] machine)
    (hdurable : Durable encoding limit history files) (hresting : Resting files) :
    Sound encoding limit history machine := by
  have hdirectory := h.directory
  refine ⟨by rwa [hdirectory], ?_, ?_, ?_, h.used, h.bounded, ?_⟩
  · intro object
    rw [hdirectory]
    simpa using h.snapshots object
  · intro streamPrefix
    rw [hdirectory]
    simpa using h.streams streamPrefix
  · intro session
    rw [hdirectory]
    simpa using h.sessions session
  · rw [hdirectory]
    intro object blob hblob
    rw [h.snapshots object, if_neg List.not_mem_nil]
    exact hresting.blobs object blob hblob

end Loading

/-- The older blobs of the stream are gone. -/
def Trimmed (head : StreamHead) (machine : Machine) : Prop :=
  ∀ latest, head.latest = some latest → ∀ object : SnapshotObject,
    object.stream = head.stream.streamPrefix → object ≠ latest.object →
      machine.memory.snapshots.lookup object = none

theorem Trimmed.of_pruned {head : StreamHead} {machine' : Machine} (h : Trimmed head machine)
    (hpruned : Pruned encoding limit history machine machine') : Trimmed head machine' := by
  intro latest hlatest object hstream hne
  cases hlookup : machine'.memory.snapshots.lookup object with
  | none => rfl
  | some metadata =>
      have hheld := hpruned.lookup object metadata hlookup
      rw [h latest hlatest object hstream hne] at hheld
      cases hheld

/-- The loop over the streams of a store that is being opened. -/
theorem pruneStreams_spec (h : Sound encoding limit history machine)
    (hresting : Resting machine.directory) {heads : List StreamHead}
    (hheads : ∀ head ∈ heads,
      machine.directory.shown (.stream head.stream.streamPrefix) = some head) :
    (forEach pruneStream heads).Meets (protocol encoding limit history own)
      (always (Pruned encoding limit history machine) fun _ machine' =>
        ∀ head ∈ heads, Trimmed head machine')
      machine := by
  refine (Meets.forEach
    (fun rest machine' => Pruned encoding limit history machine machine' ∧
      (∀ head ∈ rest, head ∈ heads) ∧ ∀ head ∈ heads, head ∈ rest ∨ Trimmed head machine')
    (fun _ machine' => Pruned encoding limit history machine machine')
    ?_ ⟨.refl h, fun _ hhead => hhead, fun _ hhead => .inl hhead⟩).mono ?_
  · rintro head rest machine' ⟨hpruned, hrest, hdone⟩
    have hshown := hheads head (hrest head List.mem_cons_self)
    have hstored : ∀ content ∈ machine'.directory.stored (.stream head.stream.streamPrefix),
        content = some head := by
      intro content hcontent
      rw [hresting.streams _ _ (hpruned.within _ hcontent), hshown]
    obtain ⟨-, latest, hlatest, -⟩ :=
      h.durable.stream _ head (hshown ▸ machine.directory.shown_mem _)
    refine (pruneStream_spec hpruned.sound hlatest hstored).mono ?_
    rintro (error | _) machine'' ⟨hpruned', htrimmed⟩
    · exact hpruned.trans hpruned'
    · refine ⟨hpruned.trans hpruned', fun other hother => hrest other (List.mem_cons_of_mem _ hother),
        fun other hother => ?_⟩
      rcases hdone other hother with hmember | hother'
      · rcases List.mem_cons.mp hmember with rfl | hlater
        · refine .inr fun latest' hlatest' => ?_
          rw [hlatest] at hlatest'
          cases hlatest'
          exact htrimmed
        · exact .inl hlater
      · exact .inr (hother'.of_pruned hpruned')
  · rintro (error | _) machine' hresult
    · exact ⟨hresult, trivial⟩
    · obtain ⟨hpruned, -, hdone⟩ := hresult
      refine ⟨hpruned, fun head hhead => ?_⟩
      rcases hdone head hhead with hnil | htrimmed
      · cases hnil
      · exact htrimmed

/-- What a reopened store keeps fits into the capacity it had before. -/
theorem Sound.used_le (h : Sound encoding limit history machine) {capacity : Nat}
    (hlimit : capacity ∈ limit)
    (htrimmed : ∀ head,
      machine.directory.shown (.stream head.stream.streamPrefix) = some head →
        Trimmed head machine) :
    machine.memory.used ≤ capacity := by
  obtain ⟨table, hweight, hcounted⟩ := h.durable.budget capacity hlimit
  rw [h.used]
  refine le_trans (weight_le_of_lookup fun object metadata hlookup => ?_) hweight
  obtain ⟨blob, hshown, rfl⟩ := h.shown_of_lookup hlookup
  rcases hcounted object blob (hshown ▸ machine.directory.shown_mem _) with htable | hobsolete
  · exact htable
  · -- The blobs that were to be deleted are gone.
    obtain ⟨head, latest, hhead, hlatest, hne⟩ := hobsolete _ (machine.directory.shown_mem _)
    have hpre := (h.durable.stream _ head (hhead ▸ machine.directory.shown_mem _)).1
    have hgone := htrimmed head (by rw [hpre, hhead]) latest hlatest object hpre.symm hne.symm
    rw [hlookup] at hgone
    cases hgone

/-- A store that was opened is a copy of its directory and fits into its capacity. -/
theorem openStore_spec {capacity : Nat} (hdurable : Durable encoding limit history machine.directory)
    (hresting : Resting machine.directory) (hcapacity : ∀ same ∈ limit, capacity = same) :
    (openStore encoding capacity).Meets (protocol encoding limit history own)
      (either (fun _ => Idle encoding limit history) fun _ machine' =>
        Durable encoding limit history machine'.directory ∧ Resting machine'.directory)
      machine := by
  unfold openStore
  refine Meets.bind (meets_ensure.mpr ⟨fun _ => ?_, fun _ => ⟨hdurable, hresting⟩⟩)
  refine Meets.bind (meets_createDirectory hdurable fun result => ?_)
  rcases result with error | _
  · exact ⟨hdurable, hresting⟩
  refine Meets.bind (meets_tryLock hdurable fun result => ?_)
  rcases result with error | _
  · exact ⟨hdurable, hresting⟩
  refine Meets.bind (meets_store hdurable ?_)
  refine Meets.bind (meets_readDir hdurable (fun entries hlists => ?_)
    fun _ => ⟨hdurable, hresting⟩)
  refine (Meets.forEach (fun rest => Loading machine.directory capacity rest)
    (fun _ machine' => machine'.directory = machine.directory)
    (fun entry rest loading hloading => restoreEntry_spec hdurable hloading)
    (loading_init capacity hlists)).seq ?_ ?_
  · intro _ loaded hloaded
    have hsound := hloaded.sound hdurable hresting
    have hdirectory := hloaded.directory
    have hresting' : Resting loaded.directory := by rwa [hdirectory]
    refine meets_load hsound.durable ?_
    refine meets_shuffleHeads hsound.durable fun heads hperm => ?_
    have hheads : ∀ head, head ∈ heads ↔
        loaded.directory.shown (.stream head.stream.streamPrefix) = some head := by
      intro head
      have hmem : head ∈ loaded.memory.headsOf head.stream.session ↔ _ := mem_headsOf hsound
      simp only [StoreState.headsOf, List.mem_filter, decide_true, and_true] at hmem
      rw [hperm.mem_iff]
      exact hmem
    refine (pruneStreams_spec hsound hresting' fun head hhead => (hheads head).mp hhead).mono ?_
    rintro (error | _) machine' ⟨hpruned, htrimmed⟩
    · exact ⟨hpruned.sound.durable, hresting'.of_pruned hpruned⟩
    · refine ⟨hpruned.sound, fun same hsame => ?_⟩
      obtain rfl := hcapacity same hsame
      refine ⟨hpruned.capacity.trans hloaded.capacity, hpruned.sound.used_le hsame ?_⟩
      intro head hshown
      refine htrimmed head ((hheads head).mpr ?_)
      rw [← hsound.streams, ← hpruned.streams, hpruned.sound.streams, hshown]
  · intro error loading hdirectory
    change loading.directory = machine.directory at hdirectory
    exact ⟨by rwa [hdirectory], by rwa [hdirectory]⟩

end Replication
end DurableActors
