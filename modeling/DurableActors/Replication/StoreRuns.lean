import DurableActors.Replication.StoreSpecs

/-!
# Runs of a replica store

A replica opens its store, answers requests one after the other, crashes at any call
and opens the store again.  A crash keeps of the unsynced changes whichever it likes.

Main results:

- Theorem {lit}`Replica.sound_of_reachable`: the files keep their promises through every run.
- Theorem {lit}`seal_session_is_permanent`: sealing a session is a permanent cut.
- Theorem {lit}`store_is_crash_consistent`: what was acknowledged survives, and the bytes are
  accounted for.
-/

namespace DurableActors
namespace Replication

open Effects Effects.Prog Weight

/-! ## Runs -/

/-- What a replica is doing. -/
inductive Phase
  | closed
  | opening (rest : StoreProg Unit)
  | idle
  | running (request : Request) (rest : StoreProg Reply)

/-- A replica with the requests that it answered, the newest first. -/
structure Replica where
  machine : Machine
  phase : Phase
  history : List Event

/-- A step of a replica.  A limit is the one capacity with which the store is opened. -/
inductive ReplicaStep (encoding : Encoding) (limit : Option Nat) : Replica → Replica → Prop
  | startOpening (machine : Machine) (history : List Event) (capacity : Nat)
      (hcapacity : ∀ same ∈ limit, capacity = same) :
      ReplicaStep encoding limit ⟨machine, .closed, history⟩
        ⟨machine, .opening (openStore encoding capacity), history⟩
  | openingCall (history : List Event) {machine machine' : Machine} {rest rest' : StoreProg Unit}
      (hstep : Prog.Step Performs (rest, machine) (rest', machine')) :
      ReplicaStep encoding limit ⟨machine, .opening rest, history⟩
        ⟨machine', .opening rest', history⟩
  | opened (machine : Machine) (history : List Event) :
      ReplicaStep encoding limit ⟨machine, .opening (done ()), history⟩ ⟨machine, .idle, history⟩
  | openingFailed (machine : Machine) (history : List Event) (error : Error) :
      ReplicaStep encoding limit ⟨machine, .opening (fail error), history⟩
        ⟨machine, .closed, history⟩
  | begin (machine : Machine) (history : List Event) (request : Request) :
      ReplicaStep encoding limit ⟨machine, .idle, history⟩
        ⟨machine, .running request (request.program encoding), history⟩
  | call (history : List Event) {machine machine' : Machine} {rest rest' : StoreProg Reply}
      (request : Request) (hstep : Prog.Step Performs (rest, machine) (rest', machine')) :
      ReplicaStep encoding limit ⟨machine, .running request rest, history⟩
        ⟨machine', .running request rest', history⟩
  | answer (machine : Machine) (history : List Event) (request : Request)
      (result : Except Error Reply) :
      ReplicaStep encoding limit ⟨machine, .running request (lift result), history⟩
        ⟨machine, .idle, (request, result) :: history⟩
  | crash (replica : Replica) (left : (name : FileName) → Option name.Content)
      (hleft : replica.machine.directory.Survives left) :
      ReplicaStep encoding limit replica
        { replica with
          machine := { replica.machine with directory := Directory.settled left }
          phase := .closed }

/-- The states of a replica that began with an empty directory. -/
def ReplicaReachable (encoding : Encoding) (limit : Option Nat) (replica : Replica) : Prop :=
  ∃ memory, Relation.ReflTransGen (ReplicaStep encoding limit)
    ⟨⟨Directory.empty, memory⟩, .closed, []⟩ replica

/-! ## What requests leave -/

/-- The stream whose head a request may change. -/
def Request.own : Request → Option StreamPrefix
  | append stream _ => some stream.streamPrefix
  | _ => none

/-- What holds when a request returned a result. -/
def Outcome (encoding : Encoding) (history : List Event) :
    Request → Except Error Reply → Machine → Prop
  | .initializeSession session, .ok _, _ => ∀ cut, ¬ Sealed history session cut
  | .append stream bytes, .ok _, machine => Appended history stream bytes machine
  | .streamHead stream, .ok (.streamHead head), machine => machine.memory.head stream = .ok head
  | .sealSession session, .ok (.sessionHead cut), machine =>
      CutAt encoding machine.directory session cut
  | _, _, _ => True

variable {encoding : Encoding} {limit : Option Nat} {history : List Event} {machine : Machine}

theorem outcome_error {request : Request} {error : Error} :
    Outcome encoding history request (.error error) machine := by
  cases request <;> trivial

/-- Every request leaves an idle store. -/
theorem program_spec (h : Idle encoding limit history machine) (request : Request) :
    (request.program encoding).Meets (protocol encoding limit history request.own)
      (fun result machine' => Idle encoding limit history machine' ∧
        Outcome encoding history request result machine')
      machine := by
  cases request with
  | initializeSession session =>
      exact (initializeSession_spec h).seq (fun _ _ hok => ⟨hok.1, hok.2⟩)
        fun _ _ herror => ⟨herror.1, trivial⟩
  | append stream bytes =>
      exact (append_spec h).seq (fun _ _ hok => ⟨hok.1, hok.2⟩)
        fun _ _ herror => ⟨herror.1, trivial⟩
  | streamHead stream =>
      refine (streamHead_spec h).seq ?_ ?_
      · rintro head _ ⟨rfl, hhead⟩
        exact ⟨h, hhead head rfl⟩
      · rintro error _ ⟨rfl, -⟩
        exact ⟨h, trivial⟩
  | sealSession session =>
      exact (sealSession_spec h).seq (fun _ _ hok => ⟨hok.1, hok.2⟩)
        fun _ _ herror => ⟨herror.1, trivial⟩
  | put object bytes =>
      exact (put_spec h rfl).seq (fun _ _ hok => ⟨hok.1, trivial⟩)
        fun _ _ herror => ⟨herror.1, trivial⟩
  | read object =>
      refine (read_spec h).seq ?_ ?_
      · rintro bytes _ rfl
        exact ⟨h, trivial⟩
      · rintro error _ rfl
        exact ⟨h, trivial⟩

/-! ## The order of answers -/

/-- What an answer says about the answers before it. -/
structure Follows (later earlier : Event) : Prop where
  append_append : ∀ {stream bytes bytes' reply reply'}, earlier = (.append stream bytes, .ok reply) →
    later = (.append stream bytes', .ok reply') →
    ∃ snapshot snapshot', stream.snapshot bytes = .ok snapshot ∧
      stream.snapshot bytes' = .ok snapshot' ∧ AtOrBelow snapshot snapshot'
  append_seal : ∀ {stream bytes reply cut}, earlier = (.append stream bytes, .ok reply) →
    later = (.sealSession stream.session, .ok (.sessionHead cut)) →
    ∃ head ∈ cut.streams, head.stream = stream ∧
      ∃ latest, head.latest = some latest ∧ bytes.stateVersion ≤ latest.stateVersion
  seal_append : ∀ {stream bytes reply cut},
    earlier = (.sealSession stream.session, .ok (.sessionHead cut)) →
    later ≠ (.append stream bytes, .ok reply)
  seal_of_initialized : ∀ {session reply cut}, earlier = (.sealSession session, .ok (.sessionHead cut)) →
    later ≠ (.initializeSession session, .ok reply)
  seal_seal : ∀ {session cut cut'}, earlier = (.sealSession session, .ok (.sessionHead cut)) →
    later = (.sealSession session, .ok (.sessionHead cut')) → cut' = cut
  seal_head : ∀ {stream cut head},
    earlier = (.sealSession stream.session, .ok (.sessionHead cut)) →
    later = (.streamHead stream, .ok (.streamHead head)) →
    head ∈ cut.streams ∨ head.latest = none ∧
      ∀ other ∈ cut.streams, other.stream.streamPrefix ≠ stream.streamPrefix

/-- The answers of a run, and the snapshots of the acknowledged appends. -/
structure InOrder (history : List Event) : Prop where
  follows : history.Pairwise Follows
  accepted : ∀ stream bytes reply, (.append stream bytes, .ok reply) ∈ history →
    ∃ snapshot, stream.snapshot bytes = .ok snapshot

theorem snapshot_stateVersion {stream : ReplicaStream} {bytes : StateSnapshot}
    {snapshot : SnapshotRef} (h : stream.snapshot bytes = .ok snapshot) :
    snapshot.stateVersion = bytes.stateVersion := by
  rw [snapshot_eq_ok h]
  rfl

/-- A head that is read agrees with the cut of its session. -/
theorem Sound.head_of_sealed (h : Sound encoding limit history machine) {stream : ReplicaStream}
    {cut : SessionHead} {head : StreamHead} (hsealed : Sealed history stream.session cut)
    (hhead : machine.memory.head stream = .ok head) :
    head ∈ cut.streams ∨ head.latest = none ∧
      ∀ other ∈ cut.streams, other.stream.streamPrefix ≠ stream.streamPrefix := by
  have hcut := h.durable.cut _ cut hsealed
  obtain ⟨rfl, hfound | ⟨hnone, hlatest⟩⟩ := head_eq_ok hhead
  · rw [h.streams] at hfound
    exact .inl (hcut.complete _ head (hfound ▸ machine.directory.shown_mem _) rfl)
  · refine .inr ⟨hlatest, fun other hother hpre => ?_⟩
    have hshown := hcut.heads other hother _ (machine.directory.shown_mem _)
    rw [hpre, ← h.streams, hnone] at hshown
    cases hshown

/-- An answer follows the answers before it. -/
theorem Outcome.follows (h : Idle encoding limit history machine) (horder : InOrder history)
    {request : Request} {result : Except Error Reply}
    (houtcome : Outcome encoding history request result machine) {earlier : Event}
    (hearlier : earlier ∈ history) : Follows (request, result) earlier where
  append_append := by
    rintro stream bytes bytes' reply reply' rfl ⟨⟩
    obtain ⟨snapshot, hsnapshot⟩ := horder.accepted stream bytes reply hearlier
    obtain ⟨snapshot', head, hsnapshot', -, hlatest, hstored⟩ := houtcome.head
    obtain ⟨head', latest, hhead', -, hlatest', hbelow⟩ :=
      h.durable.acked stream snapshot ⟨bytes, reply, hearlier, hsnapshot⟩ _
        (machine.directory.shown_mem _)
    rw [hstored _ (machine.directory.shown_mem _)] at hhead'
    cases hhead'
    rw [hlatest] at hlatest'
    cases hlatest'
    exact ⟨snapshot, snapshot', hsnapshot, hsnapshot', hbelow⟩
  append_seal := by
    rintro stream bytes reply cut rfl ⟨⟩
    obtain ⟨snapshot, hsnapshot⟩ := horder.accepted stream bytes reply hearlier
    have hshown := machine.directory.shown_mem (.stream stream.streamPrefix)
    obtain ⟨head, latest, hhead, hstream, hlatest, hbelow⟩ :=
      h.durable.acked stream snapshot ⟨bytes, reply, hearlier, hsnapshot⟩ _ hshown
    rw [hhead] at hshown
    refine ⟨head, houtcome.complete _ head hshown (by rw [hstream]), hstream, latest, hlatest, ?_⟩
    rw [← snapshot_stateVersion hsnapshot]
    exact hbelow.le
  seal_append := by
    rintro stream bytes reply cut rfl ⟨⟩
    exact houtcome.isOpen cut hearlier
  seal_of_initialized := by
    rintro session reply cut rfl ⟨⟩
    exact houtcome cut hearlier
  seal_seal := by
    rintro session cut cut' rfl ⟨⟩
    exact CutAt.unique houtcome (h.durable.cut session cut hearlier)
  seal_head := by
    rintro stream cut head rfl ⟨⟩
    exact h.head_of_sealed hearlier houtcome

theorem InOrder.answer (h : Idle encoding limit history machine) (horder : InOrder history)
    {request : Request} {result : Except Error Reply}
    (houtcome : Outcome encoding history request result machine) :
    InOrder ((request, result) :: history) where
  follows := by
    refine List.pairwise_cons.mpr ⟨fun earlier hearlier => ?_, horder.follows⟩
    exact houtcome.follows h horder hearlier
  accepted stream bytes reply hmem := by
    rcases List.mem_cons.mp hmem with heq | hold
    · cases heq
      obtain ⟨snapshot, head, hsnapshot, -⟩ := houtcome.head
      exact ⟨snapshot, hsnapshot⟩
    · exact horder.accepted stream bytes reply hold

/-- An answer becomes part of what the files keep. -/
theorem Durable.answer (h : Durable encoding limit history machine.directory)
    {request : Request} {result : Except Error Reply}
    (houtcome : Outcome encoding history request result machine) :
    Durable encoding limit ((request, result) :: history) machine.directory where
  blob := h.blob
  stream := h.stream
  session := h.session
  acked stream snapshot := by
    rintro ⟨bytes, reply, hmem, hsnapshot⟩ content hcontent
    rcases List.mem_cons.mp hmem with heq | hold
    · cases heq
      obtain ⟨snapshot', head, hsnapshot', hstream, hlatest, hstored⟩ := houtcome.head
      rw [hsnapshot] at hsnapshot'
      cases hsnapshot'
      exact ⟨head, snapshot, hstored content hcontent, hstream, hlatest, .inl rfl⟩
    · exact h.acked stream snapshot ⟨bytes, reply, hold, hsnapshot⟩ content hcontent
  cut session cut := by
    intro hsealed
    rcases List.mem_cons.mp hsealed with heq | hold
    · cases heq
      exact houtcome
    · exact h.cut session cut hold
  budget := h.budget

theorem Idle.answer (h : Idle encoding limit history machine)
    {request : Request} {result : Except Error Reply}
    (houtcome : Outcome encoding history request result machine) :
    Idle encoding limit ((request, result) :: history) machine :=
  ⟨⟨h.durable.answer houtcome, h.snapshots, h.streams, h.sessions, h.used, h.bounded, h.counted⟩,
    h.fits⟩

/-! ## The invariant of runs -/

/-- What holds in each phase. -/
def PhaseHolds (encoding : Encoding) (limit : Option Nat) (history : List Event)
    (machine : Machine) : Phase → Prop
  | .closed => Resting machine.directory
  | .opening rest =>
      rest.Meets (protocol encoding limit history none)
        (either (fun _ => Idle encoding limit history) fun _ machine' =>
          Durable encoding limit history machine'.directory ∧ Resting machine'.directory)
        machine
  | .idle => Idle encoding limit history machine
  | .running request rest =>
      rest.Meets (protocol encoding limit history request.own)
        (fun result machine' => Idle encoding limit history machine' ∧
          Outcome encoding history request result machine')
        machine

/-- The invariant of a replica. -/
structure Replica.IsSound (encoding : Encoding) (limit : Option Nat) (replica : Replica) :
    Prop where
  durable : Durable encoding limit replica.history replica.machine.directory
  order : InOrder replica.history
  phase : PhaseHolds encoding limit replica.history replica.machine replica.phase

theorem Replica.IsSound.step {replica replica' : Replica}
    (h : replica.IsSound encoding limit) (hstep : ReplicaStep encoding limit replica replica') :
    replica'.IsSound encoding limit := by
  cases hstep with
  | startOpening machine history capacity hcapacity =>
      exact ⟨h.durable, h.order, openStore_spec h.durable h.phase hcapacity⟩
  | openingCall history hcall =>
      cases hcall with
      | call hperforms =>
          obtain ⟨⟨hdurable, -⟩, hnext⟩ := h.phase _ rfl _ _ hperforms
          exact ⟨hdurable, h.order, hnext⟩
  | opened machine history => exact ⟨h.durable, h.order, h.phase⟩
  | openingFailed machine history error => exact ⟨h.durable, h.order, h.phase.2⟩
  | begin machine history request => exact ⟨h.durable, h.order, program_spec h.phase request⟩
  | call history request hcall =>
      cases hcall with
      | call hperforms =>
          obtain ⟨⟨hdurable, -⟩, hnext⟩ := h.phase _ rfl _ _ hperforms
          exact ⟨hdurable, h.order, hnext⟩
  | answer machine history request result =>
      obtain ⟨hidle, houtcome⟩ := meets_lift.mp h.phase
      exact ⟨h.durable.answer houtcome, h.order.answer hidle houtcome, hidle.answer houtcome⟩
  | crash _ left hleft => exact ⟨h.durable.within hleft.within, h.order, resting_settled left⟩

theorem durable_empty : Durable encoding limit [] (Directory.empty : Files) where
  blob _ _ hblob := by cases hblob
  stream _ _ hhead := by cases hhead
  session _ _ hhead := by cases hhead
  acked := by
    rintro stream snapshot ⟨bytes, reply, hmem, -⟩
    cases hmem
  cut _ _ hsealed := by cases hsealed
  budget capacity _ := ⟨∅, Nat.zero_le _, fun _ _ hblob => by cases hblob⟩

theorem Replica.sound_of_reachable {replica : Replica}
    (h : ReplicaReachable encoding limit replica) : replica.IsSound encoding limit := by
  obtain ⟨memory, hruns⟩ := h
  induction hruns with
  | refl => exact ⟨durable_empty, ⟨.nil, by simp⟩, resting_settled _⟩
  | tail _ hstep ih => exact ih.step hstep

/-! ## The permanent cut -/

/-- Let a seal return the heads of a session.  Every append to the session that was ever acknowledged
is at or below the head of its stream; no later append or initialization of the session succeeds;
and every later seal and head of a stream agrees with it.  The store may be opened with any
capacity each time. -/
theorem seal_session_is_permanent {replica : Replica}
    (h : ReplicaReachable encoding none replica) {session : HostSession} {cut : SessionHead}
    {later earlier : List Event}
    (hhistory : replica.history =
      later ++ (.sealSession session, .ok (.sessionHead cut)) :: earlier) :
    (∀ stream bytes reply, stream.session = session →
      (.append stream bytes, .ok reply) ∈ replica.history →
        ∃ head ∈ cut.streams, head.stream = stream ∧
          ∃ latest, head.latest = some latest ∧ bytes.stateVersion ≤ latest.stateVersion) ∧
    (∀ stream bytes reply, stream.session = session →
      (.append stream bytes, .ok reply) ∉ later) ∧
    (∀ reply, (.initializeSession session, .ok reply) ∉ later) ∧
    (replica.phase = .idle → (replica.machine.memory.session session).sealed = true) ∧
    (∀ cut', (.sealSession session, .ok (.sessionHead cut')) ∈ later → cut' = cut) ∧
    (∀ stream head, stream.session = session →
      (.streamHead stream, .ok (.streamHead head)) ∈ later →
        head ∈ cut.streams ∨ head.latest = none ∧
          ∀ other ∈ cut.streams, other.stream.streamPrefix ≠ stream.streamPrefix) := by
  have hsound := Replica.sound_of_reachable h
  have horder := hsound.order.follows
  rw [hhistory] at horder
  obtain ⟨-, htail, hlater⟩ := List.pairwise_append.mp horder
  have hafter : ∀ event ∈ later, Follows event (.sealSession session, .ok (.sessionHead cut)) :=
    fun event hevent => hlater event hevent _ List.mem_cons_self
  have hbefore := (List.pairwise_cons.mp htail).1
  have hnone : ∀ stream bytes reply, stream.session = session →
      (.append stream bytes, .ok reply) ∉ later := by
    rintro stream bytes reply rfl hmem
    exact (hafter _ hmem).seal_append rfl rfl
  refine ⟨?_, hnone, ?_, ?_, ?_, ?_⟩
  · intro stream bytes reply hsession hmem
    rw [hhistory] at hmem
    rcases List.mem_append.mp hmem with hmem' | hmem'
    · exact absurd hmem' (hnone stream bytes reply hsession)
    · rcases List.mem_cons.mp hmem' with heq | hearlier
      · cases heq
      · subst hsession
        exact (hbefore _ hearlier).append_seal rfl rfl
  · intro reply hmem
    exact (hafter _ hmem).seal_of_initialized rfl rfl
  · intro hidle
    have hphase := hsound.phase
    rw [hidle] at hphase
    have hsealed : Sealed replica.history session cut := by
      unfold Sealed
      rw [hhistory]
      simp
    rw [Sound.session_of_sealed hphase.toSound hsealed]
    exact (hphase.durable.cut session cut hsealed).sealed
  · intro cut' hmem
    exact (hafter _ hmem).seal_seal rfl rfl
  · rintro stream head rfl hmem
    exact (hafter _ hmem).seal_head rfl rfl

/-! ## Crash consistency -/

/-- The heads of the other streams through an append that a crash ends, and the opening after it. -/
theorem head_after_crash (h : Idle encoding limit history machine) {stream : ReplicaStream}
    {bytes : StateSnapshot} {capacity : Nat} {rest : StoreProg Unit} {crashed opened : Machine}
    {left : (name : FileName) → Option name.Content}
    (happend : Relation.ReflTransGen (Prog.Step Performs) (append encoding stream bytes, machine)
      (rest, crashed))
    (hleft : crashed.directory.Survives left)
    (hcapacity : ∀ same ∈ limit, capacity = same)
    (hopen : Relation.ReflTransGen (Prog.Step Performs)
      (openStore encoding capacity, { crashed with directory := Directory.settled left })
      (done (), opened))
    {streamPrefix : StreamPrefix} (hother : streamPrefix ≠ stream.streamPrefix)
    (hsettled : machine.directory.IsSettled (.stream streamPrefix)) :
    opened.memory.streams.lookup streamPrefix = machine.memory.streams.lookup streamPrefix := by
  have hkeeps : ∀ before after : Machine,
      (Durable encoding limit history before.directory ∧
        before.directory.stored (.stream streamPrefix) ⊆
          machine.directory.stored (.stream streamPrefix)) →
      (protocol encoding limit history (some stream.streamPrefix)).guarantee before after →
      Durable encoding limit history after.directory ∧
        after.directory.stored (.stream streamPrefix) ⊆
          machine.directory.stored (.stream streamPrefix) := by
    rintro before after ⟨-, hbefore⟩ ⟨hdurable, hwithin⟩
    exact ⟨hdurable, (hwithin streamPrefix (by simpa using hother.symm)).trans hbefore⟩
  have hstays : ∀ before after : Machine,
      before.directory.stored (.stream streamPrefix) ⊆ {left (.stream streamPrefix)} →
      (protocol encoding limit history none).guarantee before after →
      after.directory.stored (.stream streamPrefix) ⊆ {left (.stream streamPrefix)} := by
    rintro before after hbefore ⟨-, hwithin⟩
    exact (hwithin streamPrefix (by simp)).trans hbefore
  obtain ⟨-, hdurable, hwithin⟩ :=
    Meets.run (fun _ => rfl) hkeeps (append_spec h) ⟨h.durable, subset_rfl⟩ happend
  obtain ⟨hidle, hstored⟩ :=
    Meets.run (fun _ => rfl) hstays
      (openStore_spec (hdurable.within hleft.within) (resting_settled left) hcapacity)
      (fun _ hcontent => hcontent) hopen
  replace hidle : Idle encoding limit history opened := hidle
  rw [hidle.streams, h.streams, hstored (opened.directory.shown_mem _)]
  exact hsettled _ (hwithin (hleft _))

/-- Between two operations of a store that is always opened with one capacity, every acknowledged
append is the head of its stream or below it, the blob of every head can be read and has its digest,
and the bytes are counted without exceeding the capacity.  The snapshots acknowledged in one stream
are the same or have growing versions.  A crash in the middle of an append changes no other stream
whose head is durable. -/
theorem store_is_crash_consistent {capacity : Nat} {replica : Replica}
    (h : ReplicaReachable encoding (some capacity) replica) (hidle : replica.phase = .idle) :
    (∀ stream bytes reply, (.append stream bytes, .ok reply) ∈ replica.history →
      ∃ snapshot head latest, stream.snapshot bytes = .ok snapshot ∧
        replica.machine.memory.streams.lookup stream.streamPrefix = some head ∧
        head.stream = stream ∧ head.latest = some latest ∧ AtOrBelow snapshot latest) ∧
    (∀ streamPrefix head, replica.machine.memory.streams.lookup streamPrefix = some head →
      ∃ latest metadata, ∃ blob : Blob, head.latest = some latest ∧
        replica.machine.memory.snapshots.lookup latest.object = some metadata ∧
        replica.machine.directory.shown (.blob latest.object) = some blob ∧
        encoding.size blob.bytes = metadata.size ∧ latest.verify blob.bytes = .ok ()) ∧
    (∀ later earlier stream bytes bytes' reply reply',
      replica.history = later ++ (.append stream bytes', .ok reply') :: earlier →
      (.append stream bytes, .ok reply) ∈ earlier →
        ∃ snapshot snapshot', stream.snapshot bytes = .ok snapshot ∧
          stream.snapshot bytes' = .ok snapshot' ∧
          (snapshot = snapshot' ∨ snapshot.stateVersion < snapshot'.stateVersion)) ∧
    (∀ stream bytes rest crashed left opened,
      Relation.ReflTransGen (Prog.Step Performs) (append encoding stream bytes, replica.machine)
        (rest, crashed) →
      crashed.directory.Survives left →
      Relation.ReflTransGen (Prog.Step Performs)
        (openStore encoding capacity, { crashed with directory := Directory.settled left })
        (done (), opened) →
      ∀ streamPrefix, streamPrefix ≠ stream.streamPrefix →
        replica.machine.directory.IsSettled (.stream streamPrefix) →
        opened.memory.streams.lookup streamPrefix =
          replica.machine.memory.streams.lookup streamPrefix) ∧
    replica.machine.memory.used = weight Metadata.size replica.machine.memory.snapshots ∧
    replica.machine.memory.used ≤ capacity ∧
    (∀ object metadata, replica.machine.memory.snapshots.lookup object = some metadata →
      metadata.size ≤ replica.machine.memory.used) := by
  have hsound := Replica.sound_of_reachable h
  have hphase := hsound.phase
  rw [hidle] at hphase
  replace hphase : Idle encoding (some capacity) replica.history replica.machine := hphase
  refine ⟨?_, ?_, ?_, ?_, hphase.used, (hphase.fits capacity rfl).2, ?_⟩
  · intro stream bytes reply hmem
    obtain ⟨snapshot, hsnapshot⟩ := hsound.order.accepted stream bytes reply hmem
    obtain ⟨head, latest, hhead, hstream, hlatest, hbelow⟩ :=
      hphase.durable.acked stream snapshot ⟨bytes, reply, hmem, hsnapshot⟩ _
        (replica.machine.directory.shown_mem _)
    exact ⟨snapshot, head, latest, hsnapshot, (hphase.streams _).trans hhead, hstream, hlatest,
      hbelow⟩
  · intro streamPrefix head hlookup
    rw [hphase.streams] at hlookup
    obtain ⟨-, latest, hlatest, -, blob, hdigest, hkept⟩ :=
      hphase.durable.stream _ head (hlookup ▸ replica.machine.directory.shown_mem _)
    have hstored := replica.machine.directory.shown_mem (.blob latest.object)
    have hshown := hkept _ hstored
    rw [hshown] at hstored
    refine ⟨latest, blob.metadata, blob, hlatest, ?_, hshown,
      (hphase.durable.blob _ blob hstored).2, ?_⟩
    · rw [hphase.snapshots, hshown]
      rfl
    · simp [SnapshotRef.verify, hdigest]
  · intro later earlier stream bytes bytes' reply reply' hhistory hmem
    have horder := hsound.order.follows
    rw [hhistory] at horder
    have htail := (List.pairwise_append.mp horder).2.1
    exact ((List.pairwise_cons.mp htail).1 _ hmem).append_append rfl rfl
  · intro stream bytes rest crashed left opened happend hleft hopen streamPrefix hother hsettled
    refine head_after_crash hphase happend hleft ?_ hopen hother hsettled
    rintro same ⟨⟩
    rfl
  · intro object metadata hlookup
    rw [hphase.used]
    exact size_le_weight hlookup

/-! ## Runs on given answers -/

/-- A file system in which syncs fail in some states and everything else succeeds.  It is not asked
to list a directory. -/
def serving (fails : Machine → Bool) : (op : StoreOp) → Machine → op.Ans × Machine
  | .readDir, machine => (.error "not listed", machine)
  | .readFile name, machine =>
      match machine.directory.shown name with
      | some content => (.ok content, machine)
      | none => (.error "no such file", machine)
  | .persist name content, machine =>
      (.ok (), { machine with directory := machine.directory.change name (some content) })
  | .persistNoclobber name content, machine =>
      match machine.directory.shown name with
      | none => (.ok (), { machine with directory := machine.directory.change name (some content) })
      | some _ => (.error "file exists", machine)
  | .removeFile name, machine =>
      (.ok (), { machine with directory := machine.directory.change name none })
  | .syncDirectory, machine =>
      if fails machine then (.error "input/output error", machine)
      else (.ok (), { machine with directory := machine.directory.sync })
  | .load, machine => (machine.memory, machine)
  | .store state, machine => ((), { machine with memory := state })
  | .shuffleObjects objects, machine => (objects, machine)
  | .shuffleHeads heads, machine => (heads, machine)
  | .createDirectory, machine => (.ok (), machine)
  | .tryLock, machine => (.ok (), machine)
  | .writePending, machine => (.ok (), machine)
  | .removePending, machine => (.ok (), machine)

theorem performs_serving (fails : Machine → Bool) (op : StoreOp) (machine : Machine) :
    Performs op machine (serving fails op machine).1 (serving fails op machine).2 := by
  cases op with
  | readFile name =>
      simp only [serving]
      split
      next content hshown => exact ⟨rfl, hshown⟩
      next => rfl
  | persistNoclobber name content =>
      simp only [serving]
      split
      next hshown => exact ⟨hshown, rfl⟩
      next => rfl
  | syncDirectory =>
      simp only [serving]
      split
      · rfl
      · rfl
  | load => exact ⟨rfl, rfl⟩
  | shuffleObjects objects => exact ⟨.refl _, rfl⟩
  | shuffleHeads heads => exact ⟨.refl _, rfl⟩
  | createDirectory | tryLock | readDir | writePending | persist name content | removeFile name
  | removePending | store state => rfl

/-- The calls of an opening after the directory was listed. -/
def restoreFrom (encoding : Encoding) (entries : List DirEntry) : StoreProg Unit := do
  Prog.forEach (restoreEntry encoding) entries
  let state ← load
  let heads ← shuffleHeads (state.streams.entries.map Sigma.snd)
  Prog.forEach pruneStream heads

theorem openStore_runs {capacity : Nat} {entries : List DirEntry} (hcapacity : 0 < capacity)
    (hlists : Lists machine.directory entries) :
    Relation.ReflTransGen (Prog.Step Performs) (openStore encoding capacity, machine)
      (restoreFrom encoding entries,
        { machine with
          memory := { capacity, used := 0, snapshots := ∅, streams := ∅, sessions := ∅ } }) := by
  have hstart : openStore encoding capacity =
      (createDirectory >>= fun _ => tryLock >>= fun _ =>
        store { capacity, used := 0, snapshots := ∅, streams := ∅, sessions := ∅ } >>= fun _ =>
          restore encoding) := by
    simp [openStore, Prog.ensure, hcapacity]
  rw [hstart]
  refine .head (Prog.Step.call (show Performs .createDirectory machine (.ok ()) machine from rfl)) ?_
  refine .head (Prog.Step.call (show Performs .tryLock machine (.ok ()) machine from rfl)) ?_
  refine .head (Prog.Step.call (show Performs (.store _) machine () _ from rfl)) ?_
  exact .head (Prog.Step.call (show Performs .readDir _ (.ok entries) _ from ⟨rfl, hlists⟩)) .refl

/-- A store is opened in a directory with these entries. -/
theorem ReplicaReachable.openStore {capacity : Nat} {entries : List DirEntry} {machine' : Machine}
    (h : ReplicaReachable encoding limit ⟨machine, .closed, history⟩) (count : Nat)
    (hcapacity : 0 < capacity) (hlimit : ∀ same ∈ limit, capacity = same)
    (hlists : Lists machine.directory entries)
    (hruns : Prog.advance (serving fun _ => false) count
      (restoreFrom encoding entries,
        { machine with
          memory := { capacity, used := 0, snapshots := ∅, streams := ∅, sessions := ∅ } }) =
      (done (), machine')) :
    ReplicaReachable encoding limit ⟨machine', .idle, history⟩ := by
  obtain ⟨memory, hreach⟩ := h
  have hcalls : Relation.ReflTransGen (Prog.Step Performs) (Replication.openStore encoding capacity,
      machine) (done (), machine') :=
    (openStore_runs hcapacity hlists).trans
      (hruns ▸ Prog.advance_steps (performs_serving fun _ => false) count _)
  have hopening := hcalls.lift
    (fun running : StoreProg Unit × Machine => Replica.mk running.2 (.opening running.1) history)
    fun _ _ hstep => (.openingCall history hstep : ReplicaStep encoding limit _ _)
  exact ⟨memory, ((hreach.tail (.startOpening _ _ capacity hlimit)).trans hopening).tail
    (.opened _ _)⟩

/-- A request is answered. -/
theorem ReplicaReachable.request {request : Request} {result : Except Error Reply}
    {machine' : Machine} (h : ReplicaReachable encoding limit ⟨machine, .idle, history⟩)
    (fails : Machine → Bool) (count : Nat)
    (hruns : Prog.advance (serving fails) count (request.program encoding, machine) =
      (lift result, machine')) :
    ReplicaReachable encoding limit ⟨machine', .idle, (request, result) :: history⟩ := by
  obtain ⟨memory, hreach⟩ := h
  have hcalls : Relation.ReflTransGen (Prog.Step Performs) (request.program encoding, machine)
      (lift result, machine') :=
    hruns ▸ Prog.advance_steps (performs_serving fails) count _
  have hrunning := hcalls.lift
    (fun running : StoreProg Reply × Machine =>
      Replica.mk running.2 (.running request running.1) history)
    fun _ _ hstep => (.call history request hstep : ReplicaStep encoding limit _ _)
  exact ⟨memory, ((hreach.tail (.begin _ _ request)).trans hrunning).tail (.answer _ _ _ _)⟩

/-! ## Two runs -/

/-- The order of prefixes by their parts. -/
def prefixKey (streamPrefix : StreamPrefix) : String ×ₗ String ×ₗ String ×ₗ Nat :=
  toLex (streamPrefix.actor.projectId,
    toLex (streamPrefix.actor.actorName, toLex (streamPrefix.actor.actorId, streamPrefix.epoch)))

/-- An encoding in which every snapshot has one byte. -/
def plainEncoding : Encoding where
  size _ := 1
  before first second := decide (prefixKey first ≤ prefixKey second)
  before_trans _ _ _ hfirst hsecond :=
    decide_eq_true (le_trans (of_decide_eq_true hfirst) (of_decide_eq_true hsecond))
  before_total first second := by
    rcases le_total (prefixKey first) (prefixKey second) with h | h
    · simp [h]
    · simp [h]
  before_antisymm first second hfirst hsecond := by
    have hkey := le_antisymm (of_decide_eq_true hfirst) (of_decide_eq_true hsecond)
    obtain ⟨⟨project, name, id⟩, epoch⟩ := first
    obtain ⟨⟨project', name', id'⟩, epoch'⟩ := second
    simpa [prefixKey, and_assoc] using hkey

/-- A session. -/
def oneSession : HostSession := { host := "host", session := "one" }

/-- The stream of one actor in the session. -/
def streamOf (actorId : String) : ReplicaStream where
  session := oneSession
  streamPrefix := { actor := { projectId := "p", actorName := "Counter", actorId }, epoch := 1 }
  ownerEpoch := 1
  baseVersion := 0

/-- A snapshot of a version. -/
def versionSnapshot (stateVersion : Nat) : StateSnapshot where
  attribution := none
  stateVersion := stateVersion
  ownerEpoch := 1
  requestId := "r"
  state := .object []
  result := .null

/-- The memory before a store is opened. -/
def noMemory : StoreState where
  capacity := 0
  used := 0
  snapshots := ∅
  streams := ∅
  sessions := ∅

theorem lists_empty : Lists (Directory.empty : Files) [] where
  mem _ := by simp [Directory.empty]
  once _ := by simp

/-- An open store without files. -/
theorem reachable_open (limit : Option Nat) (hlimit : ∀ same ∈ limit, 2 = same) :
    ReplicaReachable plainEncoding limit
      ⟨⟨Directory.empty, { noMemory with capacity := 2 }⟩, .idle, []⟩ := by
  have hclosed : ReplicaReachable plainEncoding limit ⟨⟨Directory.empty, noMemory⟩, .closed, []⟩ :=
    ⟨noMemory, .refl⟩
  exact hclosed.openStore 10 (by decide) hlimit lists_empty rfl

/-- The record of the session after it was initialized. -/
def openRecord : SessionHead where
  session := oneSession
  initialized := true
  sealed := false
  streams := []

/-- A version of a stream. -/
def versionRef (stream : ReplicaStream) (version : Nat) : SnapshotRef :=
  SnapshotRef.new (stream.object version) (versionSnapshot version) (versionSnapshot version)

/-- The store with an initialized session. -/
def initializedMachine : Machine where
  directory := (Directory.empty.change (.session oneSession) (some openRecord)).sync
  memory :=
    { noMemory with
      capacity := 2
      sessions := (∅ : AList fun _ : HostSession => SessionHead).insert oneSession openRecord }

theorem reachable_initialized (limit : Option Nat) (hlimit : ∀ same ∈ limit, 2 = same) :
    ReplicaReachable plainEncoding limit
      ⟨initializedMachine, .idle, [(.initializeSession oneSession, .ok .done)]⟩ :=
  (reachable_open limit hlimit).request (fun _ => false) 10 rfl

/-- The store with one snapshot of the stream. -/
def appendedMachine : Machine where
  directory :=
    ((initializedMachine.directory.change (.blob ((streamOf "a").object 1))
      (some ⟨⟨(streamOf "a").object 1, 1⟩, versionSnapshot 1⟩)).sync.change
        (.stream (streamOf "a").streamPrefix)
        (some ⟨streamOf "a", some (versionRef (streamOf "a") 1)⟩)).sync
  memory :=
    { initializedMachine.memory with
      used := 1
      snapshots := (∅ : AList fun _ : SnapshotObject => Metadata).insert ((streamOf "a").object 1)
        ⟨(streamOf "a").object 1, 1⟩
      streams := (∅ : AList fun _ : StreamPrefix => StreamHead).insert (streamOf "a").streamPrefix
        ⟨streamOf "a", some (versionRef (streamOf "a") 1)⟩ }

theorem reachable_appended (limit : Option Nat) (hlimit : ∀ same ∈ limit, 2 = same) :
    ReplicaReachable plainEncoding limit
      ⟨appendedMachine, .idle, [(.append (streamOf "a") (versionSnapshot 1), .ok .done),
        (.initializeSession oneSession, .ok .done)]⟩ :=
  (reachable_initialized limit hlimit).request (fun _ => false) 20 rfl

/-- The heads that the seal of the session returns. -/
def sealedHead : SessionHead :=
  { openRecord with
    sealed := true
    streams := (appendedMachine.memory.headsOf oneSession).mergeSort fun first second =>
      plainEncoding.before first.stream.streamPrefix second.stream.streamPrefix }

/-- The store after the seal. -/
def sealedMachine : Machine where
  directory :=
    (appendedMachine.directory.change (.session oneSession)
      (some { openRecord with sealed := true })).sync
  memory :=
    { appendedMachine.memory with
      sessions := appendedMachine.memory.sessions.insert oneSession
        { openRecord with sealed := true } }

/-- A session is sealed after an append; the next append is refused. -/
theorem seal_session_is_permanent_of_append :
    ∃ replica, ReplicaReachable plainEncoding none replica ∧
      replica.history =
        [(.append (streamOf "a") (versionSnapshot 2), .error "replica session is absent or sealed"),
          (.sealSession oneSession, .ok (.sessionHead sealedHead)),
          (.append (streamOf "a") (versionSnapshot 1), .ok .done),
          (.initializeSession oneSession, .ok .done)] ∧
      ∃ head ∈ sealedHead.streams, head.stream = streamOf "a" ∧
        ∃ latest, head.latest = some latest ∧ 1 ≤ latest.stateVersion := by
  have hsealed : ReplicaReachable plainEncoding none ⟨sealedMachine, .idle,
      [(.sealSession oneSession, .ok (.sessionHead sealedHead)),
        (.append (streamOf "a") (versionSnapshot 1), .ok .done),
        (.initializeSession oneSession, .ok .done)]⟩ :=
    (reachable_appended none nofun).request (fun _ => false) 20 rfl
  have hrefused : ReplicaReachable plainEncoding none ⟨sealedMachine, .idle,
      [(.append (streamOf "a") (versionSnapshot 2), .error "replica session is absent or sealed"),
        (.sealSession oneSession, .ok (.sessionHead sealedHead)),
        (.append (streamOf "a") (versionSnapshot 1), .ok .done),
        (.initializeSession oneSession, .ok .done)]⟩ :=
    hsealed.request (fun _ => false) 20 rfl
  have hsplit : [(.append (streamOf "a") (versionSnapshot 2),
        .error "replica session is absent or sealed"),
      (.sealSession oneSession, .ok (.sessionHead sealedHead)),
      (.append (streamOf "a") (versionSnapshot 1), .ok .done),
      (.initializeSession oneSession, .ok .done)] =
      [((.append (streamOf "a") (versionSnapshot 2),
        .error "replica session is absent or sealed") : Event)] ++
      (.sealSession oneSession, .ok (.sessionHead sealedHead)) ::
        [(.append (streamOf "a") (versionSnapshot 1), .ok .done),
          (.initializeSession oneSession, .ok .done)] := rfl
  have hcut := (seal_session_is_permanent hrefused hsplit).1
  exact ⟨_, hrefused, rfl, hcut (streamOf "a") (versionSnapshot 1) .done rfl (by simp)⟩

/-- The store between two operations after one append. -/
theorem store_is_crash_consistent_of_append :
    ∃ replica, ReplicaReachable plainEncoding (some 2) replica ∧ replica.phase = .idle ∧
      (.append (streamOf "a") (versionSnapshot 1), .ok .done) ∈ replica.history ∧
      replica.machine.memory.used ≤ 2 := by
  have hreachable := reachable_appended (some 2) (by rintro _ ⟨⟩; rfl)
  exact ⟨_, hreachable, rfl, by simp,
    (store_is_crash_consistent hreachable rfl).2.2.2.2.2.1⟩

/-- The second head of the stream. -/
def secondHead : StreamHead := ⟨streamOf "a", some (versionRef (streamOf "a") 2)⟩

/-- The store after an append whose last sync failed. -/
def unsyncedMachine : Machine where
  directory :=
    (appendedMachine.directory.change (.blob ((streamOf "a").object 2))
      (some ⟨⟨(streamOf "a").object 2, 1⟩, versionSnapshot 2⟩)).sync.change
        (.stream (streamOf "a").streamPrefix) (some secondHead)
  memory :=
    { appendedMachine.memory with
      used := 2
      snapshots := appendedMachine.memory.snapshots.insert ((streamOf "a").object 2)
        ⟨(streamOf "a").object 2, 1⟩
      streams := appendedMachine.memory.streams.insert (streamOf "a").streamPrefix secondHead }

/-- A sync fails once the second head was written. -/
def failsOnSecond (machine : Machine) : Bool :=
  machine.memory.streams.lookup (streamOf "a").streamPrefix = some secondHead

theorem reachable_unsynced :
    ReplicaReachable plainEncoding (some 2) ⟨unsyncedMachine, .idle,
      [(.append (streamOf "a") (versionSnapshot 2), .error "input/output error"),
        (.append (streamOf "a") (versionSnapshot 1), .ok .done),
        (.initializeSession oneSession, .ok .done)]⟩ :=
  (reachable_appended (some 2) (by rintro _ ⟨⟩; rfl)).request failsOnSecond 20 rfl

/-- What the crash leaves: the second head is lost. -/
def lostHead : (name : FileName) → Option name.Content :=
  Function.update unsyncedMachine.directory.shown (.stream (streamOf "a").streamPrefix)
    (some ⟨streamOf "a", some (versionRef (streamOf "a") 1)⟩)

/-- The files that the crash leaves. -/
def leftEntries : List DirEntry :=
  [.file (.session oneSession), .file (.stream (streamOf "a").streamPrefix),
    .file (.blob ((streamOf "a").object 1)), .file (.blob ((streamOf "a").object 2))]

theorem lists_lostHead : Lists (Directory.settled lostHead) leftEntries where
  mem name := by
    cases name with
    | session session =>
        by_cases hsession : session = oneSession
        · subst hsession
          exact iff_of_true (by decide) rfl
        · simp [leftEntries, lostHead, unsyncedMachine, appendedMachine, initializedMachine,
            Directory.change, Directory.sync, Directory.settled, Directory.empty, hsession]
    | stream streamPrefix =>
        by_cases hpre : streamPrefix = (streamOf "a").streamPrefix
        · subst hpre
          exact iff_of_true (by decide) rfl
        · simp [leftEntries, lostHead, unsyncedMachine, appendedMachine, initializedMachine,
            Directory.change, Directory.sync, Directory.settled, Directory.empty, hpre]
    | blob object =>
        by_cases hfirst : object = (streamOf "a").object 1
        · subst hfirst
          exact iff_of_true (by decide) rfl
        · by_cases hsecond : object = (streamOf "a").object 2
          · subst hsecond
            exact iff_of_true (by decide) rfl
          · simp [leftEntries, lostHead, unsyncedMachine, appendedMachine, initializedMachine,
              Directory.change, Directory.sync, Directory.settled, Directory.empty, hfirst, hsecond]
  once name := by
    have hnodup : leftEntries.Nodup := by decide
    exact List.nodup_iff_count_le_one.mp hnodup _

/-- The sync of a new head of one stream fails, and a crash during an append to another stream takes
the new head away. -/
theorem crash_changes_another_stream :
    ∃ replica stream bytes rest crashed left opened streamPrefix,
      ReplicaReachable plainEncoding (some 2) replica ∧ replica.phase = .idle ∧
      Relation.ReflTransGen (Prog.Step Performs)
        (append plainEncoding stream bytes, replica.machine) (rest, crashed) ∧
      crashed.directory.Survives left ∧
      Relation.ReflTransGen (Prog.Step Performs)
        (openStore plainEncoding 2, { crashed with directory := Directory.settled left })
        (done (), opened) ∧
      streamPrefix ≠ stream.streamPrefix ∧
      opened.memory.streams.lookup streamPrefix ≠
        replica.machine.memory.streams.lookup streamPrefix := by
  have happend := Prog.advance_steps (performs_serving fun _ => false) 1
    (append plainEncoding (streamOf "b") (versionSnapshot 1), unsyncedMachine)
  have hlisted : Relation.ReflTransGen (Prog.Step Performs)
      (openStore plainEncoding 2, ⟨Directory.settled lostHead, unsyncedMachine.memory⟩) _ :=
    openStore_runs (by decide) lists_lostHead
  have hopen := hlisted.trans (Prog.advance_steps (performs_serving fun _ => false) 60 _)
  refine ⟨_, streamOf "b", versionSnapshot 1, _, unsyncedMachine, lostHead, _,
    (streamOf "a").streamPrefix, reachable_unsynced, rfl, happend, ?_, hopen, by decide, ?_⟩
  · exact Directory.survives_update (Or.inr rfl)
  · decide

end Replication
end DurableActors
