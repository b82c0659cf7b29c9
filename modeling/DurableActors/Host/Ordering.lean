import DurableActors.Host.Journal

/-!
# Interleaved outcomes are committed in sequence

An actor that runs invocations interleaved numbers its outcomes.  The admission
mailbox holds an outcome back until every earlier one is committed, and gives up
as soon as one commit fails, because the states of later outcomes build on it.

Main results:

- Theorem {lit}`commits_in_order`: in every run of the admission loop the commits
  begin with the numbers 1, 2, 3 and so on, each snapshot of an interleaved outcome
  is written once and inside its own commit, a successful answer to such an
  outcome comes after all commits up to its own, and nothing is written or
  answered with success after a commit failed.
-/

namespace DurableActors
namespace Host

open Effects

/-! ## The property -/

/-- The mark that begins the commit of an outcome. -/
def beginsCommit (request : ActorRequest) (outcome : ActorInterleavedOutcome) : Entry :=
  ⟨.mark (.commitBegins request outcome), ()⟩

/-- The mark that ends the commit with a sequence number. -/
def endsCommit (sequence : Nat) (succeeded : Bool) : Entry :=
  ⟨.mark (.commitEnds sequence succeeded), ()⟩

/-- The arrival of an interleaved outcome. -/
def arrival (id : Nat) (request : ActorRequest) (outcome : ActorInterleavedOutcome) : Entry :=
  ⟨.select, Wakeup.executed id request (.ok (.interleaved outcome))⟩

/-- Whether a snapshot records an interleaved commit. -/
def isInterleaved (bytes : StateSnapshot) : Bool :=
  bytes.attribution.any StateAttribution.interleaved

/-- Whether the entry is a mark. -/
def isMark : Entry → Bool
  | ⟨.mark _, _⟩ => true
  | _ => false

/-- Whether the entry is a write, successful or not. -/
def isWrite : Entry → Bool
  | ⟨.writeSnapshot _ _, _⟩ => true
  | _ => false

/-- Whether the entry is an answer that reports success. -/
def isSuccess : Entry → Bool
  | ⟨.answer _ (.ok (.completed _ _)), _⟩ => true
  | _ => false

/-- The sequence number of a commit that begins. -/
def begins : Entry → Option Nat
  | ⟨.mark (.commitBegins _ outcome), _⟩ => some outcome.sequence
  | _ => none

/-- The state in the latest snapshot that the task wrote with success or was given by storage. -/
def durableState : List Entry → Option Value
  | [] => none
  | ⟨.writeSnapshot _ bytes, .ok _⟩ :: _ => some bytes.state
  | ⟨.loadActorState _ _, .ok (_, loaded)⟩ :: _ => loaded.map StateSnapshot.state
  | ⟨.hydrate _ state, _⟩ :: _ => state
  | _ :: rest => durableState rest

/-- Interleaved outcomes are committed in sequence, and a failed commit is the last one.  The
latest entry of a run stands first. -/
structure CommitsInOrder (trace : List Entry) : Prop where
  /-- Commits begin with the numbers 1, 2, 3 and so on. -/
  sequence : ∃ n, trace.filterMap begins = (List.range' 1 n).reverse
  /-- A commit is that of an outcome that arrived. -/
  arrived : ∀ later request outcome earlier,
    trace = later ++ beginsCommit request outcome :: earlier →
    ∃ id, arrival id request outcome ∈ earlier
  /-- An interleaved snapshot is written inside the commit of its outcome, and only once. -/
  written : ∀ later ticket bytes answer earlier,
    trace = later ++ ⟨.writeSnapshot ticket bytes, answer⟩ :: earlier → isInterleaved bytes →
    ∃ request outcome since before, earlier = since ++ beginsCommit request outcome :: before ∧
      (∀ entry ∈ since, isMark entry = false ∧ isWrite entry = false) ∧
      bytes.requestId = request.operation.invocation.requestId ∧
      bytes.state = outcome.state ∧ bytes.result = outcome.result
  /-- A commit that ends with success left the outcome's state durable. -/
  durable : ∀ later sequence earlier, trace = later ++ endsCommit sequence true :: earlier →
    ∃ request outcome, beginsCommit request outcome ∈ earlier ∧ outcome.sequence = sequence ∧
      durableState earlier = some outcome.state
  /-- An interleaved outcome is answered with success after all commits up to its own. -/
  answered : ∀ later request result effects sent earlier,
    trace = later ++ ⟨.answer request (.ok (.completed result effects)), sent⟩ :: earlier →
    ∀ id outcome, arrival id request outcome ∈ earlier →
    ∀ sequence, 1 ≤ sequence → sequence ≤ outcome.sequence → endsCommit sequence true ∈ earlier
  /-- After a failed commit nothing is written and nothing is answered with success. -/
  stopped : ∀ later sequence earlier, trace = later ++ endsCommit sequence false :: earlier →
    ∀ entry ∈ later, isWrite entry = false ∧ isSuccess entry = false

/-! ## The property along a run -/

/-- No commit has failed. -/
def NoFailure (trace : List Entry) : Prop := ∀ sequence, endsCommit sequence false ∉ trace

/-- The commit of an outcome has begun and nothing was written since. -/
def Committing (request : ActorRequest) (outcome : ActorInterleavedOutcome)
    (trace : List Entry) : Prop :=
  ∃ since before, trace = since ++ beginsCommit request outcome :: before ∧
    ∀ entry ∈ since, isMark entry = false ∧ isWrite entry = false

/-- What an entry needs so that the commits stay in order. -/
def Permitted (trace : List Entry) : Entry → Prop
  | ⟨.mark (.commitBegins request outcome), _⟩ =>
      (∃ n, trace.filterMap begins = (List.range' 1 n).reverse ∧ outcome.sequence = n + 1) ∧
        ∃ id, arrival id request outcome ∈ trace
  | ⟨.mark (.commitEnds sequence true), _⟩ =>
      ∃ request outcome, beginsCommit request outcome ∈ trace ∧ outcome.sequence = sequence ∧
        durableState trace = some outcome.state
  | ⟨.writeSnapshot _ bytes, _⟩ =>
      NoFailure trace ∧ (isInterleaved bytes → ∃ request outcome,
        Committing request outcome trace ∧
          bytes.requestId = request.operation.invocation.requestId ∧
          bytes.state = outcome.state ∧ bytes.result = outcome.result)
  | ⟨.answer request (.ok (.completed _ _)), _⟩ =>
      NoFailure trace ∧ ∀ id outcome, arrival id request outcome ∈ trace →
        ∀ sequence, 1 ≤ sequence → sequence ≤ outcome.sequence → endsCommit sequence true ∈ trace
  | _ => True

theorem commitsInOrder_nil : CommitsInOrder [] where
  sequence := ⟨0, rfl⟩
  arrived := by simp
  written := by simp
  durable := by simp
  answered := by simp
  stopped := by simp

/-- A split of a longer run splits off the latest entry or lies in the run before it. -/
private theorem cons_eq_append_cons {entry first : Entry} {trace later earlier : List Entry}
    (h : entry :: trace = later ++ first :: earlier) :
    (later = [] ∧ entry = first ∧ trace = earlier) ∨
      ∃ rest, later = entry :: rest ∧ trace = rest ++ first :: earlier := by
  cases later with
  | nil => exact .inl ⟨rfl, List.cons.inj h⟩
  | cons e rest =>
      obtain ⟨rfl, htrace⟩ := List.cons.inj h
      exact .inr ⟨rest, rfl, htrace⟩

theorem CommitsInOrder.cons {trace : List Entry} (h : CommitsInOrder trace) {entry : Entry}
    (hentry : Permitted trace entry) : CommitsInOrder (entry :: trace) where
  sequence := by
    cases hbegins : begins entry with
    | none =>
        rw [List.filterMap_cons_none hbegins]
        exact h.sequence
    | some sequence =>
        rw [List.filterMap_cons_some hbegins]
        unfold begins at hbegins
        split at hbegins
        · cases hbegins
          obtain ⟨⟨n, hn, hsequence⟩, -⟩ := hentry
          refine ⟨n + 1, ?_⟩
          rw [hn, hsequence, List.range'_concat, List.reverse_append]
          simp [Nat.add_comm]
        · cases hbegins
  arrived := by
    intro later request outcome earlier htrace
    obtain ⟨-, rfl, rfl⟩ | ⟨rest, -, htrace⟩ := cons_eq_append_cons htrace
    · exact hentry.2
    · exact h.arrived rest request outcome earlier htrace
  written := by
    intro later ticket bytes answer earlier htrace hinterleaved
    obtain ⟨-, rfl, rfl⟩ | ⟨rest, -, htrace⟩ := cons_eq_append_cons htrace
    · obtain ⟨request, outcome, ⟨since, before, hsplit, hsince⟩, hbytes⟩ := hentry.2 hinterleaved
      exact ⟨request, outcome, since, before, hsplit, hsince, hbytes⟩
    · exact h.written rest ticket bytes answer earlier htrace hinterleaved
  durable := by
    intro later sequence earlier htrace
    obtain ⟨-, rfl, rfl⟩ | ⟨rest, -, htrace⟩ := cons_eq_append_cons htrace
    · exact hentry
    · exact h.durable rest sequence earlier htrace
  answered := by
    intro later request result effects sent earlier htrace
    obtain ⟨-, rfl, rfl⟩ | ⟨rest, -, htrace⟩ := cons_eq_append_cons htrace
    · exact hentry.2
    · exact h.answered rest request result effects sent earlier htrace
  stopped := by
    intro later sequence earlier htrace
    obtain ⟨rfl, -, -⟩ | ⟨rest, rfl, hrest⟩ := cons_eq_append_cons htrace
    · simp
    · have hfailed : ¬ NoFailure trace := fun hclean => hclean sequence (by simp [hrest])
      intro other hother
      rcases List.mem_cons.mp hother with rfl | hmem
      · constructor
        · cases hwrite : isWrite other with
          | false => rfl
          | true =>
              unfold isWrite at hwrite
              split at hwrite
              · exact absurd hentry.1 hfailed
              · cases hwrite
        · cases hsuccess : isSuccess other with
          | false => rfl
          | true =>
              unfold isSuccess at hsuccess
              split at hsuccess
              · exact absurd hentry.1 hfailed
              · cases hsuccess
      · exact h.stopped rest sequence earlier hrest other hmem

/-! ## What a runtime function leaves unchanged -/

theorem noFailure_journal {trace : List Entry} : NoFailure (journal trace) ↔ NoFailure trace :=
  forall_congr' fun _ => not_congr (mem_journal rfl)

theorem Follows.noFailure {start world : World} (h : Follows start world)
    (hclean : NoFailure start.trace) : NoFailure world.trace := by
  rw [← noFailure_journal, h.journal_eq, noFailure_journal]
  exact hclean

/-- The cached state shows the durable one.  A commit that is left pending belongs to no
interleaved outcome, and it is durable only when its version cannot be followed by another. -/
def Agrees (cached : CachedActorState) (trace : List Entry) : Prop :=
  match cached.pending with
  | none => durableState trace = cached.state
  | some pending => pending.state = pending.snapshot.state ∧
      isInterleaved pending.snapshot = false ∧
      (pending.durable → ¬ pending.snapshot.stateVersion + 1 < u64Bound)

theorem agrees_of_pending_eq_none {cached : CachedActorState} {trace : List Entry}
    (h : cached.pending = none) : Agrees cached trace ↔ durableState trace = cached.state := by
  simp [Agrees, h]

/-- The task's cached state shows the durable one. -/
def Settled (world : World) : Prop :=
  ∀ cached, world.task.cachedState = some cached → Agrees cached world.trace

/-- The task's cached state has no commit in flight. -/
def Clear (world : World) : Prop :=
  ∀ cached, world.task.cachedState = some cached → cached.pending = none

theorem clear_of_none {world : World} (h : world.task.cachedState = none) : Clear world := by
  intro cached hcached
  rw [h] at hcached
  cases hcached

theorem settled_of_none {world : World} (h : world.task.cachedState = none) : Settled world := by
  intro cached hcached
  rw [h] at hcached
  cases hcached

/-- A runtime function has ended, with or without success. -/
def Steady (start world : World) : Prop := Follows start world ∧ Settled world

/-! ## Calls that leave the durable state alone -/

theorem Pause.durableState_eq {start world : World} (h : Pause start world) :
    durableState world.trace = durableState start.trace := by
  refine h.keeps (fun trace => durableState trace = durableState start.trace) ?_ rfl
  rintro ⟨op, answer⟩ trace hop htrace
  cases op <;> first | exact htrace | cases hop

theorem Pause.committing {start world : World} (h : Pause start world) {request : ActorRequest}
    {outcome : ActorInterleavedOutcome} (hstart : Committing request outcome start.trace) :
    Committing request outcome world.trace := by
  refine h.keeps (Committing request outcome) ?_ hstart
  rintro ⟨op, answer⟩ trace hop ⟨since, before, rfl, hsince⟩
  refine ⟨⟨op, answer⟩ :: since, before, rfl, ?_⟩
  intro other hother
  rcases List.mem_cons.mp hother with rfl | hmem
  · cases op <;> first | exact ⟨rfl, rfl⟩ | cases hop
  · exact hsince other hmem

theorem Pause.agrees {start world : World} (h : Pause start world) {cached : CachedActorState}
    (hstart : Agrees cached start.trace) : Agrees cached world.trace := by
  unfold Agrees at hstart ⊢
  rw [h.durableState_eq]
  exact hstart

theorem Pause.settled {start world : World} (h : Pause start world) (hstart : Settled start) :
    Settled world := by
  intro cached hcached
  rw [h.task_eq] at hcached
  exact h.agrees (hstart cached hcached)

theorem Pause.clear {start world : World} (h : Pause start world) (hstart : Clear start) :
    Clear world := by
  intro cached hcached
  rw [h.task_eq] at hcached
  exact hstart cached hcached

theorem Pause.rests {start world : World} (h : Pause start world) (hstart : Settled start) :
    Steady start world ∧ (Clear start → Clear world) :=
  ⟨⟨h.follows, h.settled hstart⟩, h.clear⟩

section

variable {allowed : World → Entry → Prop} {α : Type} {world : World}

/-- Each call keeps the commits in order. -/
abbrev ordering (allowed : World → Entry → Prop) : Protocol services World :=
  keeping allowed fun world => CommitsInOrder world.trace

theorem meets_permitted {op : Op} (hop : op.isService) {next : Ans op → Run α}
    {post : Except Error α → World → Prop}
    (h : ∀ answer, allowed world ⟨op, answer⟩ → Permitted world.trace ⟨op, answer⟩ ∧
      (next answer).Meets (ordering allowed) post (world.log ⟨op, answer⟩)) :
    (Prog.call (I := services) op next).Meets (ordering allowed) post world := by
  refine (meets_service hop).mpr fun answer hallowed => ?_
  obtain ⟨hpermitted, hnext⟩ := h answer hallowed
  exact ⟨fun horder => horder.cons hpermitted, hnext⟩

theorem pausing_ordered {p : Run α} {post : α → Prop} (h : p.Within Pauses post) :
    p.Meets (ordering allowed) (Prog.always (Pause world) fun value _ => post value) world := by
  refine Prog.Within.meets_always h ?_ ?_ (Pause.refl world)
  · rintro a _ ha rfl
    exact ha
  · intro op w answer w' hop hw hserve
    have hservice : op.isService := by
      cases op <;> first | rfl | cases hop
    obtain ⟨-, rfl⟩ := (serve_service hservice).mp hserve
    refine ⟨fun horder => horder.cons ?_, hw.log hop⟩
    cases op <;> trivial

/-! ## Commits -/

/-- A runtime function holds the cached state itself. -/
def Held (start world : World) : Prop := Follows start world ∧ world.task.cachedState = none

theorem Held.steady {start world : World} (h : Held start world) : Steady start world :=
  ⟨h.1, settled_of_none h.2⟩

theorem Held.trans {first second third : World} (h : Held first second) (h' : Held second third) :
    Held first third :=
  ⟨h.1.trans h'.1, h'.2⟩

theorem Pause.held {start world : World} (h : Pause start world)
    (hstart : start.task.cachedState = none) : Held start world :=
  ⟨h.follows, by rw [h.task_eq]; exact hstart⟩

/-- The snapshot may be written: no commit failed, and if it is that of an interleaved outcome then
the commit of this outcome has begun. -/
def MayWrite (trace : List Entry) (requestId : String) (state result : Value)
    (interleaved : Bool) : Prop :=
  NoFailure trace ∧ (interleaved → ∃ request outcome, Committing request outcome trace ∧
    requestId = request.operation.invocation.requestId ∧ state = outcome.state ∧
    result = outcome.result)

theorem Pause.mayWrite {start w : World} (h : Pause start w) {requestId : String}
    {state result : Value} {interleaved : Bool}
    (hstart : MayWrite start.trace requestId state result interleaved) :
    MayWrite w.trace requestId state result interleaved := by
  refine ⟨h.follows.noFailure hstart.1, fun hinterleaved => ?_⟩
  obtain ⟨request, outcome, hcommitting, hbytes⟩ := hstart.2 hinterleaved
  exact ⟨request, outcome, h.committing hcommitting, hbytes⟩

theorem writeSnapshot_ordered (ticket : WritePlan) (bytes : StateSnapshot)
    (htask : world.task.cachedState = none)
    (h : MayWrite world.trace bytes.requestId bytes.state bytes.result (isInterleaved bytes)) :
    (writeSnapshot ticket bytes).Meets (ordering allowed)
      (Prog.always (Held world) fun _ w => durableState w.trace = some bytes.state) world := by
  refine meets_permitted rfl fun answer _ => ⟨h, Prog.meets_lift.mpr ?_⟩
  refine ⟨⟨(Follows.refl world).log rfl, htask⟩, ?_⟩
  cases answer with
  | error error => trivial
  | ok _ => exact rfl

/-- A pending commit that is durable is finished without any call. -/
theorem finishPendingCommit_of_durable (invocation : ActorInvocation) {cached : CachedActorState}
    {pending : PendingStateCommit} (hpending : cached.pending = some pending)
    (hdurable : pending.durable = true) :
    finishPendingCommit invocation cached =
      if pending.snapshot.stateVersion + 1 < u64Bound then
        .done (.ok (), cached.committed pending)
      else
        .done (.error "state version overflow", cached) := by
  have hsame : { pending with durable := true } = pending := by rw [← hdurable]
  have hcached : { cached with pending := some pending } = cached := by rw [← hpending]
  simp only [finishPendingCommit, hpending, pendingTicket, hdurable, writePending, if_true]
  split <;> simp_all [bind, pure]

/-- Finishing a pending commit leaves a cached state that shows the durable one. -/
theorem finishPendingCommit_ordered (invocation : ActorInvocation) {cached : CachedActorState}
    (htask : world.task.cachedState = none) (hclean : NoFailure world.trace)
    (hcached : Agrees cached world.trace) :
    (finishPendingCommit invocation cached).Meets (ordering allowed)
      (Prog.always (Held world) fun outcome w => Agrees outcome.2 w.trace ∧
        (outcome.1 = .ok () ∨ cached.pending = none → outcome.2.pending = none)) world := by
  cases hpending : cached.pending with
  | none =>
      rw [finishPendingCommit, hpending]
      exact ⟨⟨Follows.refl world, htask⟩, hcached, fun _ => hpending⟩
  | some pending =>
      have hagrees := hcached
      simp only [Agrees, hpending] at hagrees
      obtain ⟨hstate, hserial, hoverflow⟩ := hagrees
      cases hdurable : pending.durable with
      | true =>
          rw [finishPendingCommit_of_durable invocation hpending hdurable,
            if_neg (hoverflow hdurable)]
          exact ⟨⟨Follows.refl world, htask⟩, hcached, by simp [hpending]⟩
      | false =>
          rw [finishPendingCommit, hpending]
          have hkept : ∀ ticket trace,
              Agrees { cached with pending := some { pending with ticket } } trace :=
            fun ticket trace => ⟨hstate, hserial, hoverflow⟩
          refine Prog.Meets.bind (Prog.Meets.attempt ((pausing_ordered (pauses_of_commit
            pendingTicket_within)).mono fun renewed w hrenewed => ?_))
          have hheld := hrenewed.1.held htask
          cases renewed with
          | error error => exact ⟨hheld, hrenewed.1.agrees hcached, by simp⟩
          | ok ticket =>
              have hwrite : writePending { pending with ticket } = (do
                  let bytes ← Prog.lift pending.snapshot.encode
                  let _ ← writeSnapshot ticket bytes
                  return ()) := by
                simp [writePending, hdurable]
              dsimp only
              rw [hwrite]
              refine Prog.Meets.bind (Prog.Meets.attempt (Prog.Meets.bind
                (Prog.meets_lift.mpr ?_)))
              cases hencode : pending.snapshot.encode with
              | error error => exact ⟨hheld, hkept ticket _, by simp⟩
              | ok bytes =>
                  obtain rfl := encode_eq_ok hencode
                  refine Prog.Meets.bind ((writeSnapshot_ordered ticket pending.snapshot hheld.2
                    ⟨hheld.1.noFailure hclean, by simp [hserial]⟩).mono fun written w' hwritten => ?_)
                  have hheld' := hheld.trans hwritten.1
                  cases written with
                  | error error => exact ⟨hheld', hkept ticket _, by simp⟩
                  | ok _ =>
                      show Prog.Meets _ (if _ then _ else _) _ _
                      split
                      · refine ⟨hheld', ?_, fun _ => rfl⟩
                        have hstored : durableState w'.trace = some pending.snapshot.state :=
                          hwritten.2
                        rw [agrees_of_pending_eq_none rfl, hstored, ← hstate]
                        rfl
                      · rename_i hversion
                        exact ⟨hheld', ⟨hstate, hserial, fun _ => hversion⟩, by simp⟩

/-- Publishing a result makes its state durable, or leaves a cached state that shows the durable
one unless the outcome was an interleaved one. -/
theorem publishResult_ordered (invocation : ActorInvocation) (ownerEpoch : Nat)
    (cached : CachedActorState) (result nextState : Value) (origin : CommitOrigin)
    (htask : world.task.cachedState = none) (hcached : Agrees cached world.trace)
    (hwrite : MayWrite world.trace invocation.requestId nextState result origin.interleaved) :
    (publishResult invocation ownerEpoch cached result nextState origin).Meets (ordering allowed)
      (Prog.always (Held world) fun outcome w =>
        (outcome.1 = .ok (.completed result []) ∧ outcome.2.pending = none ∧
          outcome.2.state = some nextState ∧ durableState w.trace = some nextState) ∨
        (∃ error, outcome.1 = .error error) ∧
          (origin.interleaved = false → Agrees outcome.2 w.trace)) world := by
  unfold publishResult
  dsimp only
  split
  · exact ⟨⟨Follows.refl world, htask⟩, .inr ⟨⟨_, rfl⟩, fun _ => hcached⟩⟩
  · refine Prog.Meets.bind (Prog.Meets.attempt ((pausing_ordered (pauses_of_commit
      newPending_within)).mono fun prepared w hprepared => ?_))
    have hheld := hprepared.1.held htask
    cases prepared with
    | error error =>
        exact ⟨hheld, .inr ⟨⟨_, rfl⟩, fun _ => hprepared.1.agrees hcached⟩⟩
    | ok pending =>
        have hcommit : IsCommitOf invocation ownerEpoch (cached.stateVersion + 1) result nextState
          origin.interleaved pending := hprepared.2
        have hstate : pending.state = pending.snapshot.state :=
          hcommit.state_eq.trans hcommit.snapshotState_eq.symm
        have hinterleaved : isInterleaved pending.snapshot = origin.interleaved := by
          have hattribution := hcommit.interleaved_eq
          unfold isInterleaved
          cases hsome : pending.snapshot.attribution with
          | none => simp [hsome] at hattribution
          | some attribution => simpa [hsome] using hattribution
        refine Prog.Meets.bind (Prog.Meets.attempt ((writeSnapshot_ordered pending.ticket
          pending.snapshot hheld.2 ?_).mono fun written w' hwritten => ?_))
        · rw [hcommit.requestId_eq, hcommit.snapshotState_eq, hcommit.result_eq, hinterleaved]
          exact hprepared.1.mayWrite hwrite
        · have hheld' := hheld.trans hwritten.1
          cases written with
          | error error =>
              refine ⟨hheld', .inr ⟨⟨_, rfl⟩, fun hserial => ⟨hstate, ?_, ?_⟩⟩⟩
              · rw [hinterleaved, hserial]
              · simp [hcommit.not_durable]
          | ok _ =>
              have hstored : durableState w'.trace = some nextState :=
                hcommit.snapshotState_eq ▸ hwritten.2
              show Prog.Meets _ (Prog.bind (finishPendingCommit invocation _) _) _ _
              rw [finishPendingCommit_of_durable invocation rfl rfl]
              split
              · exact ⟨hheld', .inl ⟨rfl, rfl, congrArg some hcommit.state_eq, hstored⟩⟩
              · rename_i hversion
                refine ⟨hheld', .inr ⟨⟨_, rfl⟩, fun hserial => ⟨hstate, ?_, fun _ => hversion⟩⟩⟩
                show isInterleaved pending.snapshot = false
                rw [hinterleaved, hserial]

/-! ## Preparing and completing invocations -/

theorem takeOrLoadState_ordered (actor : ActorKey) (ownerEpoch : Nat) (hsettled : Settled world) :
    (takeOrLoadState actor ownerEpoch).Meets (ordering allowed)
      (Prog.always (Held world) fun cached w => Agrees cached w.trace ∧
        (Clear world → cached.pending = none)) world := by
  refine Prog.Meets.bind (meets_getTask.mpr (Prog.Meets.bind (meets_setTask.mpr ⟨id, ?_⟩)))
  have htaken : Held world { world with task := { world.task with cachedState := none } } :=
    ⟨(Follows.refl world).setTask rfl, rfl⟩
  dsimp only
  cases hcached : world.task.cachedState.filter fun cached => cached.ownerEpoch = ownerEpoch with
  | some cached =>
      have hsome := (Option.filter_eq_some_iff.mp hcached).1
      exact ⟨htaken, hsettled cached hsome, fun hclear => hclear cached hsome⟩
  | none =>
      refine Prog.Meets.bind (meets_permitted rfl fun answer _ => ⟨trivial, Prog.meets_lift.mpr ?_⟩)
      have hloaded : Held world (World.log { world with
          task := { world.task with cachedState := none } } ⟨.loadActorState actor ownerEpoch,
            answer⟩) :=
        ⟨htaken.1.log rfl, rfl⟩
      cases answer with
      | error error => exact ⟨hloaded, trivial⟩
      | ok loaded =>
          obtain ⟨stateVersion, loaded⟩ := loaded
          dsimp only
          split
          · refine Prog.Meets.bind (Prog.meets_ensure.mpr ⟨fun hnone => ?_, fun _ =>
              ⟨hloaded, trivial⟩⟩)
            subst hnone
            exact ⟨hloaded, rfl, fun _ => rfl⟩
          · refine Prog.meets_lift.mpr ⟨hloaded, ?_⟩
            cases hfrom : CachedActorState.fromLoaded ownerEpoch stateVersion loaded with
            | error error => trivial
            | ok cached =>
                obtain ⟨hpending, hstate⟩ := fromLoaded_eq_ok hfrom
                refine ⟨?_, fun _ => hpending⟩
                rw [agrees_of_pending_eq_none hpending, hstate]
                rfl

/-- Putting back a cached state that shows the durable one ends a runtime function's work. -/
theorem putCached_ordered {start : World} {cached : CachedActorState} (hheld : Held start world)
    (hcached : Agrees cached world.trace) :
    (putCached cached).Meets (ordering allowed)
      (fun _ w => Steady start w ∧ w.trace = world.trace ∧
        w.task.cachedState = some cached) world := by
  refine meets_modifyTask.mpr ⟨id, ⟨hheld.1.setTask rfl, ?_⟩, rfl, rfl⟩
  rintro _ ⟨⟩
  exact hcached

theorem clear_of_some {cached : CachedActorState} (h : world.task.cachedState = some cached)
    (hcached : cached.pending = none) : Clear world := by
  intro other hother
  rw [h] at hother
  cases hother
  exact hcached

/-- Preparing an invocation that is to run leaves no commit in flight. -/
theorem prepareInvocation_ordered (invocation : ActorInvocation) (ownerEpoch : Nat)
    (replay : Bool) (hclean : NoFailure world.trace) (hsettled : Settled world) :
    (prepareInvocation invocation ownerEpoch replay).Meets (ordering allowed)
      (Prog.always (fun w => Steady world w ∧ (Clear world → Clear w)) fun prepared w =>
        ∀ state, prepared = .execute state → Clear w) world := by
  refine (pausing_ordered ensureAuthority_pauses).seq (fun _ w hpause => ?_) fun _ w hpause => ?_
  swap
  · refine ⟨⟨⟨hpause.1.follows, hpause.1.settled hsettled⟩, fun hclear cached hcached => ?_⟩, trivial⟩
    rw [hpause.1.task_eq] at hcached
    exact hclear cached hcached
  have hfollows := hpause.1.follows
  refine (takeOrLoadState_ordered _ _ (hpause.1.settled hsettled)).seq (fun cached w₁ htaken => ?_)
    fun _ w₁ htaken => ⟨⟨⟨hfollows.trans htaken.1.1, htaken.1.steady.2⟩, fun _ =>
      clear_of_none htaken.1.2⟩, trivial⟩
  have hheld₁ : Held world w₁ := ⟨hfollows.trans htaken.1.1, htaken.1.2⟩
  have hclear₁ : Clear world → cached.pending = none := by
    intro hclear
    refine htaken.2.2 fun other hother => hclear other ?_
    rw [← hother, hpause.1.task_eq]
  refine (finishPendingCommit_ordered invocation hheld₁.2 (hheld₁.1.noFailure hclean)
    htaken.2.1).seq (fun outcome w₂ hfinished => ?_) fun _ w₂ hfinished =>
      ⟨⟨(hheld₁.trans hfinished.1).steady, fun _ => clear_of_none hfinished.1.2⟩, trivial⟩
  obtain ⟨finished, cached'⟩ := outcome
  obtain ⟨hheld₂, hagrees, hpending⟩ := hfinished
  refine (putCached_ordered (hheld₁.trans hheld₂) hagrees).seq (fun _ w₃ hput => ?_)
    fun _ w₃ hput => ⟨⟨hput.1, fun hclear =>
      clear_of_some hput.2.2 (hpending (.inr (hclear₁ hclear)))⟩, trivial⟩
  have hframe : Steady world w₃ ∧ (Clear world → Clear w₃) :=
    ⟨hput.1, fun hclear => clear_of_some hput.2.2 (hpending (.inr (hclear₁ hclear)))⟩
  cases finished with
  | error error =>
      refine ⟨hframe, ?_⟩
      rintro _ ⟨⟩
  | ok _ =>
      dsimp only
      cases if replay then cached'.replay invocation.requestId else none with
      | none => exact ⟨hframe, fun _ _ => clear_of_some hput.2.2 (hpending (.inl rfl))⟩
      | some result =>
          refine ⟨hframe, ?_⟩
          rintro _ ⟨⟩

/-- Completing an invocation after its commit changes nothing more. -/
theorem completeWithState_ordered {start : World} (actor : ActorKey) (stateVersion : Nat)
    (result : Value) (effects : List ActorSocketEffect) (hsteady : Steady start world) :
    (completeWithState actor stateVersion result effects).Meets (ordering allowed)
      (fun _ w => Steady start w ∧ durableState w.trace = durableState world.trace ∧
        w.task = world.task) world := by
  refine (pausing_ordered (completeWithState_pauses _ _ _ _)).mono fun _ w hpause => ?_
  exact ⟨⟨hsteady.1.trans hpause.1.follows, hpause.1.settled hsteady.2⟩,
    hpause.1.durableState_eq, hpause.1.task_eq⟩

theorem finishMethod_ordered (invocation : ActorInvocation) (ownerEpoch : Nat)
    (executed : Except ActorExecutionResult (Value × Value × List ActorSocketEffect))
    (origin : CommitOrigin) (horigin : origin.interleaved = false)
    (hclean : NoFailure world.trace) (hsettled : Settled world) :
    (finishMethod invocation ownerEpoch executed origin).Meets (ordering allowed)
      (fun _ w => Steady world w) world := by
  unfold finishMethod
  cases executed with
  | error failure => exact ⟨Follows.refl world, hsettled⟩
  | ok executed =>
      obtain ⟨result, nextState, effects⟩ := executed
      refine Prog.Meets.bind (meets_getTask.mpr (Prog.Meets.bind (meets_setTask.mpr ⟨id, ?_⟩)))
      have hheld : Held world { world with task := { world.task with cachedState := none } } :=
        ⟨(Follows.refl world).setTask rfl, rfl⟩
      refine Prog.Meets.bind (Prog.meets_context.mpr ⟨fun cached hcached => ?_, fun _ =>
        hheld.steady⟩)
      have hagrees : Agrees cached world.trace := hsettled cached hcached
      dsimp only
      split
      · refine (putCached_ordered hheld hagrees).seq (fun _ w hput => ?_) fun _ w hput => hput.1
        exact (completeWithState_ordered _ _ _ _ hput.1).mono fun _ _ h => h.1
      · refine (publishResult_ordered invocation ownerEpoch cached result nextState origin hheld.2
          hagrees ⟨hclean, by simp [horigin]⟩).seq (fun outcome w hpublished => ?_)
          fun _ w hpublished => (hheld.trans hpublished.1).steady
        obtain ⟨published, cached'⟩ := outcome
        have hheld' := hheld.trans hpublished.1
        obtain ⟨rfl, hpending, hstate, hdurable⟩ | ⟨⟨error, rfl⟩, hkept⟩ := hpublished.2
        · have hagrees' : Agrees cached' w.trace := by
            rw [agrees_of_pending_eq_none hpending, hdurable, hstate]
          refine (putCached_ordered hheld' hagrees').seq (fun _ w₁ hput => ?_)
            fun _ w₁ hput => hput.1
          exact (completeWithState_ordered _ _ _ _ hput.1).mono fun _ _ h => h.1
        · refine (pausing_ordered (evict_pauses _)).seq (fun _ w₁ hpause => ?_) fun _ w₁ hpause =>
            (hheld'.trans (hpause.1.held hheld'.2)).steady
          refine (putCached_ordered (hheld'.trans (hpause.1.held hheld'.2))
            (hpause.1.agrees (hkept horigin))).seq (fun _ w₂ hput => hput.1)
            fun _ w₂ hput => hput.1

theorem finishSerial_ordered (invocation : ActorInvocation) (ownerEpoch : Nat)
    (outcome : Except Error ActorMethodOutcome) (origin : CommitOrigin)
    (horigin : origin.interleaved = false) (hclean : NoFailure world.trace)
    (hsettled : Settled world) :
    (finishSerial invocation ownerEpoch outcome origin).Meets (ordering allowed)
      (fun _ w => Steady world w) world := by
  refine (pausing_ordered (methodResult_pauses _ _)).seq (fun executed w hpause => ?_)
    fun _ w hpause => ⟨hpause.1.follows, hpause.1.settled hsettled⟩
  have hfollows := hpause.1.follows
  refine (finishMethod_ordered invocation ownerEpoch executed origin horigin
    (hfollows.noFailure hclean) (hpause.1.settled hsettled)).mono fun _ w' hsteady => ?_
  exact ⟨hfollows.trans hsteady.1, hsteady.2⟩

/-- The commit of an interleaved outcome that succeeds leaves its state durable. -/
theorem commitInterleaved_ordered (request : ActorRequest) (ownerEpoch : Nat)
    (outcome : ActorInterleavedOutcome) (origin : CommitOrigin)
    (hcommitting : Committing request outcome world.trace) (hclean : NoFailure world.trace)
    (hsettled : Settled world) (hclear : Clear world) :
    (commitInterleaved request.operation.invocation ownerEpoch outcome origin).Meets
      (ordering allowed) (Prog.onOk fun _ w =>
        Steady world w ∧ Clear w ∧ durableState w.trace = some outcome.state) world := by
  refine (pausing_ordered ensureAuthority_pauses).seq (fun _ w hpause => ?_) fun _ _ _ => trivial
  have hfollows := hpause.1.follows
  refine Prog.Meets.bind (Prog.meets_lift.mpr ?_)
  cases validateSocketEffects outcome.effects with
  | error error => trivial
  | ok _ =>
      refine Prog.Meets.bind (meets_getTask.mpr (Prog.Meets.bind (meets_setTask.mpr ⟨id, ?_⟩)))
      have hheld : Held world { w with task := { w.task with cachedState := none } } :=
        ⟨hfollows.setTask rfl, rfl⟩
      refine Prog.Meets.bind (Prog.meets_context.mpr ⟨fun cached hcached => ?_, fun _ => trivial⟩)
      refine Prog.Meets.bind (Prog.meets_ensure.mpr ⟨fun _ => ?_, fun _ => trivial⟩)
      have hagrees : Agrees cached w.trace := hpause.1.settled hsettled cached hcached
      have hpending : cached.pending = none := by
        rw [hpause.1.task_eq] at hcached
        exact hclear cached hcached
      dsimp only
      split
      · rename_i hunchanged
        refine (putCached_ordered hheld hagrees).seq (fun _ w₁ hput => ?_) fun _ _ _ => trivial
        refine (completeWithState_ordered _ _ _ _ hput.1).mono fun result w₂ hcomplete => ?_
        cases result with
        | error error => trivial
        | ok result =>
            refine ⟨hcomplete.1, ?_, ?_⟩
            · exact clear_of_some (by rw [hcomplete.2.2]; exact hput.2.2) hpending
            · rw [hcomplete.2.1, hput.2.1]
              exact ((agrees_of_pending_eq_none hpending).mp hagrees).trans hunchanged
      · refine (publishResult_ordered request.operation.invocation ownerEpoch cached outcome.result
          outcome.state { origin with interleaved := true } hheld.2 hagrees
          (hpause.1.mayWrite ⟨hclean, fun _ => ⟨request, outcome, hcommitting, rfl, rfl, rfl⟩⟩)).seq
          (fun published w₁ hpublished => ?_) fun _ _ _ => trivial
        obtain ⟨published, cached'⟩ := published
        have hheld' := hheld.trans hpublished.1
        obtain ⟨rfl, hpending, hstate, hdurable⟩ | ⟨⟨error, rfl⟩, -⟩ := hpublished.2
        · have hagrees' : Agrees cached' w₁.trace := by
            rw [agrees_of_pending_eq_none hpending, hdurable, hstate]
          refine (putCached_ordered hheld' hagrees').seq (fun _ w₂ hput => ?_) fun _ _ _ => trivial
          refine (completeWithState_ordered _ _ _ _ hput.1).mono fun result w₃ hcomplete => ?_
          cases result with
          | error error => trivial
          | ok result =>
              refine ⟨hcomplete.1, ?_, ?_⟩
              · exact clear_of_some (by rw [hcomplete.2.2]; exact hput.2.2) hpending
              · rw [hcomplete.2.1, hput.2.1, hdurable]
        · exact Prog.Meets.bind (meets_modifyTask.mpr ⟨id, trivial⟩)

/-- Giving the executor a fresh state makes this state the one that counts as stored. -/
theorem hydrate_ordered {start : World} (actor : ActorKey) {cached : CachedActorState}
    (hfollows : Follows start world) (htask : world.task.cachedState = some cached)
    (hcached : cached.pending = none ∨ Settled world) :
    (hydrate actor cached.state).Meets (ordering allowed)
      (fun _ w => Steady start w ∧ w.task = world.task) world := by
  refine meets_permitted rfl fun answer _ => ⟨trivial, Prog.meets_lift.mpr ?_⟩
  refine ⟨⟨hfollows.log rfl, ?_⟩, rfl⟩
  intro other hother
  obtain rfl : cached = other := Option.some.inj (htask.symm.trans hother)
  cases hpending : cached.pending with
  | none =>
      rw [agrees_of_pending_eq_none hpending]
      rfl
  | some pending =>
      rcases hcached with hnone | hsettled
      · rw [hpending] at hnone
        cases hnone
      · have hagrees := hsettled cached htask
        simp only [Agrees, hpending] at hagrees ⊢
        exact hagrees

theorem activateActor_ordered (actor : ActorKey) (hsettled : Settled world) :
    (activateActor actor).Meets (ordering allowed)
      (fun _ w => Steady world w ∧ (Clear world → Clear w)) world := by
  refine (pausing_ordered ensureAuthority_pauses).seq (fun _ w hpause => ?_) fun _ w hpause =>
    hpause.1.rests hsettled
  refine Prog.Meets.bind (meets_getTask.mpr ?_)
  dsimp only
  cases w.task.activation with
  | some activation => exact hpause.1.rests hsettled
  | none =>
      -- What follows once a state is in the cache.
      have hhydrate : ∀ (activation : ActorActivation) (w₂ : World) (cached : CachedActorState),
          Follows world w₂ → w₂.task.cachedState = some cached →
          (cached.pending = none ∨ Settled w₂) → (Clear world → cached.pending = none) →
          (do
            let task ← getTask
            hydrate actor (task.cachedState.bind CachedActorState.state)
            ensureAuthority
            modifyTask fun task => { task with activation := some activation }
            return activation : Run ActorActivation).Meets (ordering allowed)
              (fun _ w => Steady world w ∧ (Clear world → Clear w)) w₂ := by
        intro activation w₂ cached hfollows htask hcached hclear
        refine Prog.Meets.bind (meets_getTask.mpr ?_)
        dsimp only
        rw [htask]
        refine (hydrate_ordered actor hfollows htask hcached).seq (fun _ w₃ hhydrated => ?_)
          fun _ w₃ hhydrated => ⟨hhydrated.1, fun h => clear_of_some (hhydrated.2 ▸ htask)
            (hclear h)⟩
        have hrests : Steady world w₃ ∧ (Clear world → Clear w₃) :=
          ⟨hhydrated.1, fun h => clear_of_some (hhydrated.2 ▸ htask) (hclear h)⟩
        refine (pausing_ordered ensureAuthority_pauses).seq (fun _ w₄ hpause => ?_)
          fun _ w₄ hpause => ?_
        · have hsteady := hpause.1.rests hrests.1.2
          exact Prog.Meets.bind (meets_modifyTask.mpr ⟨id, ⟨(hrests.1.1.trans hsteady.1.1).setTask
            rfl, hsteady.1.2⟩, fun h => hsteady.2 (hrests.2 h)⟩)
        · have hsteady := hpause.1.rests hrests.1.2
          exact ⟨⟨hrests.1.1.trans hsteady.1.1, hsteady.1.2⟩, fun h => hsteady.2 (hrests.2 h)⟩
      refine (pausing_ordered (acquireActor_pauses actor)).seq (fun activation w₁ hpause₁ => ?_)
        fun _ w₁ hpause₁ => (hpause.1.trans hpause₁.1).rests hsettled
      obtain ⟨⟨hfollows, hsettled₁⟩, hclear₁⟩ := (hpause.1.trans hpause₁.1).rests hsettled
      cases hcached : w.task.cachedState with
      | some cached =>
          have hcached₁ : w₁.task.cachedState = some cached := by rw [hpause₁.1.task_eq, hcached]
          exact hhydrate _ _ cached hfollows hcached₁ (.inr hsettled₁) fun hclear =>
            hclear₁ hclear cached hcached₁
      | none =>
          have hput : ∀ (activation : ActorActivation) (cached : CachedActorState),
              cached.pending = none → (do
                putCached cached
                let task ← getTask
                hydrate actor (task.cachedState.bind CachedActorState.state)
                ensureAuthority
                modifyTask fun task => { task with activation := some activation }
                return activation : Run ActorActivation).Meets (ordering allowed)
                  (fun _ w => Steady world w ∧ (Clear world → Clear w)) w₁ := by
            intro activation cached hpending
            refine Prog.Meets.bind (meets_modifyTask.mpr ⟨id, ?_⟩)
            exact hhydrate _ _ cached (hfollows.setTask rfl) rfl (.inl hpending) fun _ => hpending
          dsimp only [Option.isNone_none]
          rw [if_pos rfl]
          split
          · exact hput _ _ rfl
          · refine Prog.Meets.bind (Prog.meets_context.mpr ⟨fun bytes _ => ?_, fun _ =>
              ⟨⟨hfollows, hsettled₁⟩, hclear₁⟩⟩)
            refine Prog.Meets.bind (Prog.meets_lift.mpr ?_)
            cases hfrom : CachedActorState.fromLoaded activation.ownerEpoch
                activation.stateVersion (some bytes) with
            | error error => exact ⟨⟨hfollows, hsettled₁⟩, hclear₁⟩
            | ok cached => exact hput _ _ (fromLoaded_eq_ok hfrom).1

/-! ## The mailbox -/

/-- The mailbox agrees with the run on the commits made, all with success, and holds outcomes
that arrived. -/
structure InSequence (events : List Entry)
    (ready : List (Nat × Nat × ActorRequest × ActorInterleavedOutcome)) (nextSequence : Nat) :
    Prop where
  noFailure : NoFailure events
  begun : ∃ n, events.filterMap begins = (List.range' 1 n).reverse ∧ nextSequence = n + 1
  ended : ∀ sequence, 1 ≤ sequence → sequence < nextSequence → endsCommit sequence true ∈ events
  arrived : ∀ sequence id request outcome, (sequence, id, request, outcome) ∈ ready →
    sequence = outcome.sequence ∧ arrival id request outcome ∈ events

namespace InSequence

variable {events : List Entry} {nextSequence : Nat}
variable {ready : List (Nat × Nat × ActorRequest × ActorInterleavedOutcome)}

/-- An event that neither begins nor fails a commit changes nothing. -/
theorem cons (h : InSequence events ready nextSequence) {event : Entry}
    (hbegins : begins event = none) (hfailed : ∀ sequence, event ≠ endsCommit sequence false) :
    InSequence (event :: events) ready nextSequence where
  noFailure := by
    intro sequence hmem
    rcases List.mem_cons.mp hmem with heq | hmem
    · exact hfailed sequence heq.symm
    · exact h.noFailure sequence hmem
  begun := by
    rw [List.filterMap_cons_none hbegins]
    exact h.begun
  ended := fun sequence hpos hlt => List.mem_cons_of_mem _ (h.ended sequence hpos hlt)
  arrived := by
    intro sequence id request outcome hmem
    obtain ⟨hsequence, harrival⟩ := h.arrived sequence id request outcome hmem
    exact ⟨hsequence, List.mem_cons_of_mem _ harrival⟩

/-- An outcome that arrived waits for its turn. -/
theorem hold (h : InSequence events ready nextSequence) {id : Nat} {request : ActorRequest}
    {outcome : ActorInterleavedOutcome} (harrival : arrival id request outcome ∈ events) :
    InSequence events ((outcome.sequence, id, request, outcome) :: ready) nextSequence :=
  { h with
    arrived := by
      intro sequence id request outcome hmem
      rcases List.mem_cons.mp hmem with heq | hmem
      · cases heq
        exact ⟨rfl, harrival⟩
      · exact h.arrived sequence id request outcome hmem }

/-- The outcome that is next in sequence is committed. -/
theorem commit (h : InSequence events ready nextSequence) {id : Nat} {request : ActorRequest}
    {outcome : ActorInterleavedOutcome} (hready : (nextSequence, id, request, outcome) ∈ ready) :
    InSequence (endsCommit outcome.sequence true :: beginsCommit request outcome :: events)
      (ready.filter fun entry => ¬ entry.1 = nextSequence) (nextSequence + 1) where
  noFailure := by
    intro sequence hmem
    rcases List.mem_cons.mp hmem with heq | hmem
    · cases heq
    · rcases List.mem_cons.mp hmem with heq | hmem
      · cases heq
      · exact h.noFailure sequence hmem
  begun := by
    obtain ⟨n, hn, hnext⟩ := h.begun
    refine ⟨n + 1, ?_, by rw [hnext]⟩
    have hsequence := (h.arrived _ _ _ _ hready).1
    show outcome.sequence :: events.filterMap begins = _
    rw [hn, ← hsequence, hnext, List.range'_concat, List.reverse_append]
    simp [Nat.add_comm]
  ended := by
    intro sequence hpos hlt
    rcases Nat.lt_succ_iff_lt_or_eq.mp hlt with hlt | rfl
    · exact List.mem_cons_of_mem _ (List.mem_cons_of_mem _ (h.ended sequence hpos hlt))
    · rw [(h.arrived _ _ _ _ hready).1]
      exact List.mem_cons_self
  arrived := by
    intro sequence id request outcome hmem
    obtain ⟨hsequence, harrival⟩ := h.arrived sequence id request outcome
      (List.mem_of_mem_filter hmem)
    exact ⟨hsequence, List.mem_cons_of_mem _ (List.mem_cons_of_mem _ harrival)⟩

end InSequence

/-! ## The admission loop -/

/-- The mailbox between two of its steps. -/
structure AtRest (world : World) : Prop where
  flight : InFlight (journal world.trace) world.task.running
  sequence : InSequence (journal world.trace) world.task.ready world.task.nextSequence
  settled : Settled world
  /-- Without interleaving at most one execution is in flight, and it holds back the others. -/
  serial : world.task.interleaved = false →
    (world.task.running = [] ∧ world.task.blockedOn = none) ∨
      ∃ id request, world.task.running = [(id, request)] ∧ world.task.blockedOn = some id
  /-- An execution starts with no commit in flight. -/
  clear : world.task.interleaved = true ∨ world.task.running ≠ [] → Clear world

theorem AtRest.noFailure (h : AtRest world) : NoFailure world.trace :=
  noFailure_journal.mp h.sequence.noFailure

/-- A runtime function that leaves no commit in flight leaves the mailbox at rest. -/
theorem AtRest.follows (h : AtRest world) {w : World} (hsteady : Steady world w)
    (hclear : Clear world → Clear w) : AtRest w := by
  have hrunning := hsteady.1.field_eq Task.running fun _ => rfl
  have hready := hsteady.1.field_eq Task.ready fun _ => rfl
  have hnext := hsteady.1.field_eq Task.nextSequence fun _ => rfl
  have hinterleaved := hsteady.1.field_eq Task.interleaved fun _ => rfl
  have hblocked := hsteady.1.field_eq Task.blockedOn fun _ => rfl
  refine ⟨?_, ?_, hsteady.2, ?_, ?_⟩
  · rw [hsteady.1.journal_eq, hrunning]
    exact h.flight
  · rw [hsteady.1.journal_eq, hready, hnext]
    exact h.sequence
  · rw [hinterleaved, hrunning, hblocked]
    exact h.serial
  · rw [hinterleaved, hrunning]
    exact fun hbusy => hclear (h.clear hbusy)

/-- The rule for answering a request. -/
theorem finish_ordered (request : ActorRequest) (result : Except Error ActorExecutionResult)
    {post : Except Error Unit → World → Prop}
    (hanswer : ∀ value effects, result = .ok (.completed value effects) →
      NoFailure world.trace ∧ ∀ id outcome, arrival id request outcome ∈ world.trace →
        ∀ sequence, 1 ≤ sequence → sequence ≤ outcome.sequence →
          endsCommit sequence true ∈ world.trace)
    (hpost : ∀ sent, post (.ok ()) (world.log ⟨.answer request result, sent⟩)) :
    (finish request result).Meets (ordering allowed) post world := by
  refine meets_permitted rfl fun sent _ => ⟨?_, hpost sent⟩
  cases result with
  | error error => trivial
  | ok result =>
      cases result with
      | completed value effects => exact hanswer value effects rfl
      | _ => trivial

/-- The rule for leaving a mark. -/
theorem leaveMark_ordered (mark : Mark) {post : Except Error Unit → World → Prop}
    (hpermitted : Permitted world.trace ⟨.mark mark, ()⟩)
    (hpost : post (.ok ()) (world.log ⟨.mark mark, ()⟩)) :
    (leaveMark mark).Meets (ordering allowed) post world :=
  meets_permitted rfl fun _ _ => ⟨hpermitted, hpost⟩

/-- An answer leaves the mailbox at rest. -/
theorem AtRest.answer (h : AtRest world) (request : ActorRequest)
    (result : Except Error ActorExecutionResult) (sent : Bool) :
    AtRest (world.log ⟨.answer request result, sent⟩) where
  flight := h.flight.cons rfl
  sequence := h.sequence.cons rfl (by nofun)
  settled := h.settled
  serial := h.serial
  clear := h.clear

/-- What the loop needs from a step that lets it go on. -/
def Continues (continued : Bool) (world : World) : Prop := continued = true → AtRest world

theorem stop_ordered (request : ActorRequest) :
    (stop request).Meets (ordering allowed) (Prog.onOk Continues) world := by
  refine (pausing_ordered (evict_pauses _)).seq (fun _ w _ => ?_) fun _ _ _ => trivial
  refine Prog.Meets.bind (finish_ordered request _ (by nofun) fun sent => ?_)
  exact fun hcontinued => by cases hcontinued

theorem Fresh.follows {request : ActorRequest}
    (h : Fresh (journal world.trace) world.task.running request) {w : World}
    (hfollows : Follows world w) : Fresh (journal w.trace) w.task.running request := by
  rw [hfollows.journal_eq, hfollows.field_eq Task.running fun _ => rfl]
  exact h

/-- A fresh request has no outcome yet. -/
theorem Fresh.answer {request : ActorRequest}
    (h : Fresh (journal world.trace) world.task.running request) (hclean : NoFailure world.trace) :
    NoFailure world.trace ∧ ∀ id outcome, arrival id request outcome ∈ world.trace →
      ∀ sequence, 1 ≤ sequence → sequence ≤ outcome.sequence →
        endsCommit sequence true ∈ world.trace :=
  ⟨hclean, fun _ _ harrival => absurd rfl (h.notExecuted _ ((mem_journal rfl).mpr harrival))⟩

theorem activate_ordered (request : ActorRequest) (actor : ActorKey) (hrest : AtRest world)
    (hfresh : Fresh (journal world.trace) world.task.running request) :
    (activate request actor).Meets (ordering allowed) (Prog.onOk Continues) world := by
  refine Prog.Meets.bind (Prog.Meets.attempt ((activateActor_ordered actor
    hrest.settled).mono fun result w hsteady => ?_))
  have hrest' := hrest.follows hsteady.1 hsteady.2
  refine Prog.Meets.bind (finish_ordered request _ (fun _ _ _ => ?_) fun sent => ?_)
  · exact (hfresh.follows hsteady.1.1).answer hrest'.noFailure
  · exact fun _ => hrest'.answer request _ sent

/-- Admitting a fresh request leaves the mailbox at rest. -/
theorem admitRequest_ordered (request : ActorRequest) (accepting : Bool) (hrest : AtRest world)
    (hblocked : world.task.blockedOn = none)
    (hfresh : Fresh (journal world.trace) world.task.running request) :
    (admitRequest request accepting).Meets (ordering allowed) (Prog.onOk Continues) world := by
  have hprepared : ∀ invocation replay,
      (admitInvocation request invocation replay).Meets (ordering allowed) (Prog.onOk Continues) world := by
    intro invocation replay
    refine Prog.Meets.bind (Prog.Meets.attempt ((prepareInvocation_ordered invocation
      request.ownerEpoch replay hrest.noFailure hrest.settled).mono fun prepared w hsteady => ?_))
    obtain ⟨⟨hsteady, hclear⟩, hexecute⟩ := hsteady
    have hrest' := hrest.follows hsteady hclear
    have hfresh' := hfresh.follows hsteady.1
    cases prepared with
    | error error => exact stop_ordered request
    | ok prepared =>
        cases prepared with
        | completed result =>
            refine Prog.Meets.bind (finish_ordered request _ (fun _ _ _ =>
              hfresh'.answer hrest'.noFailure) fun sent => ?_)
            exact fun _ => hrest'.answer request _ sent
        | execute state =>
            refine Prog.Meets.bind (meets_getTask.mpr (Prog.Meets.bind (meets_setTask.mpr
              ⟨id, meets_permitted rfl fun _ _ => ⟨trivial, fun _ => ?_⟩⟩)))
            have hfree : w.task.blockedOn = none := by
              rw [hsteady.1.field_eq Task.blockedOn fun _ => rfl, hblocked]
            exact {
              flight := (hrest'.flight.start hfresh' _).cons rfl
              sequence := hrest'.sequence.cons rfl (by nofun)
              settled := hrest'.settled
              serial := by
                intro hserial
                obtain ⟨hrunning, -⟩ | ⟨id, other, -, hbusy⟩ := hrest'.serial hserial
                · exact .inr ⟨w.task.nextInvocation + 1, request, by simp [hrunning], rfl⟩
                · rw [hfree] at hbusy
                  cases hbusy
              clear := fun _ => hexecute state rfl }
  unfold admitRequest
  split
  · refine Prog.Meets.bind (finish_ordered request _ (by nofun) fun sent => ?_)
    exact fun _ => hrest.answer request _ sent
  · cases hoperation : request.operation with
    | activate actor => exact activate_ordered request actor hrest hfresh
    | method invocation => exact hprepared _ _
    | socket invocation => exact hprepared _ _

theorem begins_journal (trace : List Entry) :
    (journal trace).filterMap begins = trace.filterMap begins := by
  induction trace with
  | nil => rfl
  | cons entry trace ih =>
      obtain ⟨op, answer⟩ := entry
      cases op with
      | mark mark =>
          cases mark with
          | commitBegins request outcome => exact congrArg (outcome.sequence :: ·) ih
          | commitEnds sequence succeeded => exact ih
      | _ => exact ih

theorem release_ordered (id : Nat) {post : Except Error Unit → World → Prop}
    (h : post (.ok ()) { world with task :=
      if world.task.blockedOn = some id then { world.task with blockedOn := none }
      else world.task }) :
    (release id).Meets (ordering allowed) post world :=
  meets_modifyTask.mpr ⟨fun horder => horder, h⟩

/-- Letting requests in again leaves the mailbox of an interleaved actor at rest. -/
theorem AtRest.release (h : AtRest world) (hinterleaved : world.task.interleaved = true)
    (id : Nat) :
    AtRest { world with task :=
      if world.task.blockedOn = some id then { world.task with blockedOn := none }
      else world.task } := by
  split
  · exact {
      flight := h.flight
      sequence := h.sequence
      settled := h.settled
      serial := by simp [hinterleaved]
      clear := h.clear }
  · exact h

/-- The outcome of a request that arrived is the only one it has. -/
theorem InFlight.arrival_unique {running : List (Nat × ActorRequest)}
    (h : InFlight (journal world.trace) running) {id id' : Nat} {request : ActorRequest}
    {outcome outcome' : ActorInterleavedOutcome} (harrival : arrival id request outcome ∈ world.trace)
    (harrival' : arrival id' request outcome' ∈ world.trace) : outcome' = outcome := by
  have hsame := h.executedOnce _ ((mem_journal rfl).mpr harrival) _
    ((mem_journal rfl).mpr harrival') request.ticket rfl rfl
  simp only [arrival, Sigma.mk.injEq, heq_eq_eq, Wakeup.executed.injEq, Except.ok.injEq,
    ActorMethodOutcome.interleaved.injEq, true_and] at hsame
  exact hsame.2.symm

/-- The mailbox of an interleaved actor stays at rest while it commits what is ready. -/
theorem commitReady_ordered (fuel : Nat) (hrest : AtRest world)
    (hinterleaved : world.task.interleaved = true) :
    (commitReady fuel).Meets (ordering allowed) (Prog.onOk Continues) world := by
  induction fuel generalizing world with
  | zero => exact fun _ => hrest
  | succ fuel ih =>
      unfold commitReady
      refine Prog.Meets.bind (meets_getTask.mpr ?_)
      dsimp only
      cases hfind : world.task.ready.find? fun entry => entry.1 = world.task.nextSequence with
      | none => exact fun _ => hrest
      | some entry =>
          obtain ⟨sequence, id, request, outcome⟩ := entry
          have hmem := List.mem_of_find?_eq_some hfind
          obtain rfl : sequence = world.task.nextSequence := by
            simpa using List.find?_some hfind
          obtain ⟨hsequence, harrival⟩ := hrest.sequence.arrived _ _ _ _ hmem
          -- The commit begins.
          refine Prog.Meets.bind (meets_setTask.mpr ⟨fun horder => horder, ?_⟩)
          refine Prog.Meets.bind (leaveMark_ordered _ ?_ ?_)
          · obtain ⟨n, hbegun, hnext⟩ := hrest.sequence.begun
            rw [begins_journal] at hbegun
            exact ⟨⟨n, hbegun, by rw [← hsequence, hnext]⟩, id, (mem_journal rfl).mp harrival⟩
          refine Prog.Meets.bind (Prog.Meets.attempt ((commitInterleaved_ordered request
            request.ownerEpoch outcome request.operation.commitOrigin ⟨[], _, rfl, by simp⟩ ?_ ?_
            ?_).mono fun committed w hcommitted => ?_))
          · intro other hother
            rcases List.mem_cons.mp hother with heq | hmem
            · cases heq
            · exact hrest.noFailure other hmem
          · exact hrest.settled
          · exact hrest.clear (.inl hinterleaved)
          have hstop : ∀ w : World, (do
              leaveMark (.commitEnds outcome.sequence false)
              stop request : Run Bool).Meets (ordering allowed) (Prog.onOk Continues) w :=
            fun w => Prog.Meets.bind (leaveMark_ordered _ trivial (stop_ordered request))
          cases committed with
          | error error => exact hstop w
          | ok committed =>
              cases committed with
              | completed result effects =>
                  obtain ⟨⟨hfollows, hsettled⟩, hclear, hdurable⟩ := hcommitted
                  have hrunning := hfollows.field_eq Task.running fun _ => rfl
                  have hready := hfollows.field_eq Task.ready fun _ => rfl
                  have hnext : w.task.nextSequence = world.task.nextSequence :=
                    hfollows.field_eq Task.nextSequence fun _ => rfl
                  have hmode := hfollows.field_eq Task.interleaved fun _ => rfl
                  have hjournal : journal w.trace =
                    beginsCommit request outcome :: journal world.trace := hfollows.journal_eq
                  -- The commit has ended with success and the next one may begin.
                  refine Prog.Meets.bind (leaveMark_ordered _ ?_ ?_)
                  · refine ⟨request, outcome, (mem_journal rfl).mp ?_, rfl, hdurable⟩
                    rw [hjournal]
                    exact List.mem_cons_self
                  have hrest' : AtRest (World.log { w with
                      task := { w.task with nextSequence := w.task.nextSequence + 1 } }
                      (endsCommit outcome.sequence true)) := {
                    flight := by
                      show InFlight (endsCommit outcome.sequence true :: journal w.trace) w.task.running
                      rw [hjournal, hrunning]
                      exact (hrest.flight.cons rfl).cons rfl
                    sequence := by
                      show InSequence (endsCommit outcome.sequence true :: journal w.trace) w.task.ready
                        (w.task.nextSequence + 1)
                      rw [hjournal, hready, hnext]
                      exact hrest.sequence.commit hmem
                    settled := hsettled
                    serial := by
                      show w.task.interleaved = false → _
                      rw [hmode]
                      simp [hinterleaved]
                    clear := fun _ => hclear }
                  refine Prog.Meets.bind (meets_modifyTask.mpr ⟨fun horder => horder, ?_⟩)
                  refine Prog.Meets.bind (finish_ordered request _ (fun _ _ _ => ?_) fun sent => ?_)
                  · refine ⟨hrest'.noFailure, fun id' outcome' harrival' sequence hpos hle => ?_⟩
                    have hmine : arrival id request outcome ∈ w.trace := by
                      rw [← mem_journal rfl, hjournal]
                      exact List.mem_cons_of_mem _ harrival
                    obtain rfl := hrest'.flight.arrival_unique (List.mem_cons_of_mem _ hmine) harrival'
                    refine (mem_journal rfl).mp (hrest'.sequence.ended sequence hpos ?_)
                    show sequence < w.task.nextSequence + 1
                    omega
                  · have hmode' : w.task.interleaved = true := hmode.trans hinterleaved
                    refine Prog.Meets.bind (release_ordered id ?_)
                    refine ih ((hrest'.answer request _ sent).release hmode' id) ?_
                    dsimp only
                    split
                    · exact hmode'
                    · exact hmode'
              | _ => exact hstop w

/-- The mailbox after an execution has ended and before its outcome is taken.  It may still be
held back by the execution that ended. -/
structure Taking (id : Nat) (world : World) : Prop where
  flight : InFlight (journal world.trace) world.task.running
  sequence : InSequence (journal world.trace) world.task.ready world.task.nextSequence
  settled : Settled world
  clear : Clear world
  serial : world.task.interleaved = false →
    world.task.running = [] ∧ world.task.blockedOn = some id

/-- An interleaved actor's mailbox is at rest then. -/
theorem Taking.atRest {id : Nat} (h : Taking id world) (hinterleaved : world.task.interleaved = true) :
    AtRest world where
  flight := h.flight
  sequence := h.sequence
  settled := h.settled
  serial := by simp [hinterleaved]
  clear := fun _ => h.clear

/-- The end of an execution is taken out of the mailbox. -/
theorem AtRest.taking (h : AtRest world) {id : Nat} {request : ActorRequest}
    {result : Except Error ActorMethodOutcome} (hrunning : (id, request) ∈ world.task.running) :
    Taking id (World.log { world with task := { world.task with
      running := world.task.running.filter fun entry => ¬ entry.1 = id } }
      ⟨.select, .executed id request result⟩) where
  flight := h.flight.executed hrunning
  sequence := h.sequence.cons rfl (by nofun)
  settled := h.settled
  clear := h.clear (.inr (List.ne_nil_of_mem hrunning))
  serial := by
    intro hserial
    obtain ⟨hnone, -⟩ | ⟨id', request', hone, hblocked⟩ := h.serial hserial
    · rw [hnone] at hrunning
      cases hrunning
    · rw [hone] at hrunning
      obtain ⟨rfl, rfl⟩ := Prod.mk.inj (List.mem_singleton.mp hrunning)
      exact ⟨by simp [hone], hblocked⟩

/-- An outcome that is no interleaved one is taken. -/
theorem executedAlone_ordered (id : Nat) (request : ActorRequest)
    (result : Except Error ActorMethodOutcome) (htaking : Taking id world)
    (hended : ⟨.select, .executed id request result⟩ ∈ world.trace)
    (halone : ∀ outcome, result ≠ .ok (.interleaved outcome)) :
    (executedAlone id request result).Meets (ordering allowed) (Prog.onOk Continues) world := by
  unfold executedAlone
  refine Prog.Meets.bind (meets_getTask.mpr ?_)
  dsimp only
  split
  · rename_i hinterleaved
    have hrest := htaking.atRest hinterleaved
    split
    · split
      · refine Prog.Meets.bind (finish_ordered request _ (by nofun) fun sent => ?_)
        refine Prog.Meets.bind (release_ordered id ?_)
        exact fun _ => (hrest.answer request _ sent).release hinterleaved id
      · exact stop_ordered request
    · exact stop_ordered request
  · rename_i hserial
    obtain ⟨hnone, hblocked⟩ := htaking.serial (by simpa using hserial)
    have horigin : request.operation.commitOrigin.interleaved = false := by
      cases request.operation <;> rfl
    refine Prog.Meets.bind (Prog.Meets.attempt ((finishSerial_ordered
      request.operation.invocation request.ownerEpoch result request.operation.commitOrigin horigin
      (noFailure_journal.mp htaking.sequence.noFailure) htaking.settled).mono
      fun finished w hsteady => ?_))
    have hjournal := hsteady.1.journal_eq
    have hended' : ⟨.select, .executed id request result⟩ ∈ journal w.trace := by
      rw [hjournal]
      exact (mem_journal rfl).mpr hended
    have hflight : InFlight (journal w.trace) w.task.running := by
      rw [hjournal, hsteady.1.field_eq Task.running fun _ => rfl]
      exact htaking.flight
    have hsequence : InSequence (journal w.trace) w.task.ready w.task.nextSequence := by
      rw [hjournal, hsteady.1.field_eq Task.ready fun _ => rfl,
        hsteady.1.field_eq Task.nextSequence fun _ => rfl]
      exact htaking.sequence
    refine Prog.Meets.bind (finish_ordered request _ (fun _ _ _ => ?_) fun sent => ?_)
    · refine ⟨noFailure_journal.mp hsequence.noFailure, fun id' outcome harrival => ?_⟩
      -- The execution ended once, and not with an interleaved outcome.
      have hsame := hflight.executedOnce _ hended' _ ((mem_journal rfl).mpr harrival)
        request.ticket rfl rfl
      cases hsame
      exact absurd rfl (halone outcome)
    · refine Prog.Meets.bind (release_ordered id fun _ => ?_)
      have hblocked' : w.task.blockedOn = some id :=
        (hsteady.1.field_eq Task.blockedOn fun _ => rfl).trans hblocked
      have hnone' : w.task.running = [] :=
        (hsteady.1.field_eq Task.running fun _ => rfl).trans hnone
      have hserial' : w.task.interleaved = false :=
        (hsteady.1.field_eq Task.interleaved fun _ => rfl).trans (by simpa using hserial)
      split
      · exact {
          flight := hflight.cons rfl
          sequence := hsequence.cons rfl (by nofun)
          settled := hsteady.2
          serial := fun _ => .inl ⟨hnone', rfl⟩
          clear := by
            rintro (htrue | hbusy)
            · rw [show w.task.interleaved = true from htrue] at hserial'
              cases hserial'
            · exact absurd hnone' hbusy }
      · rename_i hother
        exact absurd hblocked' hother

/-- Taking an outcome leaves the mailbox at rest. -/
theorem executed_ordered (id : Nat) (request : ActorRequest)
    (result : Except Error ActorMethodOutcome) (htaking : Taking id world)
    (hended : ⟨.select, .executed id request result⟩ ∈ world.trace) :
    (executed id request result).Meets (ordering allowed) (Prog.onOk Continues) world := by
  unfold executed
  split
  · rename_i outcome
    refine Prog.Meets.bind (meets_modifyTask.mpr ⟨fun horder => horder, ?_⟩)
    refine Prog.Meets.bind (meets_getTask.mpr ?_)
    dsimp only
    split
    · exact stop_ordered request
    · refine Prog.Meets.bind (meets_setTask.mpr ⟨fun horder => horder, ?_⟩)
      refine commitReady_ordered _ ?_ rfl
      exact {
        flight := htaking.flight
        sequence := htaking.sequence.hold ((mem_journal rfl).mpr hended)
        settled := htaking.settled
        serial := by nofun
        clear := fun _ => htaking.clear }
  · rename_i halone
    exact executedAlone_ordered id request result htaking hended halone

/-- An execution that holds back the others started with no commit in flight. -/
theorem AtRest.clear_of_blocked (h : AtRest world) (hblocked : world.task.blockedOn ≠ none) :
    Clear world := by
  cases hinterleaved : world.task.interleaved with
  | true => exact h.clear (.inl hinterleaved)
  | false =>
      obtain ⟨-, hnone⟩ | ⟨id, request, hone, -⟩ := h.serial hinterleaved
      · exact absurd hnone hblocked
      · exact h.clear (.inr (by simp [hone]))

/-- The admission loop keeps the commits in order. -/
theorem admissionLoop_ordered (fuel : Nat) (hrest : AtRest world)
    (hallowed : ∀ world entry, allowed world entry → Enabled world entry) :
    (admissionLoop fuel).Meets (ordering allowed) (fun _ _ => True) world := by
  induction fuel generalizing world with
  | zero => trivial
  | succ fuel ih =>
      have hcontinue : ∀ (step : Run Bool) (w : World),
          step.Meets (ordering allowed) (Prog.onOk Continues) w →
          (do if ← step then admissionLoop fuel else return () : Run Unit).Meets
            (ordering allowed) (fun _ _ => True) w := by
        intro step w hstep
        refine hstep.seq (fun continued w' hcontinues => ?_) fun _ _ _ => trivial
        cases continued with
        | false => trivial
        | true => exact ih (hcontinues rfl)
      unfold admissionLoop
      refine Prog.Meets.bind (meets_permitted rfl fun wakeup hwakeup => ⟨trivial, ?_⟩)
      have henabled := hallowed _ _ hwakeup
      cases wakeup with
      | executed id request result =>
          refine Prog.Meets.bind (meets_modifyTask.mpr ⟨fun horder => horder, ?_⟩)
          exact hcontinue _ _ (executed_ordered id request result
            (hrest.taking henabled.1) List.mem_cons_self)
      | permission granted =>
          cases granted with
          | false => trivial
          | true =>
              refine Prog.Meets.bind (meets_modifyTask.mpr ⟨fun horder => horder, ih ?_⟩)
              exact {
                flight := hrest.flight.cons rfl
                sequence := hrest.sequence.cons rfl (by nofun)
                settled := hrest.settled
                serial := by nofun
                clear := fun _ => hrest.clear_of_blocked henabled.1 }
      | request request accepting =>
          cases request with
          | none =>
              refine Prog.Meets.bind (meets_modifyTask.mpr ⟨fun horder => horder, ih ?_⟩)
              exact {
                flight := hrest.flight.cons rfl
                sequence := hrest.sequence.cons rfl (by nofun)
                settled := hrest.settled
                serial := hrest.serial
                clear := hrest.clear }
          | some request =>
              obtain ⟨⟨-, hblocked⟩, hunused⟩ := henabled
              refine Prog.Meets.bind (meets_permitted rfl fun _ _ => ⟨trivial, ?_⟩)
              refine hcontinue _ _ (admitRequest_ordered request accepting ?_ hblocked ?_)
              · exact {
                  flight := hrest.flight.cons rfl
                  sequence := hrest.sequence.cons rfl (by nofun)
                  settled := hrest.settled
                  serial := hrest.serial
                  clear := hrest.clear }
              · exact hrest.flight.fresh (unused_journal (hunused request rfl))
      | idle => trivial

end

/-- Interleaved outcomes are committed in sequence in every run of the admission loop. -/
theorem commits_in_order {world : World} (h : Reachable Enabled true world) :
    CommitsInOrder world.trace := by
  refine h.invariant (fun world => CommitsInOrder world.trace) (fun fuel => ?_) commitsInOrder_nil
  refine admissionLoop_ordered fuel ?_ fun _ _ henabled => henabled
  exact {
    flight := ⟨by simp, by simp, by simp, by simp [journal], by simp [journal]⟩
    sequence := ⟨by simp [NoFailure, journal], ⟨0, rfl, rfl⟩, by
      intro sequence hpos hlt
      have : sequence < 1 := hlt
      omega, by simp⟩
    settled := settled_of_none rfl
    serial := fun _ => .inl ⟨rfl, rfl⟩
    clear := fun _ => clear_of_none rfl }

/-- The first interleaved outcome of a call that changes state is committed and answered. -/
theorem commits_in_order_of_increment :
    ∃ world, Reachable Enabled true world ∧ endsCommit 1 true ∈ world.trace ∧
      (∃ sent, ⟨.answer (increment 0) (.ok (.completed .null [])), sent⟩ ∈ world.trace) ∧
      CommitsInOrder world.trace := by
  refine ⟨?world, ?reachable, ?ended, ⟨true, ?answered⟩, commits_in_order ?reachable⟩
  case reachable =>
    refine ⟨2, ?rest, ?run⟩
    case run =>
      refine Runs.service (Wakeup.request (some (increment 0)) true) rfl
        ⟨⟨rfl, rfl⟩, by rintro _ _ _ ⟨⟩⟩ ?_
      refine Runs.service () rfl ⟨trivial, nofun⟩ ?_
      refine Runs.service (.ok ()) rfl ⟨trivial, nofun⟩ ?_
      refine Runs.get (Runs.set ?_)
      refine Runs.service (.ok (0, none)) rfl ⟨trivial, nofun⟩ ?_
      refine Runs.get (Runs.set (Runs.get (Runs.set ?_)))
      refine Runs.service () rfl ⟨trivial, nofun⟩ ?_
      -- The outcome arrives with the first sequence number, and its commit begins.
      refine Runs.service (Wakeup.executed 1 (increment 0)
        (.ok (.interleaved ⟨1, .null, incremented, []⟩))) rfl
        ⟨List.mem_singleton.mpr rfl, nofun⟩ ?_
      refine Runs.get (Runs.set (Runs.get (Runs.set (Runs.get (Runs.set ?_)))))
      refine Runs.get (Runs.set ?_)
      refine Runs.service () rfl ⟨trivial, nofun⟩ ?_
      refine Runs.service (.ok ()) rfl ⟨trivial, nofun⟩ ?_
      refine Runs.get (Runs.set ?_)
      refine Runs.service (.ok firstPlan) rfl ⟨trivial, nofun⟩ ?_
      refine Runs.service (.ok 0) rfl ⟨trivial, nofun⟩ ?_
      refine Runs.service (.ok .written) rfl ⟨trivial, nofun⟩ ?_
      refine Runs.get (Runs.set ?_)
      refine Runs.service (.ok ()) rfl ⟨trivial, nofun⟩ ?_
      refine Runs.service () rfl ⟨trivial, nofun⟩ ?_
      refine Runs.get (Runs.set ?_)
      refine Runs.service true rfl ⟨trivial, nofun⟩ ?_
      exact .refl
  case ended => exact List.mem_cons_of_mem _ List.mem_cons_self
  case answered => exact List.mem_cons_self

end Host
end DurableActors
