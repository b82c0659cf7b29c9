import DurableActors.Host.Journal

/-!
# Declined invocations did not run

A task declines an invocation by answering an error or {lit}`HostUnavailable`; the
host reports both as {lit}`unavailable`, which promises that nothing ran.  The
promise holds for everything that goes wrong before an execution.  It breaks when
the lease is lost between the end of an execution and its answer, because a
failed check of the lease is answered as an error.

Main results:

- Theorem {lit}`declined_did_not_run`: in every run in which no check of the lease
  fails while an outcome waits for its answer, a declined method call was not handed
  to the executor, and every snapshot that is written is that of a request which
  was.
-/

namespace DurableActors
namespace Host

open Effects

/-! ## The property -/

/-- The request that an entry hands to the executor. -/
def sentRequest : Entry → Option ActorRequest
  | ⟨.invoke request _, _⟩ => some request
  | ⟨.handleSocket request _, _⟩ => some request
  | ⟨.start _ request _, _⟩ => some request
  | _ => none

/-- Whether a result promises that nothing ran: it is reported with the code
{lit}`unavailable`. -/
def isDeclined : Except Error ActorExecutionResult → Bool
  | .error _ => true
  | .ok .hostUnavailable => true
  | .ok (.failed failure) => failure.code = "unavailable"
  | _ => false

/-- The request that an entry answers. -/
def answeredRequest : Entry → Option ActorRequest
  | ⟨.answer request _, _⟩ => some request
  | _ => none

/-- The request that an entry declines. -/
def declinedRequest : Entry → Option ActorRequest
  | ⟨.answer request result, _⟩ => if isDeclined result then some request else none
  | _ => none

/-- The request ID in the snapshot that an entry writes, with success or not. -/
def writtenId : Entry → Option String
  | ⟨.writeSnapshot _ bytes, _⟩ => some bytes.requestId
  | _ => none

/-- A request with this ID was handed to the executor. -/
def SentId (requestId : String) (trace : List Entry) : Prop :=
  ∃ entry ∈ trace, ∃ request, sentRequest entry = some request ∧
    request.operation.invocation.requestId = requestId

/-- The request came in. -/
def Arrived (request : ActorRequest) (trace : List Entry) : Prop :=
  ∃ entry ∈ trace, received entry = some request

/-- Declined method calls did not run, snapshots are those of requests that did, and only requests
that came in run. -/
structure DeclinesTruthfully (trace : List Entry) : Prop where
  unsent : ∀ entry ∈ trace, ∀ request, declinedRequest entry = some request →
    request.operation.isMethod → ∀ other ∈ trace, ∀ sent, sentRequest other = some sent →
      sent.ticket ≠ request.ticket
  written : ∀ entry ∈ trace, ∀ requestId, writtenId entry = some requestId →
    SentId requestId trace
  arrived : ∀ entry ∈ trace, ∀ request, sentRequest entry = some request → Arrived request trace

/-! ## The property along a run -/

/-- No entry hands a request with this reply channel to the executor. -/
def Unsent (ticket : Nat) (trace : List Entry) : Prop :=
  ∀ entry ∈ trace, ∀ request, sentRequest entry = some request → request.ticket ≠ ticket

/-- No entry answers a request with this reply channel. -/
def Unanswered (ticket : Nat) (trace : List Entry) : Prop :=
  ∀ entry ∈ trace, ∀ request, answeredRequest entry = some request → request.ticket ≠ ticket

theorem declinedRequest_answered {entry : Entry} {request : ActorRequest}
    (h : declinedRequest entry = some request) : answeredRequest entry = some request := by
  unfold declinedRequest at h
  split at h
  · split at h
    · exact h
    · cases h
  · cases h

theorem SentId.cons {requestId : String} {trace : List Entry} (h : SentId requestId trace)
    (entry : Entry) : SentId requestId (entry :: trace) := by
  obtain ⟨sent, hsent, hrequest⟩ := h
  exact ⟨sent, List.mem_cons_of_mem _ hsent, hrequest⟩

theorem Arrived.cons {request : ActorRequest} {trace : List Entry} (h : Arrived request trace)
    (entry : Entry) : Arrived request (entry :: trace) := by
  obtain ⟨arrival, harrival, hrequest⟩ := h
  exact ⟨arrival, List.mem_cons_of_mem _ harrival, hrequest⟩

theorem declinesTruthfully_nil : DeclinesTruthfully [] := ⟨by simp, by simp, by simp⟩

theorem DeclinesTruthfully.cons {trace : List Entry} (h : DeclinesTruthfully trace) {entry : Entry}
    (hdeclined : ∀ request, declinedRequest entry = some request → request.operation.isMethod →
      Unsent request.ticket trace)
    (hsent : ∀ request, sentRequest entry = some request →
      Unanswered request.ticket trace ∧ Arrived request trace)
    (hwritten : ∀ requestId, writtenId entry = some requestId → SentId requestId trace) :
    DeclinesTruthfully (entry :: trace) where
  unsent := by
    intro other hother request hrequest hmethod third hthird sent hthirdSent
    rcases List.mem_cons.mp hother with rfl | hmem <;>
      rcases List.mem_cons.mp hthird with rfl | hmem'
    · -- No entry both answers and sends.
      have hanswered := declinedRequest_answered hrequest
      obtain ⟨op, answer⟩ := third
      cases op <;> first | (cases hanswered; done) | cases hthirdSent
    · exact hdeclined request hrequest hmethod third hmem' sent hthirdSent
    · exact ((hsent sent hthirdSent).1 other hmem request
        (declinedRequest_answered hrequest)).symm
    · exact h.unsent other hmem request hrequest hmethod third hmem' sent hthirdSent
  written := by
    intro other hother requestId hid
    rcases List.mem_cons.mp hother with rfl | hmem
    · exact (hwritten requestId hid).cons _
    · exact (h.written other hmem requestId hid).cons _
  arrived := by
    intro other hother request hrequest
    rcases List.mem_cons.mp hother with rfl | hmem
    · exact (hsent request hrequest).2.cons _
    · exact (h.arrived other hmem request hrequest).cons _

/-! ## What is known from the journal alone -/

theorem isEvent_of_sent {entry : Entry} {request : ActorRequest}
    (h : sentRequest entry = some request) : isEvent entry := by
  obtain ⟨op, answer⟩ := entry
  cases op <;> first | rfl | cases h

theorem isEvent_of_answered {entry : Entry} {request : ActorRequest}
    (h : answeredRequest entry = some request) : isEvent entry := by
  obtain ⟨op, answer⟩ := entry
  cases op <;> first | rfl | cases h

theorem isEvent_of_received {entry : Entry} {request : ActorRequest}
    (h : received entry = some request) : isEvent entry := by
  obtain ⟨op, answer⟩ := entry
  cases op <;> first | rfl | cases h

theorem Follows.arrived {start world : World} (h : Follows start world) {request : ActorRequest}
    (hstart : Arrived request start.trace) : Arrived request world.trace := by
  obtain ⟨entry, hentry, hrequest⟩ := hstart
  refine ⟨entry, ?_, hrequest⟩
  have hevent := isEvent_of_received hrequest
  rw [← mem_journal hevent, h.journal_eq, mem_journal hevent]
  exact hentry

theorem sentId_journal {requestId : String} {trace : List Entry} :
    SentId requestId (journal trace) ↔ SentId requestId trace := by
  constructor
  · rintro ⟨entry, hentry, hrequest⟩
    exact ⟨entry, List.mem_of_mem_filter hentry, hrequest⟩
  · rintro ⟨entry, hentry, request, hsent, hid⟩
    exact ⟨entry, (mem_journal (isEvent_of_sent hsent)).mpr hentry, request, hsent, hid⟩

theorem unsent_journal {ticket : Nat} {trace : List Entry} :
    Unsent ticket (journal trace) ↔ Unsent ticket trace :=
  ⟨fun h entry hentry request hsent =>
    h entry ((mem_journal (isEvent_of_sent hsent)).mpr hentry) request hsent,
  fun h entry hentry => h entry (List.mem_of_mem_filter hentry)⟩

theorem unanswered_journal {ticket : Nat} {trace : List Entry} :
    Unanswered ticket (journal trace) ↔ Unanswered ticket trace :=
  ⟨fun h entry hentry request hanswered =>
    h entry ((mem_journal (isEvent_of_answered hanswered)).mpr hentry) request hanswered,
  fun h entry hentry => h entry (List.mem_of_mem_filter hentry)⟩

theorem Follows.sentId {start world : World} (h : Follows start world) {requestId : String}
    (hstart : SentId requestId start.trace) : SentId requestId world.trace := by
  rw [← sentId_journal, h.journal_eq, sentId_journal]
  exact hstart

theorem Follows.unsent {start world : World} (h : Follows start world) {ticket : Nat}
    (hstart : Unsent ticket start.trace) : Unsent ticket world.trace := by
  rw [← unsent_journal, h.journal_eq, unsent_journal]
  exact hstart

theorem Follows.unanswered {start world : World} (h : Follows start world) {ticket : Nat}
    (hstart : Unanswered ticket start.trace) : Unanswered ticket world.trace := by
  rw [← unanswered_journal, h.journal_eq, unanswered_journal]
  exact hstart

/-! ## The condition -/

/-- The method call whose own outcome an entry brings; interleaved outcomes are not of this kind,
because their commits end the task when they fail. -/
def ownOutcome : Entry → Option ActorRequest
  | ⟨.invoke request _, _⟩ => some request
  | ⟨.select, .executed _ _ (.ok (.interleaved _))⟩ => none
  | ⟨.select, .executed _ request _⟩ => some request
  | _ => none

/-- The method call has ended with an outcome of its own and was not answered. -/
def Overdue (request : ActorRequest) (trace : List Entry) : Prop :=
  (∃ entry ∈ trace, ownOutcome entry = some request) ∧ Unanswered request.ticket trace ∧
    request.operation.isMethod

/-- The check of the lease does not fail while an outcome waits for its answer. -/
def LeaseKept (world : World) (entry : Entry) : Prop :=
  ∀ error, entry = ⟨.ensureAuthority, .error error⟩ → ∀ request, ¬ Overdue request world.trace

/-- What the channels allow while the lease is kept. -/
def KeepsLease (world : World) (entry : Entry) : Prop := Enabled world entry ∧ LeaseKept world entry

/-- No method call waits for its answer with an outcome of its own. -/
def NoneOverdue (trace : List Entry) : Prop := ∀ request, ¬ Overdue request trace

theorem Follows.overdue {start world : World} (h : Follows start world) {request : ActorRequest}
    (hstart : Overdue request start.trace) : Overdue request world.trace := by
  obtain ⟨⟨entry, hentry, houtcome⟩, hunanswered, hmethod⟩ := hstart
  refine ⟨⟨entry, ?_, houtcome⟩, h.unanswered hunanswered, hmethod⟩
  have hevent : isEvent entry := by
    obtain ⟨op, answer⟩ := entry
    cases op <;> first | rfl | cases houtcome
  rw [← mem_journal hevent, h.journal_eq, mem_journal hevent]
  exact hentry

theorem Follows.noneOverdue {start world : World} (h : Follows start world)
    (hworld : NoneOverdue world.trace) : NoneOverdue start.trace :=
  fun request hoverdue => hworld request (h.overdue hoverdue)

/-! ## The runtime's functions -/

section

variable {α : Type} {world : World}

/-- Each call keeps the property while the lease is kept. -/
abbrev declining : Protocol services World :=
  keeping KeepsLease fun world => DeclinesTruthfully world.trace

/-- A call that is no event and writes nothing keeps the property. -/
theorem DeclinesTruthfully.log_quiet (h : DeclinesTruthfully world.trace) {entry : Entry}
    (hevent : isEvent entry = false) (hwritten : writtenId entry = none) :
    DeclinesTruthfully (world.log entry).trace := by
  refine h.cons (fun request hrequest => ?_) (fun request hrequest => ?_) (by simp [hwritten])
  · rw [isEvent_of_answered (declinedRequest_answered hrequest)] at hevent
    cases hevent
  · rw [isEvent_of_sent hrequest] at hevent
    cases hevent

theorem meets_quiet_declining {op : Op} (hop : op.isService)
    (hquiet : ∀ answer, isEvent ⟨op, answer⟩ = false ∧ writtenId ⟨op, answer⟩ = none)
    {next : Ans op → Run α} {post : Except Error α → World → Prop}
    (h : ∀ answer, KeepsLease world ⟨op, answer⟩ →
      (next answer).Meets declining post (world.log ⟨op, answer⟩)) :
    (Prog.call (I := services) op next).Meets declining post world :=
  (meets_service hop).mpr fun answer hallowed =>
    ⟨fun htruthful => htruthful.log_quiet (hquiet answer).1 (hquiet answer).2, h answer hallowed⟩

theorem pausing_declining {p : Run α} {post : α → Prop} (h : p.Within Pauses post) :
    p.Meets declining (Prog.always (Pause world) fun value _ => post value) world := by
  refine Prog.Within.meets_always h ?_ ?_ (Pause.refl world)
  · rintro a _ ha rfl
    exact ha
  · intro op w answer w' hop hw hserve
    have hservice : op.isService := by
      cases op <;> first | rfl | cases hop
    obtain ⟨-, rfl⟩ := (serve_service hservice).mp hserve
    refine ⟨fun htruthful => htruthful.log_quiet ?_ ?_, hw.log hop⟩
    all_goals cases op <;> first | rfl | cases hop

/-- A commit keeps the property when it writes snapshots of requests that ran. -/
theorem commit_declining {p : Run α} {writes : StateSnapshot → Prop} {post : α → Prop}
    (h : p.Within (CommitCalls writes) post)
    (hwrites : ∀ bytes, writes bytes → SentId bytes.requestId world.trace) :
    p.Meets declining (Prog.always (fun w => Follows world w ∧ w.task = world.task)
      fun value _ => post value) world := by
  refine commit_meets_always (fun w => Follows world w ∧ w.task = world.task) h ?_
    ⟨Follows.refl world, rfl⟩
  intro w op answer hop hw _
  obtain rfl | ⟨_, _, _, rfl⟩ | ⟨_, bytes, rfl, hbytes⟩ := hop.cases
  · exact ⟨fun htruthful => htruthful.log_quiet rfl rfl, hw.1.log rfl, hw.2⟩
  · exact ⟨fun htruthful => htruthful.log_quiet rfl rfl, hw.1.log rfl, hw.2⟩
  · refine ⟨fun htruthful => htruthful.cons (by nofun) (by nofun) ?_, hw.1.log rfl, hw.2⟩
    rintro _ ⟨⟩
    exact hw.1.sentId (hwrites bytes hbytes)

/-- The check of the lease fails only when no outcome waits for its answer. -/
theorem ensureAuthority_declining :
    ensureAuthority.Meets declining (fun r w => Pause world w ∧
      (∀ error, r = .error error → NoneOverdue world.trace)) world := by
  refine meets_quiet_declining rfl (fun _ => ⟨rfl, rfl⟩) fun answer hallowed => ?_
  refine Prog.meets_lift.mpr ⟨(Pause.refl world).log trivial, ?_⟩
  rintro error rfl
  exact hallowed.2 error rfl

/-- An invocation is completed, unless no outcome waits for its answer. -/
theorem completeWithState_declining (actor : ActorKey) (stateVersion : Nat) (result : Value)
    (effects : List ActorSocketEffect) :
    (completeWithState actor stateVersion result effects).Meets declining (fun r w =>
      Pause world w ∧ (isDeclined r → NoneOverdue world.trace)) world := by
  refine ensureAuthority_declining.seq (fun _ w hpause => ?_) fun error w hpause =>
    ⟨hpause.1, fun _ => hpause.2 error rfl⟩
  dsimp only
  split
  · exact ⟨hpause.1, by simp [isDeclined]⟩
  · refine Prog.Meets.bind (Prog.Meets.attempt ((pausing_declining (publish_pauses _ _)).mono
      fun published w' hpause' => ?_))
    cases published with
    | error error => exact ⟨hpause.1.trans hpause'.1, by nofun⟩
    | ok _ => exact ⟨hpause.1.trans hpause'.1, by nofun⟩

/-- The cached state's commit in flight is that of a request that ran. -/
def Backed (cached : CachedActorState) (trace : List Entry) : Prop :=
  ∀ pending, cached.pending = some pending → SentId pending.snapshot.requestId trace

/-- The task's commit in flight is that of a request that ran. -/
def Backs (world : World) : Prop :=
  ∀ cached, world.task.cachedState = some cached → Backed cached world.trace

theorem Backed.follows {cached : CachedActorState} {start w : World}
    (h : Backed cached start.trace) (hfollows : Follows start w) : Backed cached w.trace :=
  fun pending hpending => hfollows.sentId (h pending hpending)

theorem Backed.cons {cached : CachedActorState} {trace : List Entry} (h : Backed cached trace)
    (entry : Entry) : Backed cached (entry :: trace) :=
  fun pending hpending => (h pending hpending).cons entry

theorem backs_of_none (h : world.task.cachedState = none) : Backs world := by
  intro cached hcached
  rw [h] at hcached
  cases hcached

theorem Backs.pause (h : Backs world) {w : World} (hpause : Pause world w) : Backs w := by
  intro cached hcached
  rw [hpause.task_eq] at hcached
  exact (h cached hcached).follows hpause.follows

/-- A runtime function has left the mailbox alone. -/
def Kept (start world : World) : Prop := Follows start world ∧ Backs world

theorem Kept.trans {first second third : World} (h : Kept first second) (h' : Kept second third) :
    Kept first third :=
  ⟨h.1.trans h'.1, h'.2⟩

theorem Backs.kept (h : Backs world) {w : World} (hpause : Pause world w) : Kept world w :=
  ⟨hpause.follows, h.pause hpause⟩

theorem kept_of_none {start w : World} (hfollows : Follows start w)
    (h : w.task.cachedState = none) : Kept start w :=
  ⟨hfollows, backs_of_none h⟩

/-- The rule for putting back the cached state. -/
theorem putCached_declining {start : World} {cached : CachedActorState}
    {post : Except Error Unit → World → Prop} (hfollows : Follows start world)
    (hcached : Backed cached world.trace)
    (hpost : ∀ w, Kept start w → w.task.cachedState = some cached → post (.ok ()) w) :
    (putCached cached).Meets declining post world := by
  refine meets_modifyTask.mpr ⟨id, hpost _ ⟨hfollows.setTask rfl, ?_⟩ rfl⟩
  rintro _ ⟨⟩
  exact hcached

/-- The rule for dropping the instance. -/
theorem evict_declining {actor : ActorKey} {post : Except Error Unit → World → Prop}
    (hpost : ∀ w, Pause world w → post (.ok ()) w) : (evict actor).Meets declining post world :=
  meets_quiet_declining rfl (fun _ => ⟨rfl, rfl⟩) fun _ _ => hpost _ ((Pause.refl world).log trivial)

theorem finishPendingCommit_declining (invocation : ActorInvocation) {cached : CachedActorState}
    (hcached : Backed cached world.trace) :
    (finishPendingCommit invocation cached).Meets declining
      (Prog.always (fun w => Follows world w ∧ w.task = world.task) fun outcome w =>
        Backed outcome.2 w.trace) world := by
  have hcommit : (finishPendingCommit invocation cached).Meets declining _ world :=
    commit_declining (finishPendingCommit_within (fun bytes => SentId bytes.requestId world.trace)
      fun pending hpending _ => hcached pending hpending) fun _ h => h
  refine hcommit.mono fun r w hr => ⟨hr.1, ?_⟩
  cases r with
  | error error => trivial
  | ok outcome =>
      obtain ⟨hframe, hok, -, hnone, hsome⟩ := hr
      obtain ⟨finished, cached'⟩ := outcome
      intro pending' hpending'
      cases finished with
      | ok _ =>
          rw [hok rfl] at hpending'
          cases hpending'
      | error error =>
          refine hframe.1.sentId ?_
          cases hpending : cached.pending with
          | none =>
              rw [hnone hpending, hpending] at hpending'
              cases hpending'
          | some pending =>
              obtain ⟨ticket, durable, hcached'⟩ := (hsome pending hpending).2 (by simp)
              rw [hcached'] at hpending'
              cases hpending'
              exact hcached pending hpending

theorem takeOrLoadState_declining (actor : ActorKey) (ownerEpoch : Nat) (hworld : Backs world) :
    (takeOrLoadState actor ownerEpoch).Meets declining
      (Prog.always (fun w => Follows world w ∧ w.task.cachedState = none) fun cached w =>
        Backed cached w.trace) world := by
  refine Prog.Meets.bind (meets_getTask.mpr (Prog.Meets.bind (meets_setTask.mpr ⟨id, ?_⟩)))
  have hfollows : Follows world { world with task := { world.task with cachedState := none } } :=
    (Follows.refl world).setTask rfl
  dsimp only
  cases hcached : world.task.cachedState.filter fun cached => cached.ownerEpoch = ownerEpoch with
  | some cached =>
      exact ⟨⟨hfollows, rfl⟩, hworld cached (Option.filter_eq_some_iff.mp hcached).1⟩
  | none =>
      refine Prog.Meets.bind (meets_quiet_declining rfl (fun _ => ⟨rfl, rfl⟩) fun answer _ =>
        Prog.meets_lift.mpr ?_)
      cases answer with
      | error error => exact ⟨⟨hfollows.log rfl, rfl⟩, trivial⟩
      | ok loaded =>
          dsimp only
          split
          · exact Prog.Meets.bind (Prog.meets_ensure.mpr
              ⟨fun _ => ⟨⟨hfollows.log rfl, rfl⟩, fun _ hnone => by cases hnone⟩,
                fun _ => ⟨⟨hfollows.log rfl, rfl⟩, trivial⟩⟩)
          · refine Prog.meets_lift.mpr ⟨⟨hfollows.log rfl, rfl⟩, ?_⟩
            cases hfrom : CachedActorState.fromLoaded ownerEpoch loaded.1 loaded.2 with
            | error error => trivial
            | ok cached =>
                intro pending hpending
                rw [(fromLoaded_eq_ok hfrom).1] at hpending
                cases hpending

/-- A request that is to run finds a cached state; one that is not to run is not declined. -/
theorem prepareInvocation_declining (invocation : ActorInvocation) (ownerEpoch : Nat)
    (replay : Bool) (hworld : Backs world) :
    (prepareInvocation invocation ownerEpoch replay).Meets declining
      (Prog.always (Kept world) fun prepared w =>
        match prepared with
        | .execute _ => w.task.cachedState.isSome
        | .completed result => isDeclined (.ok result) = false) world := by
  refine (pausing_declining ensureAuthority_pauses).seq (fun _ w hpause => ?_) fun _ w hpause =>
    ⟨hworld.kept hpause.1, trivial⟩
  refine (takeOrLoadState_declining _ _ (hworld.pause hpause.1)).seq (fun cached w₁ htaken => ?_)
    fun _ w₁ htaken => ⟨kept_of_none (hpause.1.follows.trans htaken.1.1) htaken.1.2, trivial⟩
  have hfollows₁ := hpause.1.follows.trans htaken.1.1
  refine (finishPendingCommit_total cached).seq (finishPendingCommit_declining invocation htaken.2)
    fun outcome w₂ hfinished => ?_
  refine Prog.Meets.bind (putCached_declining (hfollows₁.trans hfinished.1.1) hfinished.2
    fun w₃ hkept hcached => ?_)
  obtain ⟨finished, cached'⟩ := outcome
  cases finished with
  | error error => exact ⟨hkept, rfl⟩
  | ok _ =>
      dsimp only
      cases if replay then cached'.replay invocation.requestId else none with
      | none =>
          refine ⟨hkept, ?_⟩
          show w₃.task.cachedState.isSome
          rw [hcached]
          rfl
      | some result => exact ⟨hkept, rfl⟩

/-- Publishing a result leaves at most the commit of its request in flight. -/
theorem publishResult_declining (invocation : ActorInvocation) (ownerEpoch : Nat)
    {cached : CachedActorState} (result nextState : Value) (origin : CommitOrigin)
    (hcached : Backed cached world.trace) (hsent : SentId invocation.requestId world.trace) :
    (publishResult invocation ownerEpoch cached result nextState origin).Meets declining
      (Prog.always (fun w => Follows world w ∧ w.task = world.task) fun outcome w =>
        Backed outcome.2 w.trace ∧ ((∃ error, outcome.1 = .error error) ∨
          outcome.1 = .ok (.completed result []))) world := by
  have hcommit : (publishResult invocation ownerEpoch cached result nextState origin).Meets
      declining _ world :=
    commit_declining (publishResult_within (fun bytes => SentId bytes.requestId world.trace)
      fun pending hpending => by rw [hpending.requestId_eq]; exact hsent) fun _ h => h
  refine hcommit.mono fun r w hr => ⟨hr.1, ?_⟩
  cases r with
  | error error => trivial
  | ok outcome =>
      obtain ⟨hframe, -, hpending, hcases⟩ := hr
      refine ⟨fun pending hsome => ?_, hcases.imp id fun hok => hok.1⟩
      rcases hpending pending hsome with hold | hnew
      · exact hframe.1.sentId (hcached pending hold)
      · rw [hnew]
        exact hframe.1.sentId hsent

/-- An outcome is answered with its result, unless no outcome waits for its answer. -/
theorem finishMethod_declining (invocation : ActorInvocation) (ownerEpoch : Nat)
    (executed : Except ActorExecutionResult (Value × Value × List ActorSocketEffect))
    (origin : CommitOrigin) (hworld : Backs world) (hcached : world.task.cachedState.isSome)
    (hsent : SentId invocation.requestId world.trace)
    (hexecuted : ∀ failure, executed = .error failure → isDeclined (.ok failure) = false) :
    (finishMethod invocation ownerEpoch executed origin).Meets declining
      (fun r w => Kept world w ∧ (isDeclined r → NoneOverdue world.trace)) world := by
  unfold finishMethod
  cases executed with
  | error failure =>
      refine ⟨⟨Follows.refl world, hworld⟩, fun hdeclined => ?_⟩
      rw [hexecuted failure rfl] at hdeclined
      cases hdeclined
  | ok executed =>
      obtain ⟨result, nextState, effects⟩ := executed
      refine Prog.Meets.bind (meets_getTask.mpr (Prog.Meets.bind (meets_setTask.mpr ⟨id, ?_⟩)))
      have hfollows : Follows world
          { world with task := { world.task with cachedState := none } } :=
        (Follows.refl world).setTask rfl
      refine Prog.Meets.bind (Prog.meets_context.mpr ⟨fun cached hsome => ?_, fun hnone => ?_⟩)
      swap
      · rw [hnone] at hcached
        cases hcached
      have hbacked : Backed cached world.trace := hworld cached hsome
      have hcomplete : ∀ w stateVersion, Kept world w →
          (completeWithState invocation.actor stateVersion result effects).Meets declining
            (fun r w' => Kept world w' ∧ (isDeclined r → NoneOverdue world.trace)) w := by
        intro w stateVersion hkept
        refine (completeWithState_declining _ _ _ _).mono fun r w' hcompleted => ?_
        exact ⟨hkept.trans (hkept.2.kept hcompleted.1), fun hdeclined =>
          hkept.1.noneOverdue (hcompleted.2 hdeclined)⟩
      dsimp only
      split
      · exact Prog.Meets.bind (putCached_declining hfollows hbacked fun w hkept _ =>
          hcomplete w _ hkept)
      · refine (publishResult_total ownerEpoch cached result nextState origin).seq
          (publishResult_declining invocation ownerEpoch result nextState origin
            (hbacked.follows hfollows) (hfollows.sentId hsent)) fun outcome w hpublished => ?_
        obtain ⟨published, cached'⟩ := outcome
        obtain ⟨⟨hfollows', htask⟩, hbacked', ⟨error, rfl⟩ | rfl⟩ := hpublished
        · refine Prog.Meets.bind (evict_declining fun w₁ hpause => ?_)
          refine Prog.Meets.bind (putCached_declining ((hfollows.trans hfollows').trans
            hpause.follows) (hbacked'.follows hpause.follows) fun w₂ hkept _ => ?_)
          exact ⟨hkept, by nofun⟩
        · exact Prog.Meets.bind (putCached_declining (hfollows.trans hfollows') hbacked'
            fun w₁ hkept _ => hcomplete w₁ _ hkept)

theorem finishSerial_declining (invocation : ActorInvocation) (ownerEpoch : Nat)
    (outcome : Except Error ActorMethodOutcome) (origin : CommitOrigin) (hworld : Backs world)
    (hcached : world.task.cachedState.isSome) (hsent : SentId invocation.requestId world.trace) :
    (finishSerial invocation ownerEpoch outcome origin).Meets declining
      (fun r w => Kept world w ∧ (isDeclined r → NoneOverdue world.trace)) world := by
  refine (methodResult_total _ _).seq (pausing_declining (methodResult_pauses _ _))
    fun executed w hpause => ?_
  refine (finishMethod_declining invocation ownerEpoch executed origin (hworld.pause hpause.1) ?_
    (hpause.1.follows.sentId hsent) ?_).mono fun r w' hfinished => ?_
  · rw [hpause.1.task_eq]
    exact hcached
  · rintro failure hfailure
    obtain ⟨code, message, rfl, rfl | rfl⟩ := hpause.2 failure hfailure <;> rfl
  · exact ⟨(hworld.kept hpause.1).trans hfinished.1, fun hdeclined =>
      hpause.1.follows.noneOverdue (hfinished.2 hdeclined)⟩

theorem commitInterleaved_declining (invocation : ActorInvocation) (ownerEpoch : Nat)
    (outcome : ActorInterleavedOutcome) (origin : CommitOrigin) (hworld : Backs world)
    (hsent : SentId invocation.requestId world.trace) :
    (commitInterleaved invocation ownerEpoch outcome origin).Meets declining
      (fun _ w => Kept world w) world := by
  refine (pausing_declining ensureAuthority_pauses).seq (fun _ w hpause => ?_) fun _ w hpause =>
    hworld.kept hpause.1
  refine Prog.Meets.bind (Prog.meets_lift.mpr ?_)
  cases validateSocketEffects outcome.effects with
  | error error => exact hworld.kept hpause.1
  | ok _ =>
      refine Prog.Meets.bind (meets_getTask.mpr (Prog.Meets.bind (meets_setTask.mpr ⟨id, ?_⟩)))
      have hfollows : Follows world { w with task := { w.task with cachedState := none } } :=
        hpause.1.follows.setTask rfl
      refine Prog.Meets.bind (Prog.meets_context.mpr ⟨fun cached hsome => ?_, fun _ =>
        kept_of_none hfollows rfl⟩)
      refine Prog.Meets.bind (Prog.meets_ensure.mpr ⟨fun _ => ?_, fun _ =>
        kept_of_none hfollows rfl⟩)
      have hbacked : Backed cached w.trace := hworld.pause hpause.1 cached hsome
      have hcomplete : ∀ w stateVersion, Kept world w →
          (completeWithState invocation.actor stateVersion outcome.result outcome.effects).Meets
            declining (fun _ w' => Kept world w') w := by
        intro w stateVersion hkept
        exact (completeWithState_declining _ _ _ _).mono fun r w' hcompleted =>
          hkept.trans (hkept.2.kept hcompleted.1)
      dsimp only
      split
      · exact Prog.Meets.bind (putCached_declining hfollows hbacked fun w₁ hkept _ =>
          hcomplete w₁ _ hkept)
      · refine (publishResult_total ownerEpoch cached outcome.result outcome.state
          { origin with interleaved := true }).seq (publishResult_declining invocation ownerEpoch
            outcome.result outcome.state _ (hbacked.follows ((Follows.refl w).setTask rfl))
            (hfollows.sentId hsent)) fun published w₁ hpublished => ?_
        obtain ⟨⟨hfollows', -⟩, hbacked', -⟩ := hpublished
        refine Prog.Meets.bind (putCached_declining (hfollows.trans hfollows') hbacked'
          fun w₂ hkept _ => Prog.Meets.bind (Prog.meets_lift.mpr ?_))
        cases published.1 with
        | error error => exact hkept
        | ok _ => exact hcomplete w₂ _ hkept

theorem activateActor_declining (actor : ActorKey) (hworld : Backs world) :
    (activateActor actor).Meets declining (fun _ w => Kept world w) world := by
  refine (pausing_declining ensureAuthority_pauses).seq (fun _ w hpause => ?_) fun _ w hpause =>
    hworld.kept hpause.1
  refine Prog.Meets.bind (meets_getTask.mpr ?_)
  dsimp only
  cases w.task.activation with
  | some activation => exact hworld.kept hpause.1
  | none =>
      have hhydrate : ∀ (activation : ActorActivation) (w₂ : World), Kept world w₂ →
          (do
            let task ← getTask
            hydrate actor (task.cachedState.bind CachedActorState.state)
            ensureAuthority
            modifyTask fun task => { task with activation := some activation }
            return activation : Run ActorActivation).Meets declining
              (fun _ w => Kept world w) w₂ := by
        intro activation w₂ hkept
        refine Prog.Meets.bind (meets_getTask.mpr ?_)
        refine Prog.Meets.bind (meets_quiet_declining rfl (fun _ => ⟨rfl, rfl⟩) fun answer _ =>
          Prog.meets_lift.mpr ?_)
        have hlog : Kept world (w₂.log ⟨.hydrate actor
            (w₂.task.cachedState.bind CachedActorState.state), answer⟩) :=
          ⟨hkept.1.log rfl, fun cached hcached => (hkept.2 cached hcached).follows
            ((Follows.refl w₂).log rfl)⟩
        cases answer with
        | error error => exact hlog
        | ok _ =>
            refine (pausing_declining ensureAuthority_pauses).seq (fun _ w₃ hpause => ?_)
              fun _ w₃ hpause => hlog.trans (hlog.2.kept hpause.1)
            have hkept' := hlog.trans (hlog.2.kept hpause.1)
            exact Prog.Meets.bind (meets_modifyTask.mpr ⟨id, hkept'.1.setTask rfl, hkept'.2⟩)
      have hput : ∀ (activation : ActorActivation) (cached : CachedActorState) (w₁ : World),
          cached.pending = none → Kept world w₁ → (do
            putCached cached
            let task ← getTask
            hydrate actor (task.cachedState.bind CachedActorState.state)
            ensureAuthority
            modifyTask fun task => { task with activation := some activation }
            return activation : Run ActorActivation).Meets declining
              (fun _ w => Kept world w) w₁ := by
        intro activation cached w₁ hpending hkept
        refine Prog.Meets.bind (putCached_declining hkept.1 (by simp [Backed, hpending])
          fun w₂ hkept' _ => hhydrate _ _ hkept')
      refine (pausing_declining (acquireActor_pauses actor)).seq (fun activation w₁ hpause₁ => ?_)
        fun _ w₁ hpause₁ => hworld.kept (hpause.1.trans hpause₁.1)
      have hkept := hworld.kept (hpause.1.trans hpause₁.1)
      split
      · split
        · exact hput _ _ _ rfl hkept
        · refine Prog.Meets.bind (Prog.meets_context.mpr ⟨fun bytes _ => ?_, fun _ => hkept⟩)
          refine Prog.Meets.bind (Prog.meets_lift.mpr ?_)
          cases hfrom : CachedActorState.fromLoaded activation.ownerEpoch activation.stateVersion
              (some bytes) with
          | error error => exact hkept
          | ok cached => exact hput _ _ _ (fromLoaded_eq_ok hfrom).1 hkept
      · exact hhydrate _ _ hkept

/-! ## Accounting for requests -/

/-- Requests that were sent or answered had come in; those in flight were sent and not answered,
and those whose outcome is held back were sent and have ended. -/
structure Accounted (events : List Entry) (running : List (Nat × ActorRequest))
    (ready : List (Nat × Nat × ActorRequest × ActorInterleavedOutcome)) : Prop where
  sentKnown : ∀ entry ∈ events, ∀ request, sentRequest entry = some request →
    ¬ Unused request.ticket events
  answeredKnown : ∀ entry ∈ events, ∀ request, answeredRequest entry = some request →
    ¬ Unused request.ticket events
  runningSent : ∀ entry ∈ running, SentId entry.2.operation.invocation.requestId events
  runningUnanswered : ∀ entry ∈ running, Unanswered entry.2.ticket events
  readySent : ∀ entry ∈ ready, SentId entry.2.2.1.operation.invocation.requestId events
  readyExecuted : ∀ entry ∈ ready, ∃ event ∈ events,
    executedTicket event = some entry.2.2.1.ticket

theorem Unanswered.cons {ticket : Nat} {events : List Entry} (h : Unanswered ticket events)
    {event : Entry}
    (hevent : ∀ request, answeredRequest event = some request → request.ticket ≠ ticket) :
    Unanswered ticket (event :: events) := by
  intro entry hentry
  rcases List.mem_cons.mp hentry with rfl | hmem
  · exact hevent
  · exact h entry hmem

theorem Unsent.cons {ticket : Nat} {events : List Entry} (h : Unsent ticket events) {event : Entry}
    (hevent : ∀ request, sentRequest event = some request → request.ticket ≠ ticket) :
    Unsent ticket (event :: events) := by
  intro entry hentry
  rcases List.mem_cons.mp hentry with rfl | hmem
  · exact hevent
  · exact h entry hmem

namespace Accounted

variable {events : List Entry} {running : List (Nat × ActorRequest)}
variable {ready : List (Nat × Nat × ActorRequest × ActorInterleavedOutcome)}

/-- An event keeps the account when what it sends or answers had come in and it answers nothing
in flight. -/
theorem cons (h : Accounted events running ready) {event : Entry}
    (hsent : ∀ request, sentRequest event = some request → ¬ Unused request.ticket events)
    (hanswered : ∀ request, answeredRequest event = some request →
      ¬ Unused request.ticket events ∧ ∀ entry ∈ running, entry.2.ticket ≠ request.ticket) :
    Accounted (event :: events) running ready where
  sentKnown := by
    intro entry hentry request hrequest hunused
    rcases List.mem_cons.mp hentry with rfl | hmem
    · exact hsent request hrequest (unused_of_cons hunused)
    · exact h.sentKnown entry hmem request hrequest (unused_of_cons hunused)
  answeredKnown := by
    intro entry hentry request hrequest hunused
    rcases List.mem_cons.mp hentry with rfl | hmem
    · exact (hanswered request hrequest).1 (unused_of_cons hunused)
    · exact h.answeredKnown entry hmem request hrequest (unused_of_cons hunused)
  runningSent := fun entry hentry => (h.runningSent entry hentry).cons _
  runningUnanswered := fun entry hentry => (h.runningUnanswered entry hentry).cons
    fun request hrequest => ((hanswered request hrequest).2 entry hentry).symm
  readySent := fun entry hentry => (h.readySent entry hentry).cons _
  readyExecuted := by
    intro entry hentry
    obtain ⟨executed, hexecuted, hticket⟩ := h.readyExecuted entry hentry
    exact ⟨executed, List.mem_cons_of_mem _ hexecuted, hticket⟩

/-- Fewer requests are in flight or held back. -/
theorem shrink (h : Accounted events running ready) {running' : List (Nat × ActorRequest)}
    {ready' : List (Nat × Nat × ActorRequest × ActorInterleavedOutcome)}
    (hrunning : ∀ entry ∈ running', entry ∈ running) (hready : ∀ entry ∈ ready', entry ∈ ready) :
    Accounted events running' ready' where
  sentKnown := h.sentKnown
  answeredKnown := h.answeredKnown
  runningSent := fun entry hentry => h.runningSent entry (hrunning entry hentry)
  runningUnanswered := fun entry hentry => h.runningUnanswered entry (hrunning entry hentry)
  readySent := fun entry hentry => h.readySent entry (hready entry hentry)
  readyExecuted := fun entry hentry => h.readyExecuted entry (hready entry hentry)

/-- A request that has just come in was neither sent nor answered. -/
theorem newcomer (h : Accounted events running ready) {ticket : Nat} (hunused : Unused ticket events) :
    Unsent ticket events ∧ Unanswered ticket events := by
  constructor
  · rintro entry hentry request hrequest rfl
    exact h.sentKnown entry hentry request hrequest hunused
  · rintro entry hentry request hrequest rfl
    exact h.answeredKnown entry hentry request hrequest hunused

/-- A request is handed to the executor. -/
theorem start (h : Accounted events running ready) {id : Nat} {request : ActorRequest}
    {state : Option Value} (hreceived : ¬ Unused request.ticket events)
    (hunanswered : Unanswered request.ticket events) :
    Accounted (⟨.start id request state, ()⟩ :: events) (running ++ [(id, request)]) ready := by
  have hcons : Accounted (⟨.start id request state, ()⟩ :: events) running ready := by
    refine h.cons ?_ (by nofun)
    rintro _ ⟨⟩
    exact hreceived
  refine { hcons with runningSent := ?_, runningUnanswered := ?_ }
  · intro entry hentry
    rcases List.mem_append.mp hentry with hmem | hmem
    · exact hcons.runningSent entry hmem
    · obtain rfl := List.mem_singleton.mp hmem
      exact ⟨_, List.mem_cons_self, request, rfl, rfl⟩
  · intro entry hentry
    rcases List.mem_append.mp hentry with hmem | hmem
    · exact hcons.runningUnanswered entry hmem
    · obtain rfl := List.mem_singleton.mp hmem
      exact hunanswered.cons (by nofun)

/-- An outcome is held back. -/
theorem hold (h : Accounted events running ready) {id : Nat} {request : ActorRequest}
    {outcome : ActorInterleavedOutcome} {event : Entry} (hevent : event ∈ events)
    (hticket : executedTicket event = some request.ticket)
    (hsent : SentId request.operation.invocation.requestId events) :
    Accounted events running ((outcome.sequence, id, request, outcome) :: ready) := by
  refine { h with readySent := ?_, readyExecuted := ?_ }
  · intro entry hentry
    rcases List.mem_cons.mp hentry with rfl | hmem
    · exact hsent
    · exact h.readySent entry hmem
  · intro entry hentry
    rcases List.mem_cons.mp hentry with rfl | hmem
    · exact ⟨event, hevent, hticket⟩
    · exact h.readyExecuted entry hmem

end Accounted

/-! ## The admission loop -/

/-- The mailbox between two of its steps. -/
structure Honest (world : World) : Prop where
  flight : InFlight (journal world.trace) world.task.running
  account : Accounted (journal world.trace) world.task.running world.task.ready
  backs : Backs world
  serial : world.task.interleaved = false →
    (world.task.running = [] ∧ world.task.blockedOn = none) ∨
      ∃ id request, world.task.running = [(id, request)] ∧ world.task.blockedOn = some id
  /-- An execution that runs alone leaves the cached state in place. -/
  cached : world.task.interleaved = false → world.task.running ≠ [] →
    world.task.cachedState.isSome

/-- What the loop needs from a step that lets it go on. -/
def GoesOn (continued : Bool) (world : World) : Prop := continued = true → Honest world

/-- The rule for answering a request. -/
theorem answer_declining (request : ActorRequest) (result : Except Error ActorExecutionResult)
    {post : Except Error Bool → World → Prop}
    (hdeclined : isDeclined result → request.operation.isMethod → Unsent request.ticket world.trace)
    (hpost : ∀ sent, post (.ok sent) (world.log ⟨.answer request result, sent⟩)) :
    (answer request result).Meets declining post world := by
  refine (meets_service rfl).mpr fun sent _ => ⟨fun htruthful => ?_, hpost sent⟩
  refine htruthful.cons (fun other hother hmethod => ?_) (by nofun) (by nofun)
  unfold declinedRequest at hother
  dsimp only at hother
  split at hother
  · cases hother
    exact hdeclined ‹_› hmethod
  · cases hother

theorem finish_declining (request : ActorRequest) (result : Except Error ActorExecutionResult)
    {post : Except Error Unit → World → Prop}
    (hdeclined : isDeclined result → request.operation.isMethod → Unsent request.ticket world.trace)
    (hpost : ∀ sent, post (.ok ()) (world.log ⟨.answer request result, sent⟩)) :
    (finish request result).Meets declining post world :=
  Prog.Meets.bind (answer_declining request result hdeclined hpost)

theorem stop_declining (request : ActorRequest) :
    (stop request).Meets declining (Prog.onOk GoesOn) world := by
  refine Prog.Meets.bind (evict_declining fun w _ => ?_)
  refine Prog.Meets.bind (finish_declining request _ (by nofun) fun sent => ?_)
  exact fun hcontinued => by cases hcontinued

/-- A request that is being admitted. -/
structure Newcomer (request : ActorRequest) (world : World) : Prop where
  fresh : Fresh (journal world.trace) world.task.running request
  unsent : Unsent request.ticket world.trace
  unanswered : Unanswered request.ticket world.trace
  arrived : Arrived request world.trace

theorem Newcomer.follows {request : ActorRequest} {w : World} (h : Newcomer request world)
    (hfollows : Follows world w) : Newcomer request w where
  fresh := by
    rw [hfollows.journal_eq, hfollows.field_eq Task.running fun _ => rfl]
    exact h.fresh
  unsent := hfollows.unsent h.unsent
  unanswered := hfollows.unanswered h.unanswered
  arrived := hfollows.arrived h.arrived

/-- A runtime function that leaves the mailbox alone leaves it at rest, provided that nothing runs
alone meanwhile. -/
theorem Honest.kept (h : Honest world) {w : World} (hkept : Kept world w)
    (hidle : world.task.blockedOn = none) : Honest w := by
  have hrunning := hkept.1.field_eq Task.running fun _ => rfl
  have hready := hkept.1.field_eq Task.ready fun _ => rfl
  have hinterleaved := hkept.1.field_eq Task.interleaved fun _ => rfl
  have hblocked := hkept.1.field_eq Task.blockedOn fun _ => rfl
  refine ⟨?_, ?_, hkept.2, ?_, ?_⟩
  · rw [hkept.1.journal_eq, hrunning]
    exact h.flight
  · rw [hkept.1.journal_eq, hrunning, hready]
    exact h.account
  · rw [hinterleaved, hrunning, hblocked]
    exact h.serial
  · rw [hinterleaved, hrunning]
    intro hserial hbusy
    obtain ⟨hnone, -⟩ | ⟨id, request, -, hblocked⟩ := h.serial hserial
    · exact absurd hnone hbusy
    · rw [hidle] at hblocked
      cases hblocked

/-- An answer to a request that is not in flight leaves the mailbox at rest. -/
theorem Honest.answer (h : Honest world) {request : ActorRequest}
    (hreceived : ¬ Unused request.ticket (journal world.trace))
    (hother : ∀ entry ∈ world.task.running, entry.2.ticket ≠ request.ticket)
    (result : Except Error ActorExecutionResult) (sent : Bool) :
    Honest (world.log ⟨.answer request result, sent⟩) where
  flight := h.flight.cons rfl
  account := by
    refine h.account.cons (by nofun) ?_
    rintro _ ⟨⟩
    exact ⟨hreceived, hother⟩
  backs := fun cached hcached => (h.backs cached hcached).cons _
  serial := h.serial
  cached := h.cached

theorem admitRequest_declining (request : ActorRequest) (accepting : Bool) (hhonest : Honest world)
    (hidle : world.task.blockedOn = none) (hnew : Newcomer request world) :
    (admitRequest request accepting).Meets declining (Prog.onOk GoesOn) world := by
  have hanswer : ∀ (w : World), Honest w → Newcomer request w → ∀ result,
      (do
        finish request result
        return true : Run Bool).Meets declining (Prog.onOk GoesOn) w := by
    intro w hhonest hnew result
    refine Prog.Meets.bind (finish_declining request result (fun _ _ => hnew.unsent) fun sent => ?_)
    exact fun _ => hhonest.answer hnew.fresh.received hnew.fresh.notRunning result sent
  have hprepared : ∀ invocation replay,
      (admitInvocation request invocation replay).Meets declining (Prog.onOk GoesOn) world := by
    intro invocation replay
    refine Prog.Meets.bind (Prog.Meets.attempt ((prepareInvocation_declining invocation
      request.ownerEpoch replay hhonest.backs).mono fun prepared w hprepared => ?_))
    have hhonest' := hhonest.kept hprepared.1 hidle
    have hnew' := hnew.follows hprepared.1.1
    cases prepared with
    | error error => exact stop_declining request
    | ok prepared =>
        cases prepared with
        | completed result => exact hanswer w hhonest' hnew' _
        | execute state =>
            refine Prog.Meets.bind (meets_getTask.mpr (Prog.Meets.bind (meets_setTask.mpr
              ⟨id, (meets_service rfl).mpr fun _ _ => ⟨fun htruthful => ?_, fun _ => ?_⟩⟩)))
            · refine htruthful.cons (by nofun) ?_ (by nofun)
              rintro _ ⟨⟩
              exact ⟨hnew'.unanswered, hnew'.arrived⟩
            have hfree : w.task.blockedOn = none := by
              rw [hprepared.1.1.field_eq Task.blockedOn fun _ => rfl, hidle]
            exact {
              flight := (hhonest'.flight.start hnew'.fresh _).cons rfl
              account := hhonest'.account.start hnew'.fresh.received
                (unanswered_journal.mpr hnew'.unanswered)
              backs := fun cached hcached => (hhonest'.backs cached hcached).cons _
              serial := by
                intro hserial
                obtain ⟨hrunning, -⟩ | ⟨id, other, -, hbusy⟩ := hhonest'.serial hserial
                · exact .inr ⟨w.task.nextInvocation + 1, request, by simp [hrunning], rfl⟩
                · rw [hfree] at hbusy
                  cases hbusy
              cached := fun _ _ => hprepared.2 }
  unfold admitRequest
  split
  · exact hanswer world hhonest hnew _
  · cases hoperation : request.operation with
    | activate actor =>
        refine Prog.Meets.bind (Prog.Meets.attempt ((activateActor_declining actor
          hhonest.backs).mono fun result w hkept => ?_))
        have hhonest' := hhonest.kept hkept hidle
        have hnew' := hnew.follows hkept.1
        refine Prog.Meets.bind (finish_declining request _ (by nofun) fun sent => ?_)
        exact fun _ => hhonest'.answer hnew'.fresh.received hnew'.fresh.notRunning _ sent
    | method invocation => exact hprepared _ _
    | socket invocation => exact hprepared _ _

/-- The rule for letting the next request in. -/
theorem release_declining {id : Nat} {post : Except Error Unit → World → Prop}
    (h : post (.ok ()) { world with task :=
      if world.task.blockedOn = some id then { world.task with blockedOn := none }
      else world.task }) :
    (release id).Meets declining post world :=
  meets_modifyTask.mpr ⟨fun htruthful => htruthful, h⟩

theorem Honest.release (h : Honest world) (hinterleaved : world.task.interleaved = true)
    (id : Nat) :
    Honest { world with task :=
      if world.task.blockedOn = some id then { world.task with blockedOn := none }
      else world.task } := by
  split
  · exact {
      flight := h.flight
      account := h.account
      backs := h.backs
      serial := by simp [hinterleaved]
      cached := by simp [hinterleaved] }
  · exact h

theorem leaveMark_declining (mark : Mark) {post : Except Error Unit → World → Prop}
    (hpost : post (.ok ()) (world.log ⟨.mark mark, ()⟩)) :
    (leaveMark mark).Meets declining post world :=
  (meets_service rfl).mpr fun _ _ =>
    ⟨fun htruthful => htruthful.cons (by nofun) (by nofun) (by nofun), hpost⟩

theorem commitReady_declining (fuel : Nat) (hhonest : Honest world)
    (hinterleaved : world.task.interleaved = true) :
    (commitReady fuel).Meets declining (Prog.onOk GoesOn) world := by
  induction fuel generalizing world with
  | zero => exact fun _ => hhonest
  | succ fuel ih =>
      unfold commitReady
      refine Prog.Meets.bind (meets_getTask.mpr ?_)
      dsimp only
      cases hfind : world.task.ready.find? fun entry => entry.1 = world.task.nextSequence with
      | none => exact fun _ => hhonest
      | some entry =>
          obtain ⟨sequence, id, request, outcome⟩ := entry
          have hmem := List.mem_of_find?_eq_some hfind
          refine Prog.Meets.bind (meets_setTask.mpr ⟨fun htruthful => htruthful, ?_⟩)
          refine Prog.Meets.bind (leaveMark_declining _ ?_)
          refine Prog.Meets.bind (Prog.Meets.attempt ((commitInterleaved_declining
            request.operation.invocation request.ownerEpoch outcome request.operation.commitOrigin
            ?_ ?_).mono fun committed w hkept => ?_))
          · exact fun cached hcached => (hhonest.backs cached hcached).cons _
          · exact (sentId_journal.mp (hhonest.account.readySent _ hmem)).cons _
          have hstop : ∀ w : World, (do
              leaveMark (.commitEnds outcome.sequence false)
              stop request : Run Bool).Meets declining (Prog.onOk GoesOn) w :=
            fun w => Prog.Meets.bind (leaveMark_declining _ (stop_declining request))
          cases committed with
          | error error => exact hstop w
          | ok committed =>
              cases committed with
              | completed result effects =>
                  have hrunning : w.task.running = world.task.running :=
                    hkept.1.field_eq Task.running fun _ => rfl
                  have hready : w.task.ready = world.task.ready.filter fun entry =>
                    ¬ entry.1 = world.task.nextSequence := hkept.1.field_eq Task.ready fun _ => rfl
                  have hmode : w.task.interleaved = true :=
                    (hkept.1.field_eq Task.interleaved fun _ => rfl).trans hinterleaved
                  have hjournal : journal w.trace =
                    ⟨.mark (.commitBegins request outcome), ()⟩ :: journal world.trace :=
                    hkept.1.journal_eq
                  have hhonest' : Honest (World.log { w with
                      task := { w.task with nextSequence := w.task.nextSequence + 1 } }
                      ⟨.mark (.commitEnds outcome.sequence true), ()⟩) := {
                    flight := by
                      show InFlight (_ :: journal w.trace) w.task.running
                      rw [hjournal, hrunning]
                      exact (hhonest.flight.cons rfl).cons rfl
                    account := by
                      show Accounted (_ :: journal w.trace) w.task.running w.task.ready
                      rw [hjournal, hrunning, hready]
                      refine (((hhonest.account.shrink (fun _ h => h) fun _ h =>
                        List.mem_of_mem_filter h).cons ?_ ?_).cons ?_ ?_) <;> nofun
                    backs := fun cached hcached => (hkept.2 cached hcached).cons _
                    serial := by
                      show w.task.interleaved = false → _
                      simp [hmode]
                    cached := by
                      show w.task.interleaved = false → _
                      simp [hmode] }
                  refine Prog.Meets.bind (leaveMark_declining _ ?_)
                  refine Prog.Meets.bind (meets_modifyTask.mpr ⟨fun htruthful => htruthful, ?_⟩)
                  refine Prog.Meets.bind (finish_declining request _ (by nofun) fun sent => ?_)
                  refine Prog.Meets.bind (release_declining ?_)
                  obtain ⟨event, hevent, hticket⟩ := hhonest.account.readyExecuted _ hmem
                  refine ih ((hhonest'.answer ?_ ?_ _ sent).release hmode id) ?_
                  · intro hunused
                    have hboth : Unused request.ticket (_ :: journal w.trace) := hunused
                    rw [hjournal] at hboth
                    exact hhonest.flight.executedReceived event hevent _ hticket
                      (unused_of_cons (unused_of_cons hboth))
                  · intro entry hentry hsame
                    have hmine : entry ∈ world.task.running := hrunning ▸ hentry
                    exact hhonest.flight.notExecuted entry hmine event hevent (hsame ▸ hticket)
                  · dsimp only
                    split
                    · exact hmode
                    · exact hmode
              | _ => exact hstop w

/-- An execution has ended and its outcome is being taken. -/
structure Ended (id : Nat) (request : ActorRequest) (world : World) : Prop where
  flight : InFlight (journal world.trace) world.task.running
  account : Accounted (journal world.trace) world.task.running world.task.ready
  backs : Backs world
  serial : world.task.interleaved = false →
    world.task.running = [] ∧ world.task.blockedOn = some id ∧ world.task.cachedState.isSome
  sent : SentId request.operation.invocation.requestId world.trace
  unanswered : Unanswered request.ticket world.trace
  received : ¬ Unused request.ticket (journal world.trace)
  notRunning : ∀ entry ∈ world.task.running, entry.2.ticket ≠ request.ticket

theorem Ended.honest {id : Nat} {request : ActorRequest} (h : Ended id request world)
    (hinterleaved : world.task.interleaved = true) : Honest world where
  flight := h.flight
  account := h.account
  backs := h.backs
  serial := by simp [hinterleaved]
  cached := by simp [hinterleaved]

theorem Honest.ended (h : Honest world) {id : Nat} {request : ActorRequest}
    {result : Except Error ActorMethodOutcome} (hrunning : (id, request) ∈ world.task.running) :
    Ended id request (World.log { world with task := { world.task with
      running := world.task.running.filter fun entry => ¬ entry.1 = id } }
      ⟨.select, .executed id request result⟩) where
  flight := h.flight.executed hrunning
  account := (h.account.cons (by nofun) (by nofun)).shrink
    (fun _ hmem => List.mem_of_mem_filter hmem) fun _ hmem => hmem
  backs := fun cached hcached => (h.backs cached hcached).cons _
  serial := by
    intro hserial
    have hsome := h.cached hserial (List.ne_nil_of_mem hrunning)
    obtain ⟨hnone, -⟩ | ⟨id', request', hone, hblocked⟩ := h.serial hserial
    · rw [hnone] at hrunning
      cases hrunning
    · rw [hone] at hrunning
      obtain ⟨rfl, rfl⟩ := Prod.mk.inj (List.mem_singleton.mp hrunning)
      exact ⟨by simp [hone], hblocked, hsome⟩
  sent := (sentId_journal.mp (h.account.runningSent _ hrunning)).cons _
  unanswered := (unanswered_journal.mp (h.account.runningUnanswered _ hrunning)).cons (by nofun)
  received := fun hunused => h.flight.received _ hrunning (unused_of_cons hunused)
  notRunning := by
    intro entry hentry hticket
    exact (h.flight.executed hrunning).notExecuted entry hentry
      ⟨.select, .executed id request result⟩ List.mem_cons_self (by rw [hticket]; rfl)

/-- An outcome that is no interleaved one is answered with what became of it. -/
theorem executedAlone_declining (id : Nat) (request : ActorRequest)
    (result : Except Error ActorMethodOutcome) (hended : Ended id request world)
    (hoverdue : request.operation.isMethod → Overdue request world.trace) :
    (executedAlone id request result).Meets declining (Prog.onOk GoesOn) world := by
  unfold executedAlone
  refine Prog.Meets.bind (meets_getTask.mpr ?_)
  dsimp only
  split
  · rename_i hinterleaved
    have hhonest := hended.honest hinterleaved
    split
    · split
      · refine Prog.Meets.bind (finish_declining request _ (by nofun) fun sent => ?_)
        refine Prog.Meets.bind (release_declining ?_)
        exact fun _ => (hhonest.answer hended.received hended.notRunning _ sent).release
          hinterleaved id
      · exact stop_declining request
    · exact stop_declining request
  · rename_i hserial
    obtain ⟨hnone, hblocked, hsome⟩ := hended.serial (by simpa using hserial)
    refine Prog.Meets.bind (Prog.Meets.attempt ((finishSerial_declining
      request.operation.invocation request.ownerEpoch result request.operation.commitOrigin
      hended.backs hsome hended.sent).mono fun finished w hfinished => ?_))
    obtain ⟨hkept, hdeclined⟩ := hfinished
    have hrunning : w.task.running = [] :=
      (hkept.1.field_eq Task.running fun _ => rfl).trans hnone
    refine Prog.Meets.bind (finish_declining request _ (fun hfailed hmethod => ?_) fun sent => ?_)
    · exact absurd (hoverdue hmethod) (hdeclined hfailed request)
    · refine Prog.Meets.bind (release_declining fun _ => ?_)
      have hblocked' : w.task.blockedOn = some id :=
        (hkept.1.field_eq Task.blockedOn fun _ => rfl).trans hblocked
      have hready := hkept.1.field_eq Task.ready fun _ => rfl
      split
      · exact {
          flight := by
            show InFlight (_ :: journal w.trace) w.task.running
            rw [hkept.1.journal_eq, hkept.1.field_eq Task.running fun _ => rfl]
            exact hended.flight.cons rfl
          account := by
            show Accounted (_ :: journal w.trace) w.task.running w.task.ready
            rw [hkept.1.journal_eq, hkept.1.field_eq Task.running fun _ => rfl, hready]
            refine hended.account.cons (by nofun) ?_
            rintro _ ⟨⟩
            exact ⟨hended.received, hended.notRunning⟩
          backs := fun cached hcached => (hkept.2 cached hcached).cons _
          serial := fun _ => .inl ⟨hrunning, rfl⟩
          cached := fun _ hbusy => absurd hrunning hbusy }
      · rename_i hother
        exact absurd hblocked' hother

theorem executed_declining (id : Nat) (request : ActorRequest)
    (result : Except Error ActorMethodOutcome) (hended : Ended id request world)
    (harrived : ⟨.select, .executed id request result⟩ ∈ world.trace) :
    (executed id request result).Meets declining (Prog.onOk GoesOn) world := by
  unfold executed
  split
  · rename_i outcome
    refine Prog.Meets.bind (meets_modifyTask.mpr ⟨fun htruthful => htruthful, ?_⟩)
    refine Prog.Meets.bind (meets_getTask.mpr ?_)
    dsimp only
    split
    · exact stop_declining request
    · refine Prog.Meets.bind (meets_setTask.mpr ⟨fun htruthful => htruthful, ?_⟩)
      refine commitReady_declining _ ?_ rfl
      exact {
        flight := hended.flight
        account := hended.account.hold ((mem_journal rfl).mpr harrived) rfl
          (sentId_journal.mpr hended.sent)
        backs := hended.backs
        serial := by nofun
        cached := by nofun }
  · rename_i halone
    refine executedAlone_declining id request result hended fun hmethod => ?_
    refine ⟨⟨_, harrived, ?_⟩, hended.unanswered, hmethod⟩
    unfold ownOutcome
    split
    · rename_i heq
      cases heq
    · rename_i heq
      cases heq
      exact absurd rfl (halone _)
    · rename_i heq
      cases heq
      rfl
    · rename_i hnot
      exact absurd rfl (hnot _ _ _)

theorem admissionLoop_declining (fuel : Nat) (hhonest : Honest world) :
    (admissionLoop fuel).Meets declining (fun _ _ => True) world := by
  induction fuel generalizing world with
  | zero => trivial
  | succ fuel ih =>
      have hcontinue : ∀ (step : Run Bool) (w : World),
          step.Meets declining (Prog.onOk GoesOn) w →
          (do if ← step then admissionLoop fuel else return () : Run Unit).Meets declining
            (fun _ _ => True) w := by
        intro step w hstep
        refine hstep.seq (fun continued w' hcontinues => ?_) fun _ _ _ => trivial
        cases continued with
        | false => trivial
        | true => exact ih (hcontinues rfl)
      unfold admissionLoop
      refine Prog.Meets.bind ((meets_service rfl).mpr fun wakeup hwakeup => ⟨fun htruthful =>
        htruthful.cons (by nofun) (by nofun) (by nofun), ?_⟩)
      have henabled := hwakeup.1
      cases wakeup with
      | executed id request result =>
          refine Prog.Meets.bind (meets_modifyTask.mpr ⟨fun htruthful => htruthful, ?_⟩)
          exact hcontinue _ _ (executed_declining id request result
            (hhonest.ended henabled.1) List.mem_cons_self)
      | permission granted =>
          cases granted with
          | false => trivial
          | true =>
              refine Prog.Meets.bind (meets_modifyTask.mpr ⟨fun htruthful => htruthful, ih ?_⟩)
              exact {
                flight := hhonest.flight.cons rfl
                account := hhonest.account.cons (by nofun) (by nofun)
                backs := fun cached hcached => (hhonest.backs cached hcached).cons _
                serial := by nofun
                cached := by nofun }
      | request request accepting =>
          have hlog : Honest (world.log ⟨.select, .request request accepting⟩) := {
            flight := hhonest.flight.cons rfl
            account := hhonest.account.cons (by nofun) (by nofun)
            backs := fun cached hcached => (hhonest.backs cached hcached).cons _
            serial := hhonest.serial
            cached := hhonest.cached }
          cases request with
          | none =>
              refine Prog.Meets.bind (meets_modifyTask.mpr ⟨fun htruthful => htruthful, ih ?_⟩)
              exact {
                flight := hlog.flight
                account := hlog.account
                backs := hlog.backs
                serial := hlog.serial
                cached := hlog.cached }
          | some request =>
              obtain ⟨⟨-, hidle⟩, harrived⟩ := henabled
              have hunused := harrived request rfl
              obtain ⟨hunsent, hunanswered⟩ := hhonest.account.newcomer (unused_journal hunused)
              refine Prog.Meets.bind (meets_quiet_declining rfl (fun _ => ⟨rfl, rfl⟩) fun _ _ => ?_)
              refine hcontinue _ _ (admitRequest_declining request accepting ?_ hidle ?_)
              · exact hlog.kept ⟨(Follows.refl _).log rfl, fun cached hcached =>
                  (hlog.backs cached hcached).cons _⟩ hidle
              · exact {
                  fresh := hhonest.flight.fresh (unused_journal hunused)
                  unsent := ((unsent_journal.mp hunsent).cons (by nofun)).cons (by nofun)
                  unanswered :=
                    ((unanswered_journal.mp hunanswered).cons (by nofun)).cons (by nofun)
                  arrived := ⟨_, List.mem_cons_of_mem _ List.mem_cons_self, rfl⟩ }
      | idle => trivial

/-! ## The serial loop -/

/-- The serial loop works on a request. -/
structure Serving (request : ActorRequest) (world : World) : Prop where
  account : Accounted (journal world.trace) [] []
  backs : Backs world
  unanswered : Unanswered request.ticket world.trace
  received : ¬ Unused request.ticket (journal world.trace)
  arrived : Arrived request world.trace

theorem Serving.kept {request : ActorRequest} (h : Serving request world) {w : World}
    (hkept : Kept world w) : Serving request w where
  account := by
    rw [hkept.1.journal_eq]
    exact h.account
  backs := hkept.2
  unanswered := hkept.1.unanswered h.unanswered
  received := by
    rw [hkept.1.journal_eq]
    exact h.received
  arrived := hkept.1.arrived h.arrived

/-- The request is handed to the executor. -/
theorem Serving.send {request : ActorRequest} (h : Serving request world) {event : Entry}
    (hevent : isEvent event) (hsent : sentRequest event = some request)
    (hanswered : answeredRequest event = none) : Serving request (world.log event) where
  account := by
    have hjournal : journal (world.log event).trace = event :: journal world.trace := by
      simp [journal, hevent]
    rw [hjournal]
    refine h.account.cons (fun other hother => ?_) (by simp [hanswered])
    rw [hsent] at hother
    cases hother
    exact h.received
  backs := fun cached hcached => (h.backs cached hcached).cons _
  unanswered := h.unanswered.cons (by simp [hanswered])
  received := by
    intro hunused
    refine h.received (fun entry hentry => hunused entry ?_)
    rw [World.log_trace, journal, List.filter_cons_of_pos (by simpa using hevent)]
    exact List.mem_cons_of_mem _ hentry
  arrived := h.arrived.cons _

/-- The rule for handing a request to the executor. -/
theorem meets_send {request : ActorRequest} {op : Op} (hop : op.isService)
    (hsends : ∀ answer, isEvent ⟨op, answer⟩ ∧ sentRequest ⟨op, answer⟩ = some request ∧
      answeredRequest ⟨op, answer⟩ = none ∧ writtenId ⟨op, answer⟩ = none)
    {next : Ans op → Run α} {post : Except Error α → World → Prop} (hserving : Serving request world)
    (h : ∀ answer, Serving request (world.log ⟨op, answer⟩) →
      (next answer).Meets declining post (world.log ⟨op, answer⟩)) :
    (Prog.call (I := services) op next).Meets declining post world := by
  refine (meets_service hop).mpr fun answer _ => ?_
  obtain ⟨hevent, hsent, hanswered, hwritten⟩ := hsends answer
  refine ⟨fun htruthful => htruthful.cons (fun other hother => ?_) (fun other hother => ?_)
    (by simp [hwritten]), h answer (hserving.send hevent hsent hanswered)⟩
  · rw [declinedRequest_answered hother] at hanswered
    cases hanswered
  · rw [hsent] at hother
    cases hother
    exact ⟨hserving.unanswered, hserving.arrived⟩

/-- A method call that ran has a result of its own. -/
theorem invokeActorOnce_declining (request : ActorRequest) (invocation : ActorInvocation)
    (hoperation : request.operation = .method invocation) (hserving : Serving request world)
    (hunsent : Unsent request.ticket world.trace) :
    (invokeActorOnce request invocation request.ownerEpoch).Meets declining
      (fun r w => Serving request w ∧ (Unsent request.ticket w.trace ∨
        Overdue request w.trace ∧ isDeclined r = false)) world := by
  refine (prepareInvocation_declining _ _ _ hserving.backs).seq (fun prepared w hprepared => ?_)
    fun _ w hprepared => ⟨hserving.kept hprepared.1, .inl (hprepared.1.1.unsent hunsent)⟩
  have hserving₁ := hserving.kept hprepared.1
  cases prepared with
  | completed result => exact ⟨hserving₁, .inl (hprepared.1.1.unsent hunsent)⟩
  | execute state =>
      refine Prog.Meets.bind (meets_send rfl (fun _ => ⟨rfl, rfl, rfl, rfl⟩) hserving₁
        fun outcome hserving₂ => ?_)
      have hoverdue : Overdue request (w.log ⟨.invoke request state, outcome⟩).trace :=
        ⟨⟨_, List.mem_cons_self, rfl⟩, hserving₂.unanswered, by rw [hoperation]; rfl⟩
      have hsent : SentId invocation.requestId (w.log ⟨.invoke request state, outcome⟩).trace :=
        ⟨_, List.mem_cons_self, request, rfl, by rw [hoperation]; rfl⟩
      -- From here on it is the outcome of an execution that runs alone.
      refine (finishSerial_declining invocation request.ownerEpoch outcome {} hserving₂.backs
        hprepared.2 hsent).mono fun r w' hfinished => ?_
      obtain ⟨hkept, hdeclined⟩ := hfinished
      have hserving₃ := hserving₂.kept hkept
      refine ⟨hserving₃, .inr ⟨hkept.1.overdue hoverdue, ?_⟩⟩
      cases hresult : isDeclined r with
      | false => rfl
      | true => exact absurd hoverdue (hdeclined hresult request)

theorem invokeActor_declining (request : ActorRequest) (invocation : ActorInvocation)
    (hoperation : request.operation = .method invocation) (hserving : Serving request world)
    (hunsent : Unsent request.ticket world.trace) :
    (invokeActor request invocation request.ownerEpoch).Meets declining
      (fun r w => Serving request w ∧ (isDeclined r → Unsent request.ticket w.trace)) world := by
  refine ensureAuthority_declining.seq (fun _ w hpause => ?_) fun error w hpause =>
    ⟨hserving.kept (hserving.backs.kept hpause.1), fun _ => hpause.1.follows.unsent hunsent⟩
  refine Prog.Meets.bind (Prog.Meets.attempt ((invokeActorOnce_declining request invocation
    hoperation (hserving.kept (hserving.backs.kept hpause.1))
    (hpause.1.follows.unsent hunsent)).mono fun outcome w₁ houtcome => ?_))
  obtain ⟨hserving₁, hcases⟩ := houtcome
  refine ensureAuthority_declining.seq (fun _ w₂ hpause₂ => ?_) fun error w₂ hpause₂ => ?_
  · refine Prog.meets_lift.mpr ⟨hserving₁.kept (hserving₁.backs.kept hpause₂.1), fun hdeclined => ?_⟩
    obtain hunsent₁ | ⟨-, hanswerable⟩ := hcases
    · exact hpause₂.1.follows.unsent hunsent₁
    · rw [hanswerable] at hdeclined
      cases hdeclined
  · refine ⟨hserving₁.kept (hserving₁.backs.kept hpause₂.1), fun _ => ?_⟩
    obtain hunsent₁ | ⟨hoverdue, -⟩ := hcases
    · exact hpause₂.1.follows.unsent hunsent₁
    · exact absurd hoverdue (hpause₂.2 error rfl request)

/-- A socket handler has run, or could not be run. -/
theorem executeSocketEvent_declining (request : ActorRequest) (actor : ActorKey)
    (state : Option Value) (hserving : Serving request world)
    (hfree : world.task.cachedState = none) :
    (executeSocketEvent request actor state).Meets declining (Prog.always
      (fun w => Serving request w ∧ w.task.cachedState = none) fun _ w =>
        (∀ requestId, SentId requestId world.trace → SentId requestId w.trace) ∧
          SentId request.operation.invocation.requestId w.trace) world := by
  refine Prog.Meets.bind (meets_send rfl (fun _ => ⟨rfl, rfl, rfl, rfl⟩) hserving
    fun outcome hserving₁ => ?_)
  have hdone : (Serving request (world.log ⟨.handleSocket request state, outcome⟩) ∧
      world.task.cachedState = none) ∧
      (∀ requestId, SentId requestId world.trace →
        SentId requestId (world.log ⟨.handleSocket request state, outcome⟩).trace) ∧
      SentId request.operation.invocation.requestId
        (world.log ⟨.handleSocket request state, outcome⟩).trace :=
    ⟨⟨hserving₁, hfree⟩, fun _ h => h.cons _, _, List.mem_cons_self, request, rfl, rfl⟩
  match outcome with
  | .ok (.interleaved outcome) => exact hdone
  | .ok (.handled state effects) =>
      cases hvalid : validateSocketEffects effects with
      | ok _ =>
          simp only [Prog.meets_done, hvalid]
          exact hdone
      | error error =>
          simp only [Prog.meets_done, hvalid]
          refine Prog.Meets.bind (evict_declining fun w hpause => ?_)
          obtain ⟨-, hgrows, hsent⟩ := hdone
          have hfollows := hpause.follows
          exact ⟨⟨hserving₁.kept (hserving₁.backs.kept hpause), by rw [hpause.task_eq]; exact hfree⟩,
            fun requestId h => hfollows.sentId (hgrows requestId h), hfollows.sentId hsent⟩
  | .ok (.failed failure) => exact hdone
  | .error error => exact hdone

theorem handleSocketEventOnce_declining (request : ActorRequest)
    (invocation : ActorSocketInvocation) (hoperation : request.operation = .socket invocation)
    (hserving : Serving request world) :
    (handleSocketEventOnce request invocation request.ownerEpoch).Meets declining
      (fun _ w => Serving request w) world := by
  refine (takeOrLoadState_declining _ _ hserving.backs).seq (fun cached w htaken => ?_)
    fun _ w htaken => hserving.kept (kept_of_none htaken.1.1 htaken.1.2)
  have hserving₁ := hserving.kept (kept_of_none htaken.1.1 htaken.1.2)
  refine (finishPendingCommit_total cached).seq (finishPendingCommit_declining _ htaken.2)
    fun outcome w₁ hfinished => ?_
  obtain ⟨finished, cached'⟩ := outcome
  obtain ⟨⟨hfollows, htask⟩, hbacked⟩ := hfinished
  have hfree : w₁.task.cachedState = none := by rw [htask]; exact htaken.1.2
  have hserving₂ := hserving₁.kept (kept_of_none hfollows hfree)
  have hput : ∀ (w : World) (cached : CachedActorState) (k : Run ActorExecutionResult),
      Serving request w → Backed cached w.trace →
      (∀ w', Serving request w' → k.Meets declining (fun _ w => Serving request w) w') →
      (do
        putCached cached
        k : Run ActorExecutionResult).Meets declining (fun _ w => Serving request w) w := by
    intro w cached k hserving hbacked hk
    exact Prog.Meets.bind (putCached_declining (Follows.refl w) hbacked fun w' hkept _ =>
      hk w' (hserving.kept hkept))
  have hcomplete : ∀ stateVersion effects w, Serving request w →
      (completeWithState invocation.actor stateVersion .null effects).Meets declining
        (fun _ w => Serving request w) w := by
    intro stateVersion effects w hserving
    exact (completeWithState_declining _ _ _ _).mono fun _ w' hcompleted =>
      hserving.kept (hserving.backs.kept hcompleted.1)
  cases finished with
  | error error => exact hput w₁ cached' _ hserving₂ hbacked fun _ hserving => hserving
  | ok _ =>
      refine (executeSocketEvent_declining request invocation.actor cached'.state hserving₂
        hfree).seq (fun executed w₂ hexecuted => ?_) fun _ w₂ hexecuted => hexecuted.1.1
      obtain ⟨⟨hserving₃, hfree₃⟩, hfollows₃, hsent⟩ := hexecuted
      rw [hoperation] at hsent
      have hbacked₃ : Backed cached' w₂.trace := fun pending hpending =>
        hfollows₃ _ (hbacked pending hpending)
      cases executed with
      | error result => exact hput w₂ cached' _ hserving₃ hbacked₃ fun _ hserving => hserving
      | ok executed =>
          obtain ⟨nextState, effects⟩ := executed
          dsimp only
          split
          · exact hput w₂ cached' _ hserving₃ hbacked₃ (hcomplete _ _)
          · refine (publishResult_total _ _ _ _ _).seq (publishResult_declining _ _ _ _ _ hbacked₃
              hsent) fun published w₃ hpublished => ?_
            obtain ⟨published, cached''⟩ := published
            obtain ⟨⟨hfollows₄, htask₄⟩, hbacked₄, hcases⟩ := hpublished
            have hserving₄ := hserving₃.kept (kept_of_none hfollows₄ (by rw [htask₄]; exact hfree₃))
            obtain ⟨error, rfl⟩ | rfl := hcases
            · refine Prog.Meets.bind (evict_declining fun w₄ hpause => ?_)
              exact hput w₄ cached'' _ (hserving₄.kept (hserving₄.backs.kept hpause))
                (hbacked₄.follows hpause.follows) fun _ hserving => hserving
            · exact hput w₃ cached'' _ hserving₄ hbacked₄ (hcomplete _ _)

theorem handleSocketEvent_declining (request : ActorRequest) (invocation : ActorSocketInvocation)
    (hoperation : request.operation = .socket invocation) (hserving : Serving request world) :
    (handleSocketEvent request invocation request.ownerEpoch).Meets declining
      (fun _ w => Serving request w) world := by
  have hensure : ∀ w, Serving request w →
      ensureAuthority.Meets declining (fun _ w => Serving request w) w := fun w hserving =>
    ensureAuthority_declining.mono fun _ w' hpause => hserving.kept (hserving.backs.kept hpause.1)
  refine (hensure world hserving).seq (fun _ w hserving₁ => ?_) fun _ _ h => h
  refine Prog.Meets.bind (Prog.Meets.attempt ((handleSocketEventOnce_declining request invocation
    hoperation hserving₁).mono fun outcome w₁ hserving₂ => ?_))
  refine (hensure w₁ hserving₂).seq (fun _ w₂ hserving₃ => ?_) fun _ _ h => h
  exact Prog.meets_lift.mpr hserving₃

theorem serveRequest_declining (request : ActorRequest) (accepting : Bool)
    (hserving : Serving request world) (hunsent : Unsent request.ticket world.trace) :
    (serveRequest request accepting).Meets declining (Prog.onOk fun result w =>
      Serving request w ∧ (isDeclined result → request.operation.isMethod →
        Unsent request.ticket w.trace)) world := by
  unfold serveRequest
  split
  · exact ⟨hserving, fun _ _ => hunsent⟩
  · split
    · refine Prog.Meets.bind (Prog.Meets.attempt ((activateActor_declining _ hserving.backs).mono
        fun _ w hkept => ?_))
      exact ⟨hserving.kept hkept, by nofun⟩
    · rename_i invocation hoperation
      exact Prog.Meets.attempt ((invokeActor_declining request invocation hoperation hserving
        hunsent).mono fun result w h => ⟨h.1, fun hdeclined _ => h.2 hdeclined⟩)
    · rename_i invocation hoperation
      refine Prog.Meets.attempt ((handleSocketEvent_declining request invocation hoperation
        hserving).mono fun result w h => ⟨h, fun _ hmethod => ?_⟩)
      rw [hoperation] at hmethod
      cases hmethod

theorem serialLoop_declining (fuel : Nat) (haccount : Accounted (journal world.trace) [] [])
    (hbacks : Backs world) :
    (serialLoop fuel).Meets declining (fun _ _ => True) world := by
  induction fuel generalizing world with
  | zero => trivial
  | succ fuel ih =>
      refine Prog.Meets.bind ((meets_service rfl).mpr fun received hreceived => ⟨fun htruthful =>
        htruthful.cons (by nofun) (by nofun) (by nofun), ?_⟩)
      match received with
      | none => trivial
      | some (request, accepting) =>
          have hunused : Unused request.ticket world.trace := hreceived.1.2 request rfl
          obtain ⟨hunsent, hunanswered⟩ := haccount.newcomer (unused_journal hunused)
          have hserving : Serving request (world.log ⟨.receive, some (request, accepting)⟩) := {
            account := haccount.cons (by nofun) (by nofun)
            backs := fun cached hcached => (hbacks cached hcached).cons _
            unanswered := (unanswered_journal.mp hunanswered).cons (by nofun)
            received := fun hnone => hnone _ List.mem_cons_self request rfl rfl
            arrived := ⟨_, List.mem_cons_self, rfl⟩ }
          refine (serveRequest_declining request accepting hserving
            ((unsent_journal.mp hunsent).cons (by nofun))).seq (fun result w hserved => ?_)
            fun _ _ _ => trivial
          obtain ⟨hserving', hdeclined⟩ := hserved
          refine Prog.Meets.bind (answer_declining request result hdeclined fun sent => ?_)
          have haccount' : Accounted (journal (w.log ⟨.answer request result, sent⟩).trace) [] [] := by
            refine hserving'.account.cons (by nofun) ?_
            rintro _ ⟨⟩
            exact ⟨hserving'.received, by simp⟩
          dsimp only
          split
          · exact ih haccount' fun cached hcached => (hserving'.backs cached hcached).cons _
          · trivial

end

/-- In every run of either loop in which no check of the lease fails while an outcome waits for
its answer, a declined method call did not run and snapshots are those of requests that did. -/
theorem declines_truthfully {hasAdmission : Bool} {world : World}
    (h : Reachable KeepsLease hasAdmission world) : DeclinesTruthfully world.trace := by
  refine h.invariant (fun world => DeclinesTruthfully world.trace) (fun fuel => ?_)
    declinesTruthfully_nil
  have haccount : Accounted (journal ({} : World).trace) [] [] :=
    ⟨by simp [journal], by simp [journal], by simp, by simp, by simp, by simp⟩
  cases hasAdmission with
  | true =>
      exact admissionLoop_declining fuel {
        flight := ⟨by simp, by simp, by simp, by simp [journal], by simp [journal]⟩
        account := haccount
        backs := backs_of_none rfl
        serial := fun _ => .inl ⟨rfl, rfl⟩
        cached := fun _ hbusy => absurd rfl hbusy }
  | false => exact serialLoop_declining fuel haccount (backs_of_none rfl)

end Host
end DurableActors
