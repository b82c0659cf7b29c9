import DurableActors.Host.Footprint

/-!
# Successful answers are fenced by the lease

A caller that is told {lit}`Completed` may rely on the result, so the host has to
know that it still held the lease when the result had become durable.  The
serial loop checks the lease after everything else.  The admission loop checks it
before it prepares a request and when it completes one; a request that is
answered from a commit written during its own preparation passes neither check
afterwards.

Main results:

- Theorem {lit}`replay_of_unwritten_commit_is_unfenced`: a run of the admission
  loop in which a retry is answered {lit}`Completed` with no check after the write.
- Theorem {lit}`completed_is_fenced`: in every run of either loop that admits no
  retry of a commit that is still to be written, every {lit}`Completed` answer was
  preceded by a successful check after the result became durable.
-/

namespace DurableActors
namespace Host

open Effects

/-! ## The property -/

/-- A successful check of the lease. -/
def authorized : Entry := ⟨.ensureAuthority, (.ok () : Except Error Unit)⟩

/-- The entry settles a request: it made a snapshot of its request ID durable, or it is the
outcome of its execution. -/
def SettlesFor (request : ActorRequest) : Entry → Prop
  | ⟨.writeSnapshot _ bytes, .ok _⟩ =>
      bytes.requestId = request.operation.invocation.requestId
  | ⟨.invoke executed _, _⟩ => executed = request
  | ⟨.handleSocket executed _, _⟩ => executed = request
  | ⟨.select, .executed _ executed _⟩ => executed = request
  | _ => False

/-- The lease was checked after everything that settles the request. -/
def CheckedSinceSettled (request : ActorRequest) (trace : List Entry) : Prop :=
  ∃ since before, trace = since ++ authorized :: before ∧
    ∀ entry ∈ since, ¬ SettlesFor request entry

/-- Every invocation answered with success was answered under a lease that was checked after its
result had become durable. -/
def Fenced (trace : List Entry) : Prop :=
  ∀ later request result effects sent earlier,
    trace = later ++ ⟨.answer request (.ok (.completed result effects)), sent⟩ :: earlier →
    request.operation.isActivate = false → CheckedSinceSettled request earlier

/-- The entry settles some request. -/
def Settles (entry : Entry) : Prop := ∃ request, SettlesFor request entry

/-- The lease was checked after everything that settles any request. -/
def Authorized (trace : List Entry) : Prop :=
  ∃ since before, trace = since ++ authorized :: before ∧ ∀ entry ∈ since, ¬ Settles entry

theorem Authorized.checkedSinceSettled {trace : List Entry} (h : Authorized trace)
    (request : ActorRequest) : CheckedSinceSettled request trace := by
  obtain ⟨since, before, htrace, hsince⟩ := h
  exact ⟨since, before, htrace, fun entry hentry hsettles =>
    hsince entry hentry ⟨request, hsettles⟩⟩

theorem authorized_cons_self (trace : List Entry) : Authorized (authorized :: trace) :=
  ⟨[], trace, rfl, by simp⟩

theorem Authorized.cons {trace : List Entry} (h : Authorized trace) {entry : Entry}
    (hentry : ¬ Settles entry) : Authorized (entry :: trace) := by
  obtain ⟨since, before, rfl, hsince⟩ := h
  refine ⟨entry :: since, before, rfl, ?_⟩
  intro other hother
  rcases List.mem_cons.mp hother with rfl | hmem
  · exact hentry
  · exact hsince other hmem

/-! ## The property along a run -/

/-- The request that an entry answers with success. -/
def completes : Entry → Option ActorRequest
  | ⟨.answer request (.ok (.completed _ _)), _⟩ => some request
  | _ => none

theorem Fenced.cons {trace : List Entry} (h : Fenced trace) {entry : Entry}
    (hentry : ∀ request, completes entry = some request →
      request.operation.isActivate = false → CheckedSinceSettled request trace) :
    Fenced (entry :: trace) := by
  intro later request result effects sent earlier htrace hoperation
  cases later with
  | nil =>
      obtain ⟨rfl, rfl⟩ := List.cons.inj htrace
      exact hentry request rfl hoperation
  | cons first later =>
      obtain ⟨-, rfl⟩ := List.cons.inj htrace
      exact h later request result effects sent earlier rfl hoperation

theorem fenced_nil : Fenced [] := by
  intro later request result effects sent earlier htrace
  simp at htrace

/-! ## The runtime's functions -/

section

variable {allowed : World → Entry → Prop} {α : Type} {world : World}

/-- Each call keeps the property. -/
abbrev fencing (allowed : World → Entry → Prop) : Protocol services World :=
  keeping allowed fun world => Fenced world.trace

/-- A call that answers nobody keeps the property. -/
theorem meets_quiet {op : Op} (hop : op.isService) (hquiet : ∀ answer, completes ⟨op, answer⟩ = none)
    {next : Ans op → Run α} {post : Except Error α → World → Prop}
    (h : ∀ answer, allowed world ⟨op, answer⟩ →
      (next answer).Meets (fencing allowed) post (world.log ⟨op, answer⟩)) :
    (Prog.call (I := services) op next).Meets (fencing allowed) post world := by
  refine (meets_service hop).mpr fun answer hallowed => ⟨fun hfenced => ?_, h answer hallowed⟩
  refine hfenced.cons fun request hrequest => ?_
  rw [hquiet answer] at hrequest
  cases hrequest

/-- A commit keeps the property and the task. -/
theorem commit_fenced {p : Run α} {writes : StateSnapshot → Prop} {post : α → Prop}
    (h : p.Within (CommitCalls writes) post) :
    p.Meets (fencing allowed)
      (Prog.onOk fun value w => w.task = world.task ∧ post value) world := by
  refine commit_meets (fun w => w.task = world.task) h ?_ rfl
  intro w op answer hop hw _
  refine ⟨fun hfenced => hfenced.cons fun request hrequest => ?_, hw⟩
  obtain rfl | ⟨_, _, _, rfl⟩ | ⟨_, _, rfl, _⟩ := hop.cases <;> cases hrequest

/-- A check of the lease that succeeds authorizes what follows. -/
theorem ensureAuthority_fenced :
    ensureAuthority.Meets (fencing allowed)
      (Prog.onOk fun _ w => Authorized w.trace ∧ w.task = world.task) world := by
  refine meets_quiet rfl (fun _ => rfl) fun answer _ => Prog.meets_lift.mpr ?_
  cases answer with
  | error error => trivial
  | ok _ => exact ⟨authorized_cons_self _, rfl⟩

theorem evict_fenced (actor : ActorKey) :
    (evict actor).Meets (fencing allowed) (Prog.onOk fun _ _ => True) world :=
  meets_quiet rfl (fun _ => rfl) fun _ _ => trivial

/-- A result that is reported with success is authorized. -/
def AuthorizedResult (outcome : ActorExecutionResult) (world : World) : Prop :=
  outcome.isCompleted → Authorized world.trace

/-- Success is reported only under a lease that was checked. -/
theorem completeWithState_fenced (actor : ActorKey) (stateVersion : Nat) (result : Value)
    (effects : List ActorSocketEffect) :
    (completeWithState actor stateVersion result effects).Meets (fencing allowed)
      (Prog.onOk AuthorizedResult) world := by
  refine Prog.Meets.seqOk ensureAuthority_fenced fun _ w hauthorized => ?_
  dsimp only
  split
  · exact fun _ => hauthorized.1
  · refine Prog.Meets.bind (Prog.Meets.attempt (meets_quiet rfl (fun _ => rfl) fun answer _ => ?_))
    refine Prog.meets_lift.mpr ?_
    cases answer with
    | error error => exact fun hcompleted => by cases hcompleted
    | ok _ => exact fun _ => hauthorized.1.cons (by rintro ⟨request, ⟨⟩⟩)

/-- What is reported for a failed execution is a failure. -/
theorem methodResult_fenced (actor : ActorKey) (outcome : Except Error ActorMethodOutcome) :
    (methodResult actor outcome).Meets (fencing allowed)
      (Prog.onOk fun executed _ => ∀ failure, executed = .error failure →
        failure.isCompleted = false) world := by
  unfold methodResult
  have hfailed : ∀ code message failure,
      (.error (.failedWith code message) :
        Except ActorExecutionResult (Value × Value × List ActorSocketEffect)) = .error failure →
      failure.isCompleted = false := by
    rintro code message _ ⟨⟩
    rfl
  cases outcome with
  | error error =>
      exact Prog.Meets.seqOk (evict_fenced actor) fun _ _ _ => hfailed _ _
  | ok outcome =>
      cases outcome with
      | interleaved outcome => exact hfailed _ _
      | completed result state effects =>
          dsimp only
          cases validateSocketEffects effects with
          | ok _ => exact fun failure hfailure => by cases hfailure
          | error error =>
              exact Prog.Meets.seqOk (evict_fenced actor) fun _ _ _ => hfailed _ _
      | failed failure =>
          dsimp only
          split
          · exact Prog.Meets.seqOk (evict_fenced actor) fun _ _ _ => hfailed _ _
          · exact hfailed _ _

/-- An outcome is reported with success only under a lease that was checked after the commit. -/
theorem finishMethod_fenced (invocation : ActorInvocation) (ownerEpoch : Nat)
    (executed : Except ActorExecutionResult (Value × Value × List ActorSocketEffect))
    (origin : CommitOrigin)
    (hexecuted : ∀ failure, executed = .error failure → failure.isCompleted = false) :
    (finishMethod invocation ownerEpoch executed origin).Meets (fencing allowed)
      (Prog.onOk AuthorizedResult) world := by
  unfold finishMethod
  cases executed with
  | error failure =>
      intro hcompleted
      rw [hexecuted failure rfl] at hcompleted
      cases hcompleted
  | ok executed =>
      obtain ⟨result, nextState, effects⟩ := executed
      refine Prog.Meets.bind (meets_getTask.mpr (Prog.Meets.bind (meets_setTask.mpr ⟨id, ?_⟩)))
      refine Prog.Meets.bind (Prog.meets_context.mpr ⟨fun cached _ => ?_, fun _ => trivial⟩)
      dsimp only
      split
      · refine Prog.Meets.bind (meets_modifyTask.mpr ⟨id, ?_⟩)
        exact completeWithState_fenced _ _ _ _
      · refine Prog.Meets.seqOk (commit_fenced (publishResult_within (fun _ => True)
          fun _ _ => trivial)) fun outcome w hpublished => ?_
        obtain ⟨published, cached'⟩ := outcome
        obtain ⟨-, -, -, ⟨error, rfl⟩ | ⟨rfl, -⟩⟩ := hpublished
        · refine Prog.Meets.seqOk (evict_fenced _) fun _ _ _ => ?_
          refine Prog.Meets.bind (meets_modifyTask.mpr ⟨id, ?_⟩)
          exact fun hcompleted => by cases hcompleted
        · refine Prog.Meets.bind (meets_modifyTask.mpr ⟨id, ?_⟩)
          exact completeWithState_fenced _ _ _ _

theorem finishSerial_fenced (invocation : ActorInvocation) (ownerEpoch : Nat)
    (outcome : Except Error ActorMethodOutcome) (origin : CommitOrigin) :
    (finishSerial invocation ownerEpoch outcome origin).Meets (fencing allowed)
      (Prog.onOk AuthorizedResult) world :=
  Prog.Meets.seqOk (methodResult_fenced _ _) fun _ _ hexecuted =>
    finishMethod_fenced _ _ _ _ hexecuted

/-- An interleaved outcome is committed with success only under a lease that was checked after the
commit. -/
theorem commitInterleaved_fenced (invocation : ActorInvocation) (ownerEpoch : Nat)
    (outcome : ActorInterleavedOutcome) (origin : CommitOrigin) :
    (commitInterleaved invocation ownerEpoch outcome origin).Meets (fencing allowed)
      (Prog.onOk AuthorizedResult) world := by
  refine Prog.Meets.seqOk ensureAuthority_fenced fun _ w _ => ?_
  refine Prog.Meets.bind (Prog.meets_lift.mpr ?_)
  cases validateSocketEffects outcome.effects with
  | error error => trivial
  | ok _ =>
      refine Prog.Meets.bind (meets_getTask.mpr (Prog.Meets.bind (meets_setTask.mpr ⟨id, ?_⟩)))
      refine Prog.Meets.bind (Prog.meets_context.mpr ⟨fun cached _ => ?_, fun _ => trivial⟩)
      refine Prog.Meets.bind (Prog.meets_ensure.mpr ⟨fun _ => ?_, fun _ => trivial⟩)
      dsimp only
      split
      · refine Prog.Meets.bind (meets_modifyTask.mpr ⟨id, ?_⟩)
        exact completeWithState_fenced _ _ _ _
      · refine Prog.Meets.seqOk (commit_fenced (publishResult_within (fun _ => True)
          fun _ _ => trivial)) fun published w _ => ?_
        refine Prog.Meets.bind (meets_modifyTask.mpr ⟨id, ?_⟩)
        refine Prog.Meets.bind (Prog.meets_lift.mpr ?_)
        cases published.1 with
        | error error => trivial
        | ok _ => exact completeWithState_fenced _ _ _ _

theorem loadActorState_fenced (actor : ActorKey) (ownerEpoch : Nat)
    (hworld : Authorized world.trace) :
    (loadActorState actor ownerEpoch).Meets (fencing allowed)
      (Prog.onOk fun _ w => Authorized w.trace) world := by
  refine meets_quiet rfl (fun _ => rfl) fun answer _ => Prog.meets_lift.mpr ?_
  cases answer with
  | error error => trivial
  | ok _ => exact hworld.cons (by rintro ⟨request, ⟨⟩⟩)

/-- Taking the cached state or loading the stored one keeps the lease's check current. -/
theorem takeOrLoadState_fenced (actor : ActorKey) (ownerEpoch : Nat)
    (hworld : Authorized world.trace) :
    (takeOrLoadState actor ownerEpoch).Meets (fencing allowed)
      (Prog.onOk fun cached w => Authorized w.trace ∧
        (cached.pending = none ∨
          world.task.cachedState = some cached ∧ cached.ownerEpoch = ownerEpoch)) world := by
  refine Prog.Meets.bind (meets_getTask.mpr (Prog.Meets.bind (meets_setTask.mpr ⟨id, ?_⟩)))
  dsimp only
  cases hcached : world.task.cachedState.filter fun cached => cached.ownerEpoch = ownerEpoch with
  | some cached =>
      obtain ⟨hsome, hepoch⟩ := Option.filter_eq_some_iff.mp hcached
      exact ⟨hworld, .inr ⟨hsome, by simpa using hepoch⟩⟩
  | none =>
      refine Prog.Meets.seqOk (loadActorState_fenced _ _ hworld) fun loaded w hloaded => ?_
      split
      · refine Prog.Meets.bind (Prog.meets_ensure.mpr ⟨fun _ => ?_, fun _ => trivial⟩)
        exact ⟨hloaded, .inl rfl⟩
      · refine Prog.meets_lift.mpr ?_
        cases hcached : CachedActorState.fromLoaded ownerEpoch loaded.1 loaded.2 with
        | error error => trivial
        | ok cached => exact ⟨hloaded, .inl ((fromLoaded_eq_ok hcached).1)⟩

/-- A commit that writes nothing keeps the lease's check current. -/
theorem commit_authorized {p : Run α} {post : α → Prop}
    (h : p.Within (CommitCalls fun _ => False) post) (hworld : Authorized world.trace) :
    p.Meets (fencing allowed) (Prog.onOk fun value w => Authorized w.trace ∧ post value) world := by
  refine commit_meets (fun w => Authorized w.trace) h ?_ hworld
  intro w op answer hop hw _
  refine ⟨fun hfenced => hfenced.cons fun request hrequest => ?_, hw.cons ?_⟩
  · obtain rfl | ⟨_, _, _, rfl⟩ | ⟨_, _, rfl, _⟩ := hop.cases <;> cases hrequest
  · rintro ⟨request, hsettles⟩
    obtain rfl | ⟨_, _, _, rfl⟩ | ⟨_, _, _, hwrites⟩ := hop.cases
    · cases hsettles
    · cases hsettles
    · exact hwrites

/-- The retry of a commit that is still to be written: its answer would come from a result that
becomes durable only while the retry is being prepared. -/
def ReplaysUnwritten (task : Task) (ownerEpoch : Nat) (requestId : String) : Prop :=
  ∃ cached pending, task.cachedState = some cached ∧ cached.ownerEpoch = ownerEpoch ∧
    cached.pending = some pending ∧ pending.durable = false ∧
    pending.snapshot.requestId = requestId

/-- A request is answered from the recorded result under the lease's check, unless the recorded
result is written in this very preparation. -/
theorem prepareInvocation_fenced (invocation : ActorInvocation) (ownerEpoch : Nat)
    (replay : Bool) :
    (prepareInvocation invocation ownerEpoch replay).Meets (fencing allowed)
      (Prog.onOk fun prepared w => ∀ outcome, prepared = .completed outcome →
        AuthorizedResult outcome w ∨
          replay = true ∧ ReplaysUnwritten world.task ownerEpoch invocation.requestId) world := by
  refine Prog.Meets.seqOk ensureAuthority_fenced fun _ w hauthorized => ?_
  refine Prog.Meets.seqOk (takeOrLoadState_fenced _ _ hauthorized.1) fun cached w₁ hcached => ?_
  rw [hauthorized.2] at hcached
  by_cases hwrites : ∃ pending, cached.pending = some pending ∧ pending.durable = false
  · obtain ⟨pending, hpending, hdurable⟩ := hwrites
    have htask : world.task.cachedState = some cached ∧ cached.ownerEpoch = ownerEpoch := by
      rcases hcached.2 with hnone | htask
      · rw [hnone] at hpending
        cases hpending
      · exact htask
    refine Prog.Meets.seqOk (commit_fenced (finishPendingCommit_within (fun _ => True)
      fun _ _ _ => trivial)) fun outcome w₂ houtcome => ?_
    obtain ⟨finished, cached'⟩ := outcome
    obtain ⟨-, -, -, -, happlied⟩ := houtcome
    refine Prog.Meets.bind (meets_modifyTask.mpr ⟨id, ?_⟩)
    cases finished with
    | error error =>
        rintro _ ⟨⟩
        exact .inl fun hcompleted => by cases hcompleted
    | ok _ =>
        have hlast := ((happlied pending hpending).1 rfl).2.1
        dsimp only at hlast ⊢
        cases hresult : if replay then cached'.replay invocation.requestId else none with
        | none => rintro _ ⟨⟩
        | some result =>
            rintro _ ⟨⟩
            refine .inr ?_
            split at hresult
            · rename_i htrue
              refine ⟨htrue, cached, pending, htask.1, htask.2, hpending, hdurable, ?_⟩
              simp only [CachedActorState.replay, hlast] at hresult
              split at hresult
              · rename_i hsame
                exact Option.some.inj hsame
              · cases hresult
            · cases hresult
  · have hquiet : ∀ pending, cached.pending = some pending → pending.durable = false → False :=
      fun pending hpending hdurable => hwrites ⟨pending, hpending, hdurable⟩
    refine Prog.Meets.seqOk (commit_authorized (finishPendingCommit_within (fun _ => False)
      hquiet) hcached.1) fun outcome w₂ houtcome => ?_
    refine Prog.Meets.bind (meets_modifyTask.mpr ⟨id, ?_⟩)
    obtain ⟨finished, cached'⟩ := outcome
    cases finished with
    | error error =>
        rintro _ ⟨⟩
        exact .inl fun hcompleted => by cases hcompleted
    | ok _ =>
        dsimp only
        cases if replay then cached'.replay invocation.requestId else none with
        | none => rintro _ ⟨⟩
        | some result => exact fun _ _ => .inl fun _ => houtcome.1

theorem acquireActor_fenced (actor : ActorKey) :
    (acquireActor actor).Meets (fencing allowed) (Prog.onOk fun _ _ => True) world := by
  refine meets_quiet rfl (fun _ => rfl) fun answer _ => Prog.meets_lift.mpr ?_
  cases answer <;> trivial

theorem hydrate_fenced (actor : ActorKey) (state : Option Value) :
    (hydrate actor state).Meets (fencing allowed) (Prog.onOk fun _ _ => True) world := by
  refine meets_quiet rfl (fun _ => rfl) fun answer _ => Prog.meets_lift.mpr ?_
  cases answer <;> trivial

theorem activateActor_fenced (actor : ActorKey) :
    (activateActor actor).Meets (fencing allowed) (Prog.onOk fun _ _ => True) world := by
  refine Prog.Meets.seqOk ensureAuthority_fenced fun _ w _ => ?_
  refine Prog.Meets.bind (meets_getTask.mpr ?_)
  dsimp only
  cases w.task.activation with
  | some activation => trivial
  | none =>
      refine Prog.Meets.seqOk (acquireActor_fenced actor) fun activation w₁ _ => ?_
      have hhydrate : ∀ (activation : ActorActivation) (w₂ : World),
          (do
            let task ← getTask
            hydrate actor (task.cachedState.bind CachedActorState.state)
            ensureAuthority
            modifyTask fun task => { task with activation := some activation }
            return activation : Run ActorActivation).Meets (fencing allowed)
              (Prog.onOk fun _ _ => True) w₂ := by
        intro activation w₂
        refine Prog.Meets.bind (meets_getTask.mpr ?_)
        refine Prog.Meets.seqOk (hydrate_fenced _ _) fun _ w₃ _ => ?_
        refine Prog.Meets.seqOk ensureAuthority_fenced fun _ w₄ _ => ?_
        exact Prog.Meets.bind (meets_modifyTask.mpr ⟨id, trivial⟩)
      split
      · split
        · exact Prog.Meets.bind (meets_modifyTask.mpr ⟨id, hhydrate _ _⟩)
        · refine Prog.Meets.bind (Prog.meets_context.mpr ⟨fun bytes _ => ?_, fun _ => trivial⟩)
          refine Prog.Meets.bind (Prog.meets_lift.mpr ?_)
          cases CachedActorState.fromLoaded activation.ownerEpoch activation.stateVersion
              (some bytes) with
          | error error => trivial
          | ok cached => exact Prog.Meets.bind (meets_modifyTask.mpr ⟨id, hhydrate _ _⟩)
      · exact hhydrate _ _

/-! ## The loops -/

/-- An answer is fenced when success is reported only under a checked lease. -/
theorem answer_fenced (request : ActorRequest) (result : Except Error ActorExecutionResult)
    (h : ∀ outcome, result = .ok outcome → request.operation.isActivate = false →
      AuthorizedResult outcome world) :
    (answer request result).Meets (fencing allowed) (Prog.onOk fun _ _ => True) world := by
  refine (meets_service rfl).mpr fun sent _ => ⟨fun hfenced => hfenced.cons ?_, trivial⟩
  intro request' hrequest hoperation
  cases result with
  | error error => cases hrequest
  | ok outcome =>
      cases outcome with
      | completed result effects =>
          cases hrequest
          exact (h _ rfl hoperation rfl).checkedSinceSettled request
      | failed failure => cases hrequest
      | reroute => cases hrequest
      | hostUnavailable => cases hrequest

theorem finish_fenced (request : ActorRequest) (result : Except Error ActorExecutionResult)
    (h : ∀ outcome, result = .ok outcome → request.operation.isActivate = false →
      AuthorizedResult outcome world) :
    (finish request result).Meets (fencing allowed) (Prog.onOk fun _ _ => True) world :=
  Prog.Meets.seqOk (answer_fenced request result h) fun _ _ _ => trivial

theorem stop_fenced (request : ActorRequest) :
    (stop request).Meets (fencing allowed) (Prog.onOk fun _ _ => True) world := by
  refine Prog.Meets.seqOk (evict_fenced _) fun _ w _ => ?_
  refine Prog.Meets.seqOk (finish_fenced _ _ ?_) fun _ _ _ => trivial
  rintro _ ⟨⟩ _ hcompleted
  cases hcompleted

theorem release_fenced (id : Nat) :
    (release id).Meets (fencing allowed) (Prog.onOk fun _ _ => True) world :=
  meets_modifyTask.mpr ⟨fun h => h, trivial⟩

theorem leaveMark_fenced (mark : Mark) {post : Except Error Unit → World → Prop}
    (h : post (.ok ()) (world.log ⟨.mark mark, ()⟩)) :
    (leaveMark mark).Meets (fencing allowed) post world :=
  meets_quiet rfl (fun _ => rfl) fun _ _ => h

/-- Committing what is ready keeps the property, by induction on the rounds. -/
theorem commitReady_fenced (fuel : Nat) :
    (commitReady fuel).Meets (fencing allowed) (Prog.onOk fun _ _ => True) world := by
  induction fuel generalizing world with
  | zero => trivial
  | succ fuel ih =>
      refine Prog.Meets.bind (meets_getTask.mpr ?_)
      dsimp only
      cases world.task.ready.find? fun entry => entry.1 = world.task.nextSequence with
      | none => trivial
      | some entry =>
          obtain ⟨_, id, request, outcome⟩ := entry
          refine Prog.Meets.bind (meets_setTask.mpr ⟨fun h => h, ?_⟩)
          refine Prog.Meets.bind (leaveMark_fenced _ ?_)
          refine Prog.Meets.bind (Prog.Meets.attempt ((commitInterleaved_fenced _ _ _ _).mono
            fun committed w hcommitted => ?_))
          have hstop : (do leaveMark (.commitEnds outcome.sequence false); stop request :
              Run Bool).Meets (fencing allowed) (Prog.onOk fun _ _ => True) w :=
            Prog.Meets.bind (leaveMark_fenced _ (stop_fenced request))
          cases committed with
          | error error => exact hstop
          | ok committed =>
              cases committed with
              | completed result effects =>
                  refine Prog.Meets.bind (leaveMark_fenced _ ?_)
                  refine Prog.Meets.bind (meets_modifyTask.mpr ⟨fun h => h, ?_⟩)
                  refine Prog.Meets.seqOk (finish_fenced _ _ ?_) fun _ _ _ => ?_
                  · rintro _ ⟨⟩ _ _
                    exact (hcommitted rfl).cons (by rintro ⟨_, ⟨⟩⟩)
                  · exact Prog.Meets.seqOk (release_fenced id) fun _ _ _ => ih
              | failed failure => exact hstop
              | reroute => exact hstop
              | hostUnavailable => exact hstop

theorem executedAlone_fenced (id : Nat) (request : ActorRequest)
    (result : Except Error ActorMethodOutcome) :
    (executedAlone id request result).Meets (fencing allowed)
      (Prog.onOk fun _ _ => True) world := by
  refine Prog.Meets.bind (meets_getTask.mpr ?_)
  dsimp only
  split
  · split
    · split
      · refine Prog.Meets.seqOk (finish_fenced _ _ ?_) fun _ _ _ => ?_
        · rintro _ ⟨⟩ _ hcompleted
          cases hcompleted
        · exact Prog.Meets.seqOk (release_fenced id) fun _ _ _ => trivial
      · exact stop_fenced request
    · exact stop_fenced request
  · refine Prog.Meets.bind (Prog.Meets.attempt ((finishSerial_fenced _ _ _ _).mono
      fun finished w hfinished => ?_))
    refine Prog.Meets.seqOk (finish_fenced _ _ ?_) fun _ _ _ => ?_
    · rintro _ rfl _
      exact hfinished
    · exact Prog.Meets.seqOk (release_fenced id) fun _ _ _ => trivial

theorem executed_fenced (id : Nat) (request : ActorRequest)
    (result : Except Error ActorMethodOutcome) :
    (executed id request result).Meets (fencing allowed) (Prog.onOk fun _ _ => True) world := by
  unfold executed
  split
  · refine Prog.Meets.bind (meets_modifyTask.mpr ⟨fun h => h, ?_⟩)
    refine Prog.Meets.bind (meets_getTask.mpr ?_)
    dsimp only
    split
    · exact stop_fenced request
    · exact Prog.Meets.bind (meets_setTask.mpr ⟨fun h => h, commitReady_fenced _⟩)
  · exact executedAlone_fenced id request _

/-- The admission loop receives no method call that retries a commit that is still to be
written. -/
def AvoidsUnwrittenReplay (world : World) (entry : Entry) : Prop :=
  Enabled world entry ∧ ∀ request accepting,
    entry = ⟨.select, Wakeup.request (some request) accepting⟩ →
      request.operation.isMethod → ¬ ReplaysUnwritten world.task request.ownerEpoch
        request.operation.invocation.requestId

theorem startExecution_fenced (id : Nat) (request : ActorRequest) (state : Option Value) :
    (startExecution id request state).Meets (fencing allowed) (Prog.onOk fun _ _ => True) world :=
  meets_quiet rfl (fun _ => rfl) fun _ _ => trivial

theorem admitRequest_fenced (request : ActorRequest) (accepting : Bool)
    (h : request.operation.isMethod → ¬ ReplaysUnwritten world.task request.ownerEpoch
      request.operation.invocation.requestId) :
    (admitRequest request accepting).Meets (fencing allowed) (Prog.onOk fun _ _ => True) world := by
  unfold admitRequest
  split
  · refine Prog.Meets.seqOk (finish_fenced _ _ ?_) fun _ _ _ => trivial
    rintro _ ⟨⟩ _ hcompleted
    cases hcompleted
  · split
    · rename_i actor hoperation
      refine Prog.Meets.bind (Prog.Meets.attempt ((activateActor_fenced _).mono fun _ _ _ => ?_))
      refine Prog.Meets.seqOk (finish_fenced _ _ ?_) fun _ _ _ => trivial
      intro _ _ hactivate
      rw [hoperation] at hactivate
      cases hactivate
    · refine Prog.Meets.bind (Prog.Meets.attempt ((prepareInvocation_fenced _ _ _).mono
        fun prepared w hprepared => ?_))
      cases prepared with
      | error error => exact stop_fenced request
      | ok prepared =>
          cases prepared with
          | completed outcome =>
              refine Prog.Meets.seqOk (finish_fenced _ _ ?_) fun _ _ _ => trivial
              rintro _ ⟨⟩ _
              rcases hprepared outcome rfl with hauthorized | ⟨hmethod, hunwritten⟩
              · exact hauthorized
              · exact absurd hunwritten (h hmethod)
          | execute state =>
              refine Prog.Meets.bind (meets_getTask.mpr ?_)
              refine Prog.Meets.bind (meets_setTask.mpr ⟨fun h => h, ?_⟩)
              exact Prog.Meets.seqOk (startExecution_fenced _ _ _) fun _ _ _ => trivial

theorem admissionLoop_fenced (fuel : Nat) :
    (admissionLoop fuel).Meets (fencing AvoidsUnwrittenReplay)
      (Prog.onOk fun _ _ => True) world := by
  induction fuel generalizing world with
  | zero => trivial
  | succ fuel ih =>
      refine Prog.Meets.bind (meets_quiet rfl (fun _ => rfl) fun wakeup hallowed => ?_)
      cases wakeup with
      | executed id request result =>
          refine Prog.Meets.bind (meets_modifyTask.mpr ⟨fun h => h, ?_⟩)
          refine Prog.Meets.seqOk (executed_fenced _ _ _) fun goesOn w _ => ?_
          split
          · exact ih
          · trivial
      | permission granted =>
          cases granted with
          | true => exact Prog.Meets.bind (meets_modifyTask.mpr ⟨fun h => h, ih⟩)
          | false => trivial
      | request request accepting =>
          cases request with
          | none => exact Prog.Meets.bind (meets_modifyTask.mpr ⟨fun h => h, ih⟩)
          | some request =>
              refine Prog.Meets.bind (meets_quiet rfl (fun _ => rfl) fun _ _ => ?_)
              refine Prog.Meets.seqOk (admitRequest_fenced _ _ (hallowed.2 _ _ rfl)) fun goesOn w _ => ?_
              split
              · exact ih
              · trivial
      | idle => trivial

/-- A serial entry point ends with a check of the lease. -/
theorem checked_twice_fenced {once : Run ActorExecutionResult}
    (honce : ∀ w, Authorized w.trace → once.Meets (fencing allowed) (fun _ _ => True) w) :
    (do
      ensureAuthority
      let outcome ← (once.attempt : Run (Except Error ActorExecutionResult))
      ensureAuthority
      Prog.lift outcome : Run ActorExecutionResult).Meets (fencing allowed)
        (Prog.onOk AuthorizedResult) world := by
  refine Prog.Meets.seqOk ensureAuthority_fenced fun _ w hw => ?_
  refine Prog.Meets.bind (Prog.Meets.attempt ((honce w hw.1).mono fun outcome w' _ => ?_))
  refine Prog.Meets.seqOk ensureAuthority_fenced fun _ w'' hauthorized => ?_
  refine Prog.meets_lift.mpr ?_
  cases outcome with
  | error error => trivial
  | ok outcome => exact fun _ => hauthorized.1

theorem invokeShared_fenced (request : ActorRequest) (state : Option Value) :
    (invokeShared request state).Meets (fencing allowed) (Prog.onOk fun _ _ => True) world :=
  meets_quiet rfl (fun _ => rfl) fun _ _ => trivial

theorem invokeActorOnce_fenced (request : ActorRequest) (invocation : ActorInvocation)
    (ownerEpoch : Nat) :
    (invokeActorOnce request invocation ownerEpoch).Meets (fencing allowed)
      (Prog.onOk fun _ _ => True) world := by
  refine Prog.Meets.seqOk (prepareInvocation_fenced _ _ _) fun prepared w _ => ?_
  cases prepared with
  | completed result => trivial
  | execute state =>
      refine Prog.Meets.seqOk (invokeShared_fenced _ _) fun outcome w₁ _ => ?_
      refine Prog.Meets.seqOk (methodResult_fenced _ _) fun executed w₂ hexecuted => ?_
      exact (finishMethod_fenced _ _ _ _ hexecuted).mono fun r _ _ => by cases r <;> trivial

theorem executeSocketEvent_fenced (request : ActorRequest) (actor : ActorKey)
    (state : Option Value) :
    (executeSocketEvent request actor state).Meets (fencing allowed)
      (Prog.onOk fun _ _ => True) world := by
  refine Prog.Meets.bind (meets_quiet rfl (fun _ => rfl) fun outcome _ => ?_)
  match outcome with
  | .ok (.interleaved outcome) => trivial
  | .ok (.handled state effects) =>
      cases hvalid : validateSocketEffects effects with
      | ok _ => simp only [hvalid, Prog.meets_done, Prog.pure_eq, Prog.onOk]
      | error error =>
          simp only [hvalid, Prog.meets_done]
          exact Prog.Meets.seqOk (evict_fenced actor) fun _ _ _ => trivial
  | .ok (.failed failure) => trivial
  | .error error => trivial

theorem handleSocketEventOnce_fenced (request : ActorRequest)
    (invocation : ActorSocketInvocation) (ownerEpoch : Nat) (hworld : Authorized world.trace) :
    (handleSocketEventOnce request invocation ownerEpoch).Meets (fencing allowed)
      (Prog.onOk fun _ _ => True) world := by
  refine Prog.Meets.seqOk (takeOrLoadState_fenced _ _ hworld) fun cached w _ => ?_
  refine Prog.Meets.seqOk (commit_fenced (finishPendingCommit_within (fun _ => True)
    fun _ _ _ => trivial)) fun outcome w₁ _ => ?_
  obtain ⟨finished, cached'⟩ := outcome
  cases finished with
  | error error => exact Prog.Meets.bind (meets_modifyTask.mpr ⟨id, trivial⟩)
  | ok _ =>
      refine Prog.Meets.seqOk (executeSocketEvent_fenced _ _ _) fun executed w₂ _ => ?_
      cases executed with
      | error result => exact Prog.Meets.bind (meets_modifyTask.mpr ⟨id, trivial⟩)
      | ok executed =>
          have hcomplete : ∀ w stateVersion,
              (completeWithState invocation.actor stateVersion .null executed.2).Meets
                (fencing allowed) (Prog.onOk fun _ _ => True) w := fun w stateVersion =>
            (completeWithState_fenced _ _ _ _).mono fun r _ _ => by cases r <;> trivial
          obtain ⟨nextState, effects⟩ := executed
          dsimp only
          split
          · exact Prog.Meets.bind (meets_modifyTask.mpr ⟨id, hcomplete _ _⟩)
          · refine Prog.Meets.seqOk (commit_fenced (publishResult_within (fun _ => True)
              fun _ _ => trivial)) fun outcome w₃ hpublished => ?_
            obtain ⟨published, cached''⟩ := outcome
            obtain ⟨-, -, -, ⟨error, rfl⟩ | ⟨rfl, -⟩⟩ := hpublished
            · refine Prog.Meets.seqOk (evict_fenced _) fun _ _ _ => ?_
              exact Prog.Meets.bind (meets_modifyTask.mpr ⟨id, trivial⟩)
            · exact Prog.Meets.bind (meets_modifyTask.mpr ⟨id, hcomplete _ _⟩)

theorem serveRequest_fenced (request : ActorRequest) (accepting : Bool) :
    (serveRequest request accepting).Meets (fencing allowed)
      (Prog.onOk fun result w => ∀ outcome, result = .ok outcome →
        request.operation.isActivate = false → AuthorizedResult outcome w) world := by
  have hattempt : ∀ {p : Run ActorExecutionResult},
      p.Meets (fencing allowed) (Prog.onOk AuthorizedResult) world →
      (p.attempt : Run (Except Error ActorExecutionResult)).Meets (fencing allowed)
        (Prog.onOk fun result w => ∀ outcome, result = .ok outcome →
          request.operation.isActivate = false → AuthorizedResult outcome w) world := by
    intro p hp
    refine Prog.Meets.attempt (hp.mono fun r w hr => ?_)
    rintro outcome rfl _
    exact hr
  unfold serveRequest
  split
  · rintro _ ⟨⟩ _ hcompleted
    cases hcompleted
  · split
    · rename_i actor hoperation
      refine Prog.Meets.bind (Prog.Meets.attempt ((activateActor_fenced _).mono fun _ _ _ => ?_))
      intro _ _ hactivate
      rw [hoperation] at hactivate
      cases hactivate
    · exact hattempt (checked_twice_fenced fun w _ =>
        (invokeActorOnce_fenced _ _ _).mono fun _ _ _ => trivial)
    · exact hattempt (checked_twice_fenced fun w hw =>
        (handleSocketEventOnce_fenced _ _ _ hw).mono fun _ _ _ => trivial)

theorem serialLoop_fenced (fuel : Nat) :
    (serialLoop fuel).Meets (fencing allowed) (Prog.onOk fun _ _ => True) world := by
  induction fuel generalizing world with
  | zero => trivial
  | succ fuel ih =>
      refine Prog.Meets.bind (meets_quiet rfl (fun _ => rfl) fun received _ => ?_)
      match received with
      | none => trivial
      | some (request, accepting) =>
          refine Prog.Meets.seqOk (serveRequest_fenced _ _) fun result w hresult => ?_
          refine Prog.Meets.seqOk (answer_fenced _ _ hresult) fun sent w₁ _ => ?_
          split
          · exact ih
          · trivial

end

/-! ## Main results -/

/-- The write of the first attempt times out.  The retry is admitted while the lease is live, its
preparation writes the pending snapshot, and the recorded result is answered although the lease
may have run out during that write. -/
theorem replay_of_unwritten_commit_is_unfenced :
    ∃ world, Reachable Enabled true world ∧ ¬ Fenced world.trace := by
  refine ⟨?world, ⟨3, ?rest, ?run⟩, ?unfenced⟩
  case run =>
    refine Runs.service (Wakeup.request (some (increment 0)) true) rfl
      ⟨⟨rfl, rfl⟩, by rintro _ _ _ ⟨⟩⟩ ?_
    refine Runs.service () rfl ⟨trivial, by simp [received]⟩ ?_
    refine Runs.service (.ok ()) rfl ⟨trivial, by simp [received]⟩ ?_
    refine Runs.get (Runs.set ?_)
    refine Runs.service (.ok (0, none)) rfl ⟨trivial, by simp [received]⟩ ?_
    refine Runs.get (Runs.set (Runs.get (Runs.set ?_)))
    refine Runs.service () rfl ⟨trivial, by simp [received]⟩ ?_
    -- The method returns a new state, and the write of its snapshot times out.
    refine Runs.service (Wakeup.executed 1 (increment 0) (.ok (.completed .null incremented [])))
      rfl ⟨List.mem_singleton.mpr rfl, by simp [received]⟩ ?_
    refine Runs.get (Runs.set (Runs.get (Runs.get (Runs.set ?_))))
    refine Runs.service (.ok firstPlan) rfl ⟨trivial, by simp [received]⟩ ?_
    refine Runs.service (.ok 0) rfl ⟨trivial, by simp [received]⟩ ?_
    refine Runs.service (.error "deadline exceeded") rfl ⟨trivial, by simp [received]⟩ ?_
    refine Runs.service (.ok ()) rfl ⟨trivial, by simp [received]⟩ ?_
    refine Runs.get (Runs.set ?_)
    refine Runs.service true rfl ⟨trivial, by simp [received]⟩ ?_
    refine Runs.get (Runs.set ?_)
    -- The retry: the lease is checked, the pending snapshot is written, the result is answered.
    refine Runs.service (Wakeup.request (some (increment 1)) true) rfl ⟨⟨rfl, rfl⟩, ?_⟩ ?_
    · rintro _ ⟨⟩
      simp [Unused, received, increment]
    refine Runs.service () rfl ⟨trivial, by simp [received]⟩ ?_
    refine Runs.service (.ok ()) rfl ⟨trivial, by simp [received]⟩ ?_
    refine Runs.get (Runs.set ?_)
    refine Runs.service (.ok 0) rfl ⟨trivial, by simp [received]⟩ ?_
    refine Runs.service (.ok .written) rfl ⟨trivial, by simp [received]⟩ ?_
    refine Runs.get (Runs.set ?_)
    refine Runs.service true rfl ⟨trivial, by simp [received]⟩ ?_
    exact .refl
  case unfenced =>
    intro h
    obtain ⟨since, before, htrace, hsince⟩ := h [] (increment 1) .null [] true _ rfl rfl
    cases since with
    | nil => cases htrace
    | cons first since =>
        obtain ⟨rfl, -⟩ := List.cons.inj htrace
        exact hsince _ List.mem_cons_self rfl

/-- In every run of either loop in which the admission loop receives no retry of a commit that is
still to be written, an invocation is answered with success only under a lease that was checked
after its result had become durable. -/
theorem completed_is_fenced (hasAdmission : Bool) (world : World)
    (h : Reachable AvoidsUnwrittenReplay hasAdmission world) : Fenced world.trace := by
  refine h.invariant (fun world => Fenced world.trace) (fun fuel => ?_) fenced_nil
  cases hasAdmission with
  | true => exact (admissionLoop_fenced fuel).mono fun _ _ _ => trivial
  | false => exact (serialLoop_fenced fuel).mono fun _ _ _ => trivial

/-- A call that changes state is answered with success by the serial loop. -/
theorem completed_is_fenced_of_increment :
    ∃ world, Reachable AvoidsUnwrittenReplay false world ∧
      (∃ sent, ⟨.answer (increment 0) (.ok (.completed .null [])), sent⟩ ∈ world.trace) ∧
      Fenced world.trace := by
  refine ⟨?world, ?reachable, ⟨true, ?answered⟩, completed_is_fenced false _ ?reachable⟩
  case reachable =>
    refine ⟨1, ?rest, ?run⟩
    case run =>
      refine Runs.service (some (increment 0, true)) rfl
        ⟨⟨trivial, by rintro _ _ _ ⟨⟩⟩, nofun⟩ ?_
      refine Runs.service (.ok ()) rfl ⟨⟨trivial, nofun⟩, nofun⟩ ?_
      refine Runs.service (.ok ()) rfl ⟨⟨trivial, nofun⟩, nofun⟩ ?_
      refine Runs.get (Runs.set ?_)
      refine Runs.service (.ok (0, none)) rfl ⟨⟨trivial, nofun⟩, nofun⟩ ?_
      refine Runs.get (Runs.set ?_)
      refine Runs.service (.ok (.completed .null incremented [])) rfl ⟨⟨trivial, nofun⟩, nofun⟩ ?_
      refine Runs.get (Runs.set ?_)
      refine Runs.service (.ok firstPlan) rfl ⟨⟨trivial, nofun⟩, nofun⟩ ?_
      refine Runs.service (.ok 0) rfl ⟨⟨trivial, nofun⟩, nofun⟩ ?_
      refine Runs.service (.ok .written) rfl ⟨⟨trivial, nofun⟩, nofun⟩ ?_
      refine Runs.get (Runs.set ?_)
      refine Runs.service (.ok ()) rfl ⟨⟨trivial, nofun⟩, nofun⟩ ?_
      refine Runs.service (.ok ()) rfl ⟨⟨trivial, nofun⟩, nofun⟩ ?_
      refine Runs.service true rfl ⟨⟨trivial, nofun⟩, nofun⟩ ?_
      exact .refl
  case answered => exact List.mem_cons_self

end Host
end DurableActors
