import DurableActors.Host.Ordering

/-!
# How the mailbox deals with executions

What the admission loop owes to the executor, as a property of its runs: which
executions are in flight, when several may be, and which failures end the loop.

Main results:

- Theorem {lit}`admissionLoop_disciplined`: in every run of the admission loop each
  execution is started once and its outcome is taken once, a second execution is
  started beside another only after the executor let invocations interleave, nothing is
  taken after a failure that an interleaved actor does not survive, and the loop
  waits only when the outcome that is next in sequence has not come.
-/

namespace DurableActors
namespace Host

open Effects

/-! ## Entries that tell the mailbox nothing -/

/-- Whether an entry reports a failed hydration. -/
def failsHydration : Entry → Bool
  | ⟨.hydrate _ _, .error _⟩ => true
  | _ => false

/-- Whether an entry tells the mailbox nothing. -/
def isQuiet (entry : Entry) : Bool := !isEvent entry && !failsHydration entry

/-- The mailbox has seen nothing new and no hydration failed. -/
structure Quiet (start world : World) : Prop where
  mailbox_eq : world.task.mailbox = start.task.mailbox
  trace_eq : ∃ added, world.trace = added ++ start.trace ∧ ∀ entry ∈ added, isQuiet entry

namespace Quiet

variable {start world : World}

theorem refl (world : World) : Quiet world world := ⟨rfl, [], rfl, by simp⟩

theorem trans {first second third : World} (h : Quiet first second) (h' : Quiet second third) :
    Quiet first third := by
  obtain ⟨added, htrace, hadded⟩ := h.trace_eq
  obtain ⟨added', htrace', hadded'⟩ := h'.trace_eq
  refine ⟨h'.mailbox_eq.trans h.mailbox_eq, added' ++ added, by simp [htrace', htrace], ?_⟩
  intro entry hentry
  rcases List.mem_append.mp hentry with hmem | hmem
  · exact hadded' entry hmem
  · exact hadded entry hmem

theorem log (h : Quiet start world) {entry : Entry} (hentry : isQuiet entry) :
    Quiet start (world.log entry) :=
  h.trans ⟨rfl, [entry], rfl, by simpa using hentry⟩

theorem setTask (h : Quiet start world) {task : Task}
    (htask : task.mailbox = world.task.mailbox) : Quiet start { world with task := task } :=
  h.trans ⟨htask, [], rfl, by simp⟩

/-- What a quiet entry keeps, a quiet stretch of the run keeps. -/
theorem keeps (h : Quiet start world) (keeps : List Entry → Prop)
    (hkeeps : ∀ entry trace, isQuiet entry → keeps trace → keeps (entry :: trace))
    (hstart : keeps start.trace) : keeps world.trace := by
  obtain ⟨added, htrace, hadded⟩ := h.trace_eq
  rw [htrace]
  clear htrace
  induction added with
  | nil => exact hstart
  | cons entry added ih =>
      apply hkeeps entry _ (hadded entry (by simp))
      exact ih fun other hother => hadded other (List.mem_cons_of_mem _ hother)

/-- What is read off the entries that are not quiet stays. -/
theorem filterMap_eq (h : Quiet start world) {β : Type} (f : Entry → Option β)
    (hf : ∀ entry, isQuiet entry → f entry = none) :
    world.trace.filterMap f = start.trace.filterMap f := by
  apply h.keeps fun trace => trace.filterMap f = start.trace.filterMap f
  · intro entry trace hentry htrace
    simp [hf entry hentry, htrace]
  · rfl

theorem field_eq (h : Quiet start world) {β : Type} (field : Task → β)
    (hfield : ∀ task : Task, field task.mailbox = field task) :
    field world.task = field start.task := by
  rw [← hfield world.task, h.mailbox_eq, hfield]

end Quiet

theorem Pause.quiet {start world : World} (h : Pause start world) : Quiet start world := by
  obtain ⟨added, htrace, hadded⟩ := h.trace_eq
  refine ⟨by rw [h.task_eq], added, htrace, fun entry hentry => ?_⟩
  have hpauses := hadded entry hentry
  obtain ⟨op, answer⟩ := entry
  cases op <;> first | rfl | cases hpauses

/-! ## What the runtime's functions do to the mailbox -/

section

variable {allowed : World → Entry → Prop} {keeps : List Entry → Prop} {α : Type} {world : World}
variable (hkeeps : ∀ entry trace, isEvent entry = false → keeps trace → keeps (entry :: trace))

include hkeeps

/-- The rule for a program whose calls are quiet and leave the task's state alone. -/
theorem calls_quiet {footprint : Op → Prop} {p : Run α} {post : α → Prop}
    (h : p.Within footprint post)
    (hcalls : ∀ op, footprint op → op.isService ∧ ∀ answer, isQuiet ⟨op, answer⟩) :
    p.Meets (keeping allowed fun w => keeps w.trace)
      (fun _ w => Quiet world w ∧ w.task = world.task) world := by
  have halways : p.Meets (keeping allowed fun w => keeps w.trace)
      (Prog.always (fun w => Quiet world w ∧ w.task = world.task) fun value _ => post value)
      world := by
    refine Prog.Within.meets_always h ?_ ?_ ⟨Quiet.refl world, rfl⟩
    · rintro w _ hw rfl
      exact hw
    intro op w answer w' hop hw hserve
    obtain ⟨hservice, hquiet⟩ := hcalls op hop
    obtain ⟨-, rfl⟩ := (serve_service hservice).mp hserve
    have hevent : isEvent ⟨op, answer⟩ = false := by
      have := hquiet answer
      simp only [isQuiet, Bool.and_eq_true, Bool.not_eq_true'] at this
      exact this.1
    exact ⟨fun htrace => hkeeps _ _ hevent htrace, hw.1.log (hquiet answer), hw.2⟩
  exact halways.mono fun _ _ hr => hr.1

theorem pausing_quiet {p : Run α} {post : α → Prop} (h : p.Within Pauses post) :
    p.Meets (keeping allowed fun w => keeps w.trace)
      (fun _ w => Quiet world w ∧ w.task = world.task) world := by
  apply calls_quiet hkeeps h
  intro op hop
  cases op <;> first | exact ⟨rfl, fun _ => rfl⟩ | cases hop

theorem committing_quiet {p : Run α} {post : α → Prop}
    (h : p.Within (CommitCalls fun _ => True) post) :
    p.Meets (keeping allowed fun w => keeps w.trace)
      (fun _ w => Quiet world w ∧ w.task = world.task) world := by
  apply calls_quiet hkeeps h
  intro op hop
  obtain rfl | ⟨_, _, _, rfl⟩ | ⟨_, _, rfl, -⟩ := hop.cases <;> exact ⟨rfl, fun _ => rfl⟩

omit hkeeps in
theorem putCached_quiet {start : World} (cached : CachedActorState) (h : Quiet start world) :
    (putCached cached).Meets (keeping allowed fun w => keeps w.trace)
      (fun _ w => Quiet start w) world :=
  meets_modifyTask.mpr ⟨id, h.setTask rfl⟩

theorem takeOrLoadState_quiet (actor : ActorKey) (ownerEpoch : Nat) :
    (takeOrLoadState actor ownerEpoch).Meets (keeping allowed fun w => keeps w.trace)
      (fun _ w => Quiet world w) world := by
  refine Prog.Meets.bind (meets_getTask.mpr (Prog.Meets.bind (meets_setTask.mpr ⟨id, ?_⟩)))
  have htaken : Quiet world { world with task := { world.task with cachedState := none } } :=
    (Quiet.refl world).setTask rfl
  dsimp only
  split
  · exact htaken
  · refine Prog.Meets.bind ((meets_service rfl).mpr fun answer _ =>
      ⟨fun htrace => hkeeps _ _ rfl htrace, Prog.meets_lift.mpr ?_⟩)
    cases answer with
    | error error => exact htaken.log rfl
    | ok loaded =>
        dsimp only
        split
        · refine Prog.Meets.bind (Prog.meets_ensure.mpr ⟨fun _ => ?_, fun _ => ?_⟩)
          · exact htaken.log rfl
          · exact htaken.log rfl
        · exact Prog.meets_lift.mpr (htaken.log rfl)

theorem prepareInvocation_quiet (invocation : ActorInvocation) (ownerEpoch : Nat)
    (replay : Bool) :
    (prepareInvocation invocation ownerEpoch replay).Meets (keeping allowed fun w => keeps w.trace)
      (fun _ w => Quiet world w) world := by
  refine (pausing_quiet hkeeps ensureAuthority_pauses).seq (fun _ w hquiet => ?_)
    fun _ w hquiet => hquiet.1
  refine (takeOrLoadState_quiet hkeeps _ _).seq (fun cached w₁ hquiet₁ => ?_)
    fun _ w₁ hquiet₁ => hquiet.1.trans hquiet₁
  refine (committing_quiet hkeeps (finishPendingCommit_within (fun _ => True)
    fun _ _ _ => trivial)).seq (fun outcome w₂ hquiet₂ => ?_) fun _ w₂ hquiet₂ =>
      (hquiet.1.trans hquiet₁).trans hquiet₂.1
  obtain ⟨finished, cached'⟩ := outcome
  refine (putCached_quiet cached' ((hquiet.1.trans hquiet₁).trans hquiet₂.1)).seq
    (fun _ w₃ hquiet₃ => ?_) fun _ w₃ hquiet₃ => hquiet₃
  cases finished with
  | error error => exact hquiet₃
  | ok _ =>
      dsimp only
      cases if replay then cached'.replay invocation.requestId else none with
      | none => exact hquiet₃
      | some result => exact hquiet₃

theorem completeWithState_quiet {start : World} (actor : ActorKey) (stateVersion : Nat)
    (result : Value) (effects : List ActorSocketEffect) (h : Quiet start world) :
    (completeWithState actor stateVersion result effects).Meets
      (keeping allowed fun w => keeps w.trace) (fun _ w => Quiet start w) world :=
  (pausing_quiet hkeeps (completeWithState_pauses _ _ _ _)).mono fun _ _ hquiet => h.trans hquiet.1

theorem finishMethod_quiet (invocation : ActorInvocation) (ownerEpoch : Nat)
    (executed : Except ActorExecutionResult (Value × Value × List ActorSocketEffect))
    (origin : CommitOrigin) :
    (finishMethod invocation ownerEpoch executed origin).Meets
      (keeping allowed fun w => keeps w.trace) (fun _ w => Quiet world w) world := by
  unfold finishMethod
  cases executed with
  | error failure => exact Quiet.refl world
  | ok executed =>
      obtain ⟨result, nextState, effects⟩ := executed
      refine Prog.Meets.bind (meets_getTask.mpr (Prog.Meets.bind (meets_setTask.mpr ⟨id, ?_⟩)))
      have htaken : Quiet world { world with task := { world.task with cachedState := none } } :=
        (Quiet.refl world).setTask rfl
      refine Prog.Meets.bind (Prog.meets_context.mpr ⟨fun cached _ => ?_, fun _ => htaken⟩)
      dsimp only
      split
      · refine (putCached_quiet cached htaken).seq (fun _ w hquiet => ?_)
          fun _ w hquiet => hquiet
        exact completeWithState_quiet hkeeps _ _ _ _ hquiet
      · refine (committing_quiet hkeeps (publishResult_within (fun _ => True)
          fun _ _ => trivial)).seq (fun outcome w hquiet => ?_) fun _ w hquiet =>
            htaken.trans hquiet.1
        obtain ⟨published, cached'⟩ := outcome
        have hpublished := htaken.trans hquiet.1
        -- A failed publication evicts the instance before the state is put back.
        have hput : ∀ w₁, Quiet world w₁ → (reportPublished invocation.actor
            cached' effects id published).Meets
              (keeping allowed fun w => keeps w.trace) (fun _ w => Quiet world w) w₁ := by
          intro w₁ hquiet₁
          refine (putCached_quiet cached' hquiet₁).seq (fun _ w₂ hquiet₂ => ?_)
            fun _ w₂ hquiet₂ => hquiet₂
          rcases published with _ | result
          · exact hquiet₂
          · cases result with
            | completed result _ => exact completeWithState_quiet hkeeps _ _ _ _ hquiet₂
            | _ => exact hquiet₂
        dsimp only
        split
        · refine (pausing_quiet hkeeps (evict_pauses _)).seq (fun _ w₁ hquiet₁ => ?_)
            fun _ w₁ hquiet₁ => hpublished.trans hquiet₁.1
          exact hput w₁ (hpublished.trans hquiet₁.1)
        · exact hput w hpublished

theorem finishSerial_quiet (invocation : ActorInvocation) (ownerEpoch : Nat)
    (outcome : Except Error ActorMethodOutcome) (origin : CommitOrigin) :
    (finishSerial invocation ownerEpoch outcome origin).Meets
      (keeping allowed fun w => keeps w.trace) (fun _ w => Quiet world w) world := by
  refine (pausing_quiet hkeeps (methodResult_pauses _ _)).seq (fun executed w hquiet => ?_)
    fun _ w hquiet => hquiet.1
  exact (finishMethod_quiet hkeeps _ _ _ _).mono fun _ _ hquiet₁ => hquiet.1.trans hquiet₁

theorem commitInterleaved_quiet (invocation : ActorInvocation) (ownerEpoch : Nat)
    (outcome : ActorInterleavedOutcome) (origin : CommitOrigin) :
    (commitInterleaved invocation ownerEpoch outcome origin).Meets
      (keeping allowed fun w => keeps w.trace) (fun _ w => Quiet world w) world := by
  refine (pausing_quiet hkeeps ensureAuthority_pauses).seq (fun _ w hquiet => ?_)
    fun _ w hquiet => hquiet.1
  refine Prog.Meets.bind (Prog.meets_lift.mpr ?_)
  cases validateSocketEffects outcome.effects with
  | error error => exact hquiet.1
  | ok _ =>
      refine Prog.Meets.bind (meets_getTask.mpr (Prog.Meets.bind (meets_setTask.mpr ⟨id, ?_⟩)))
      have htaken : Quiet world { w with task := { w.task with cachedState := none } } :=
        hquiet.1.setTask rfl
      refine Prog.Meets.bind (Prog.meets_context.mpr ⟨fun cached _ => ?_, fun _ => htaken⟩)
      refine Prog.Meets.bind (Prog.meets_ensure.mpr ⟨fun _ => ?_, fun _ => htaken⟩)
      dsimp only
      split
      · refine (putCached_quiet cached htaken).seq (fun _ w₁ hquiet₁ => ?_)
          fun _ w₁ hquiet₁ => hquiet₁
        exact completeWithState_quiet hkeeps _ _ _ _ hquiet₁
      · refine (committing_quiet hkeeps (publishResult_within (fun _ => True)
          fun _ _ => trivial)).seq (fun published w₁ hquiet₁ => ?_) fun _ w₁ hquiet₁ =>
            htaken.trans hquiet₁.1
        obtain ⟨publication, cached'⟩ := published
        refine (putCached_quiet cached' (htaken.trans hquiet₁.1)).seq
          (fun _ w₂ hquiet₂ => ?_) fun _ w₂ hquiet₂ => hquiet₂
        refine Prog.Meets.bind (Prog.meets_lift.mpr ?_)
        cases publication with
        | error error => exact hquiet₂
        | ok _ => exact completeWithState_quiet hkeeps _ _ _ _ hquiet₂

/-- An activation that succeeds is quiet; one that fails may be because a hydration failed. -/
theorem activateActor_quiet (actor : ActorKey) :
    (activateActor actor).Meets (keeping allowed fun w => keeps w.trace)
      (Prog.onOk fun _ w => Quiet world w) world := by
  refine (pausing_quiet hkeeps ensureAuthority_pauses).seq (fun _ w hquiet => ?_)
    fun _ _ _ => trivial
  refine Prog.Meets.bind (meets_getTask.mpr ?_)
  dsimp only
  cases w.task.activation with
  | some activation => exact hquiet.1
  | none =>
      have hhydrate : ∀ (activation : ActorActivation) (w₁ : World), Quiet world w₁ → (do
          let task ← getTask
          hydrate actor (task.cachedState.bind CachedActorState.state)
          ensureAuthority
          modifyTask fun task => { task with activation := some activation }
          return activation : Run ActorActivation).Meets (keeping allowed fun w => keeps w.trace)
            (Prog.onOk fun _ w => Quiet world w) w₁ := by
        intro activation w₁ hquiet₁
        refine Prog.Meets.bind (meets_getTask.mpr ?_)
        refine Prog.Meets.bind ((meets_service rfl).mpr fun answer _ =>
          ⟨fun htrace => hkeeps _ _ rfl htrace, Prog.meets_lift.mpr ?_⟩)
        cases answer with
        | error error => trivial
        | ok _ =>
            refine (pausing_quiet hkeeps ensureAuthority_pauses).seq (fun _ w₂ hquiet₂ => ?_)
              fun _ _ _ => trivial
            refine Prog.Meets.bind (meets_modifyTask.mpr ⟨id, ?_⟩)
            exact ((hquiet₁.log rfl).trans hquiet₂.1).setTask rfl
      refine (pausing_quiet hkeeps (acquireActor_pauses actor)).seq (fun activation w₁ hquiet₁ => ?_)
        fun _ _ _ => trivial
      have hacquired := hquiet.1.trans hquiet₁.1
      split
      · split
        · refine (putCached_quiet _ hacquired).seq (fun _ w₂ hquiet₂ => ?_)
            fun _ _ _ => trivial
          exact hhydrate _ w₂ hquiet₂
        · refine Prog.Meets.bind (Prog.meets_context.mpr ⟨fun bytes _ => ?_, fun _ => trivial⟩)
          refine Prog.Meets.bind (Prog.meets_lift.mpr ?_)
          cases CachedActorState.fromLoaded activation.ownerEpoch activation.stateVersion
              (some bytes) with
          | error error => trivial
          | ok cached =>
              refine (putCached_quiet _ hacquired).seq (fun _ w₂ hquiet₂ => ?_)
                fun _ _ _ => trivial
              exact hhydrate _ w₂ hquiet₂
      · exact hhydrate _ w₁ hacquired

end

/-! ## The discipline -/

/-- The execution that an entry starts. -/
def startedId : Entry → Option Nat
  | ⟨.start id _ _, _⟩ => some id
  | _ => none

/-- The execution whose outcome an entry takes. -/
def endedId : Entry → Option Nat
  | ⟨.select, .executed id _ _⟩ => some id
  | _ => none

/-- The sequence number of an outcome that an entry takes. -/
def receivedNumber : Entry → Option Nat
  | ⟨.select, .executed _ _ (.ok (.interleaved outcome))⟩ => some outcome.sequence
  | _ => none

/-- Whether an entry tells the mailbox that invocations may interleave. -/
def isLicence : Entry → Bool
  | ⟨.select, .permission granted⟩ => granted
  | ⟨.select, .executed _ _ (.ok (.interleaved _))⟩ => true
  | _ => false

/-- The executor has let invocations interleave. -/
def Interleaves (trace : List Entry) : Prop := ∃ entry ∈ trace, isLicence entry

/-- The outcomes that an interleaved actor does not survive. -/
def isFatal : Except Error ActorMethodOutcome → Bool
  | .ok (.interleaved _) => false
  | .ok (.failed failure) => !isBenignFailure failure
  | _ => true

/-- Whether an entry takes such an outcome. -/
def takesFatal : Entry → Bool
  | ⟨.select, .executed _ _ result⟩ => isFatal result
  | _ => false

/-- The loop is about to end: an interleaved actor failed, or a hydration did. -/
def Doomed : List Entry → Prop
  | [] => False
  | entry :: trace =>
      Doomed trace ∨ (takesFatal entry ∧ Interleaves trace) ∨ failsHydration entry

/-- An execution has been started and its outcome has not been taken. -/
def Unfinished (id : Nat) (trace : List Entry) : Prop :=
  id ∈ trace.filterMap startedId ∧ id ∉ trace.filterMap endedId

/-- The commits that have begun are those of the first numbers, and the next number has not come. -/
def CaughtUp (trace : List Entry) : Prop :=
  ∃ count, trace.filterMap begins = (List.range' 1 count).reverse ∧
    count + 1 ∉ trace.filterMap receivedNumber

/-- What the mailbox owes when it makes a call. -/
def Orderly (trace : List Entry) : Entry → Prop
  | ⟨.select, wakeup⟩ => ¬ Doomed trace ∧ CaughtUp trace ∧
      ∀ id request result, wakeup = .executed id request result → Unfinished id trace
  | ⟨.start id _ _, _⟩ => id ∉ trace.filterMap startedId ∧
      ∀ other, Unfinished other trace → Interleaves trace
  | _ => True

/-- Every call so far was in order. -/
def Disciplined : List Entry → Prop
  | [] => True
  | entry :: trace => Disciplined trace ∧ Orderly trace entry

theorem Disciplined.cons {trace : List Entry} (h : Disciplined trace) {entry : Entry}
    (hentry : Orderly trace entry) : Disciplined (entry :: trace) := ⟨h, hentry⟩

theorem Disciplined.quiet (entry : Entry) (trace : List Entry) (hentry : isEvent entry = false)
    (h : Disciplined trace) : Disciplined (entry :: trace) := by
  obtain ⟨op, answer⟩ := entry
  cases op <;> first | exact ⟨h, trivial⟩ | cases hentry

theorem interleaves_cons {trace : List Entry} {entry : Entry} :
    Interleaves (entry :: trace) ↔ isLicence entry ∨ Interleaves trace := by
  simp [Interleaves]

/-- Executions in flight together are interleaved. -/
theorem Disciplined.interleaves {trace : List Entry} (h : Disciplined trace) {id other : Nat}
    (hid : Unfinished id trace) (hother : Unfinished other trace) (hne : id ≠ other) :
    Interleaves trace := by
  induction trace with
  | nil => cases hid.1
  | cons entry trace ih =>
      rw [interleaves_cons]
      have hearlier : ∀ id, Unfinished id (entry :: trace) → startedId entry ≠ some id →
          Unfinished id trace := by
        intro id hunfinished hstarted
        obtain ⟨hmem, hended⟩ := hunfinished
        constructor
        · obtain ⟨other, hother, hsome⟩ := List.mem_filterMap.mp hmem
          rcases List.mem_cons.mp hother with rfl | hmem'
          · exact absurd hsome hstarted
          · exact List.mem_filterMap.mpr ⟨other, hmem', hsome⟩
        · intro hmem'
          obtain ⟨other, hother, hsome⟩ := List.mem_filterMap.mp hmem'
          exact hended (List.mem_filterMap.mpr ⟨other, List.mem_cons_of_mem _ hother, hsome⟩)
      by_cases hstarted : startedId entry = none
      · right
        exact ih h.1 (hearlier id hid (by simp [hstarted])) (hearlier other hother (by simp [hstarted]))
      · -- One of the two was in flight when the other was started.
        obtain ⟨op, answer⟩ := entry
        cases op with
        | start started request state =>
            right
            by_cases heq : started = id
            · subst heq
              exact h.2.2 other (hearlier other hother (by simpa [startedId] using hne))
            · exact h.2.2 id (hearlier id hid (by simpa [startedId] using heq))
        | _ => exact absurd rfl hstarted

/-- Nothing is taken before it was started. -/
theorem Disciplined.started_of_ended {trace : List Entry} (h : Disciplined trace) {id : Nat}
    (hid : id ∈ trace.filterMap endedId) : id ∈ trace.filterMap startedId := by
  induction trace with
  | nil => cases hid
  | cons entry trace ih =>
      have hmono : id ∈ trace.filterMap startedId → id ∈ (entry :: trace).filterMap startedId := by
        intro hmem
        obtain ⟨other, hother, hsome⟩ := List.mem_filterMap.mp hmem
        exact List.mem_filterMap.mpr ⟨other, List.mem_cons_of_mem _ hother, hsome⟩
      obtain ⟨other, hother, hsome⟩ := List.mem_filterMap.mp hid
      rcases List.mem_cons.mp hother with rfl | hearlier
      · -- The outcome of an unfinished execution is taken.
        obtain ⟨op, answer⟩ := other
        cases op with
        | select =>
            cases answer with
            | executed taken request result =>
                obtain rfl : taken = id := Option.some.inj hsome
                exact hmono (h.2.2.2 taken request result rfl).1
            | _ => cases hsome
        | _ => cases hsome
      · exact hmono (ih h.1 (List.mem_filterMap.mpr ⟨other, hearlier, hsome⟩))

theorem unfinished_cons {trace : List Entry} {entry : Entry} {id : Nat}
    (h : Unfinished id trace) (hended : endedId entry ≠ some id) :
    Unfinished id (entry :: trace) := by
  constructor
  · rw [List.filterMap_cons]
    split <;> simp [h.1]
  · rw [List.filterMap_cons]
    split
    · exact h.2
    · rename_i other hother
      rw [hother] at hended
      exact fun hmem => (List.mem_cons.mp hmem).elim (fun heq => hended (by rw [heq])) h.2

/-! ## The state of the mailbox -/

/-- The mailbox knows what the run says about it. -/
structure Knows (world : World) : Prop where
  undoomed : ¬ Doomed world.trace
  mode : world.task.interleaved = true ↔ Interleaves world.trace
  running : ∀ id, id ∈ world.task.running.map Prod.fst ↔ Unfinished id world.trace
  bound : ∀ id ∈ world.trace.filterMap startedId, id ≤ world.task.nextInvocation
  endedBound : ∀ id ∈ world.trace.filterMap endedId, id ≤ world.task.nextInvocation
  begun : ∃ count, world.trace.filterMap begins = (List.range' 1 count).reverse ∧
    world.task.nextSequence = count + 1
  keys : ∀ entry ∈ world.task.ready, entry.1 = entry.2.2.2.sequence
  held : ∀ number ∈ world.trace.filterMap receivedNumber,
    number < world.task.nextSequence ∨ number ∈ world.task.ready.map Prod.fst

/-- The mailbox may wait: the next outcome is not there, and before invocations interleave an
execution holds back the next request. -/
structure MayWait (world : World) : Prop where
  knows : Knows world
  alone : world.task.interleaved = false →
    world.task.running = [] ∧ world.task.blockedOn = none ∨
      ∃ id request, world.task.running = [(id, request)] ∧ world.task.blockedOn = some id
  caught : world.task.nextSequence ∉ world.task.ready.map Prod.fst

theorem MayWait.caughtUp {world : World} (h : MayWait world) : CaughtUp world.trace := by
  obtain ⟨count, hbegun, hnext⟩ := h.knows.begun
  refine ⟨count, hbegun, fun hreceived => ?_⟩
  rw [← hnext] at hreceived
  rcases h.knows.held _ hreceived with hlt | hmem
  · exact lt_irrefl _ hlt
  · exact h.caught hmem

/-- Whether an entry changes nothing that the mailbox keeps track of. -/
structure IsSilent (entry : Entry) : Prop where
  licence : isLicence entry = false
  started : startedId entry = none
  ended : endedId entry = none
  received : receivedNumber entry = none
  begins : begins entry = none
  fatal : takesFatal entry = false
  hydration : failsHydration entry = false

theorem isSilent_of_quiet {entry : Entry} (h : isQuiet entry) : IsSilent entry := by
  have hhydration : failsHydration entry = false := by
    simp only [isQuiet, Bool.and_eq_true, Bool.not_eq_true'] at h
    exact h.2
  obtain ⟨op, answer⟩ := entry
  cases op <;> first | exact ⟨rfl, rfl, rfl, rfl, rfl, rfl, hhydration⟩ | cases h

namespace Knows

variable {world : World}

/-- A silent entry is no news. -/
theorem log (h : Knows world) {entry : Entry} (hentry : IsSilent entry) :
    Knows (world.log entry) where
  undoomed := by
    simpa [Doomed, hentry.fatal, hentry.hydration] using h.undoomed
  mode := by
    simpa [interleaves_cons, hentry.licence] using h.mode
  running := by
    simpa [Unfinished, List.filterMap_cons_none hentry.started,
      List.filterMap_cons_none hentry.ended] using h.running
  bound := by
    simpa only [World.log_trace, World.log_task, List.filterMap_cons_none hentry.started] using h.bound
  endedBound := by
    simpa only [World.log_trace, World.log_task, List.filterMap_cons_none hentry.ended] using
      h.endedBound
  begun := by
    simpa only [World.log_trace, World.log_task, List.filterMap_cons_none hentry.begins] using h.begun
  keys := h.keys
  held := by
    simpa only [World.log_trace, World.log_task, List.filterMap_cons_none hentry.received] using
      h.held

/-- A quiet stretch of the run is no news. -/
theorem quiet (h : Knows world) {w : World} (hquiet : Quiet world w) : Knows w := by
  obtain ⟨added, htrace, hadded⟩ := hquiet.trace_eq
  have hlogged : Knows { world with trace := added ++ world.trace } := by
    clear htrace
    induction added with
    | nil => exact h
    | cons entry added ih =>
        refine log (ih fun other hother => hadded other (List.mem_cons_of_mem _ hother)) ?_
        exact isSilent_of_quiet (hadded entry (by simp))
  have hmode := hquiet.field_eq Task.interleaved fun _ => rfl
  have hrunning := hquiet.field_eq Task.running fun _ => rfl
  have hinvocation := hquiet.field_eq Task.nextInvocation fun _ => rfl
  have hsequence := hquiet.field_eq Task.nextSequence fun _ => rfl
  have hready := hquiet.field_eq Task.ready fun _ => rfl
  constructor
  · rw [htrace]
    exact hlogged.undoomed
  · rw [htrace, hmode]
    exact hlogged.mode
  · rw [htrace, hrunning]
    exact hlogged.running
  · rw [htrace, hinvocation]
    exact hlogged.bound
  · rw [htrace, hinvocation]
    exact hlogged.endedBound
  · rw [htrace, hsequence]
    exact hlogged.begun
  · rw [hready]
    exact h.keys
  · rw [htrace, hsequence, hready]
    exact hlogged.held

/-- What holds back requests and whether they still come is not tracked. -/
theorem block (h : Knows world) (blockedOn : Option Nat) :
    Knows { world with task := { world.task with blockedOn := blockedOn } } :=
  ⟨h.undoomed, h.mode, h.running, h.bound, h.endedBound, h.begun, h.keys, h.held⟩

theorem close (h : Knows world) (isOpen : Bool) :
    Knows { world with task := { world.task with isOpen := isOpen } } :=
  ⟨h.undoomed, h.mode, h.running, h.bound, h.endedBound, h.begun, h.keys, h.held⟩

/-- The execution that ended is no longer in flight. -/
theorem running_ended (h : Knows world) (id : Nat) (request : ActorRequest)
    (result : Except Error ActorMethodOutcome) (other : Nat) :
    other ∈ (world.task.running.filter fun entry => ¬ entry.1 = id).map Prod.fst ↔
      Unfinished other (⟨.select, .executed id request result⟩ :: world.trace) := by
  have hstarted : (⟨.select, .executed id request result⟩ :: world.trace).filterMap startedId =
      world.trace.filterMap startedId := rfl
  have hended : (⟨.select, .executed id request result⟩ :: world.trace).filterMap endedId =
      id :: world.trace.filterMap endedId := rfl
  have hrunning := h.running other
  simp only [List.mem_map, Unfinished] at hrunning
  simp only [Unfinished, hstarted, hended, List.mem_cons, not_or, List.mem_map, List.mem_filter]
  constructor
  · rintro ⟨entry, ⟨hmem, hne⟩, rfl⟩
    obtain ⟨hmem', hended'⟩ := hrunning.mp ⟨entry, hmem, rfl⟩
    exact ⟨hmem', by simpa using hne, hended'⟩
  · rintro ⟨hmem, hne, hended'⟩
    obtain ⟨entry, hentry, rfl⟩ := hrunning.mpr ⟨hmem, hended'⟩
    exact ⟨entry, ⟨hentry, by simpa using hne⟩, rfl⟩

/-- An execution that ends was started before. -/
theorem ended_bound (h : Knows world) {id : Nat} {request : ActorRequest}
    (hrunning : (id, request) ∈ world.task.running) (result : Except Error ActorMethodOutcome) :
    ∀ other ∈ (⟨.select, .executed id request result⟩ :: world.trace).filterMap endedId,
      other ≤ world.task.nextInvocation := by
  intro other hother
  rcases List.mem_cons.mp (show other ∈ id :: world.trace.filterMap endedId from hother) with
    rfl | hmem
  · exact h.bound other ((h.running other).mp (List.mem_map_of_mem hrunning)).1
  · exact h.endedBound other hmem

/-- An outcome without a number is taken. -/
theorem taken (h : Knows world) {id : Nat} {request : ActorRequest}
    (hrunning : (id, request) ∈ world.task.running) {result : Except Error ActorMethodOutcome}
    (hnumber : ∀ outcome, result ≠ .ok (.interleaved outcome))
    (hfatal : isFatal result → world.task.interleaved = false) :
    Knows (World.log { world with task := { world.task with
      running := world.task.running.filter fun entry => ¬ entry.1 = id } }
      ⟨.select, .executed id request result⟩) := by
  have hlicence : isLicence ⟨.select, .executed id request result⟩ = false := by
    unfold isLicence
    split <;> simp_all
  have hreceived : receivedNumber ⟨.select, .executed id request result⟩ = none := by
    unfold receivedNumber
    split <;> simp_all
  constructor
  · rintro (hdoomed | ⟨htakes, hinterleaves⟩ | hhydration)
    · exact h.undoomed hdoomed
    · have hserial := hfatal htakes
      rw [h.mode.mpr hinterleaves] at hserial
      cases hserial
    · cases hhydration
  · simpa [interleaves_cons, hlicence] using h.mode
  · exact h.running_ended id request result
  · exact h.bound
  · exact h.ended_bound hrunning result
  · exact h.begun
  · exact h.keys
  · simpa only [World.log_trace, World.log_task, List.filterMap_cons_none hreceived] using h.held

/-- A numbered outcome is taken and held. -/
theorem hold (h : Knows world) {id : Nat} {request : ActorRequest}
    (hrunning : (id, request) ∈ world.task.running) (outcome : ActorInterleavedOutcome) :
    Knows (World.log { world with task := { world.task with
      running := world.task.running.filter fun entry => ¬ entry.1 = id
      interleaved := true
      ready := (outcome.sequence, id, request, outcome) :: world.task.ready } }
      ⟨.select, .executed id request (.ok (.interleaved outcome))⟩) := by
  constructor
  · rintro (hdoomed | ⟨htakes, -⟩ | hhydration)
    · exact h.undoomed hdoomed
    · cases htakes
    · cases hhydration
  · exact ⟨fun _ => interleaves_cons.mpr (.inl rfl), fun _ => rfl⟩
  · exact h.running_ended id request _
  · exact h.bound
  · exact h.ended_bound hrunning _
  · exact h.begun
  · intro entry hentry
    rcases List.mem_cons.mp hentry with rfl | hmem
    · rfl
    · exact h.keys entry hmem
  · intro number hnumber
    rcases List.mem_cons.mp (show number ∈ outcome.sequence ::
      world.trace.filterMap receivedNumber from hnumber) with rfl | hmem
    · exact .inr (by simp)
    · rcases h.held number hmem with hlt | hready
      · exact .inl hlt
      · exact .inr (List.mem_cons_of_mem _ hready)

/-- The outcome that is next in sequence is committed. -/
theorem commit (h : Knows world) {request : ActorRequest} {outcome : ActorInterleavedOutcome}
    (hsequence : outcome.sequence = world.task.nextSequence) :
    Knows (World.log { world with task := { world.task with
      ready := world.task.ready.filter fun entry => ¬ entry.1 = world.task.nextSequence
      nextSequence := world.task.nextSequence + 1 } } (beginsCommit request outcome)) := by
  have hsilent : ∀ entry : Entry, entry = beginsCommit request outcome → isLicence entry = false ∧
      startedId entry = none ∧ endedId entry = none ∧ receivedNumber entry = none := by
    rintro _ rfl
    exact ⟨rfl, rfl, rfl, rfl⟩
  constructor
  · rintro (hdoomed | ⟨htakes, -⟩ | hhydration)
    · exact h.undoomed hdoomed
    · cases htakes
    · cases hhydration
  · simpa [interleaves_cons, (hsilent _ rfl).1] using h.mode
  · exact h.running
  · exact h.bound
  · exact h.endedBound
  · obtain ⟨count, hbegun, hnext⟩ := h.begun
    refine ⟨count + 1, ?_, by simp [hnext]⟩
    have hcons : (World.log { world with task := { world.task with
        ready := world.task.ready.filter fun entry => ¬ entry.1 = world.task.nextSequence
        nextSequence := world.task.nextSequence + 1 } }
        (beginsCommit request outcome)).trace.filterMap begins =
          outcome.sequence :: world.trace.filterMap begins := rfl
    rw [hcons, hbegun, hsequence, hnext, List.range'_concat]
    simp [Nat.add_comm]
  · exact fun entry hentry => h.keys entry (List.mem_of_mem_filter hentry)
  · intro number hnumber
    rcases h.held number hnumber with hlt | hready
    · exact .inl (Nat.lt_succ_of_lt hlt)
    · obtain ⟨entry, hentry, rfl⟩ := List.mem_map.mp hready
      by_cases hnext : entry.1 = world.task.nextSequence
      · exact .inl (by simp [hnext])
      · exact .inr (List.mem_map.mpr ⟨entry, List.mem_filter.mpr ⟨hentry, by simpa using hnext⟩, rfl⟩)

/-- An execution is started. -/
theorem start (h : Knows world) (request : ActorRequest) (state : Option Value) :
    Knows (World.log { world with task := { world.task with
      nextInvocation := world.task.nextInvocation + 1
      blockedOn := some (world.task.nextInvocation + 1)
      running := world.task.running ++ [(world.task.nextInvocation + 1, request)] } }
      ⟨.start (world.task.nextInvocation + 1) request state, ()⟩) := by
  have hstarted : ∀ trace : List Entry,
      (⟨.start (world.task.nextInvocation + 1) request state, ()⟩ :: trace).filterMap startedId =
        (world.task.nextInvocation + 1) :: trace.filterMap startedId := fun _ => rfl
  have hended : ∀ trace : List Entry,
      (⟨.start (world.task.nextInvocation + 1) request state, ()⟩ :: trace).filterMap endedId =
        trace.filterMap endedId := fun _ => rfl
  constructor
  · rintro (hdoomed | ⟨htakes, -⟩ | hhydration)
    · exact h.undoomed hdoomed
    · cases htakes
    · cases hhydration
  · simpa [interleaves_cons, isLicence] using h.mode
  · intro id
    have hrunning := h.running id
    simp only [Unfinished] at hrunning
    simp only [World.log_task, World.log_trace, List.map_append, List.mem_append, hrunning,
      Unfinished, hstarted, hended, List.mem_cons, List.map_cons, List.map_nil, List.not_mem_nil,
      or_false]
    constructor
    · rintro (hold | rfl)
      · exact ⟨.inr hold.1, hold.2⟩
      · refine ⟨.inl rfl, fun hmem => ?_⟩
        have := h.endedBound _ hmem
        omega
    · rintro ⟨rfl | hmem, hnot⟩
      · exact .inr rfl
      · exact .inl ⟨hmem, hnot⟩
  · intro id hid
    rcases List.mem_cons.mp (hstarted world.trace ▸ hid) with rfl | hmem
    · exact le_rfl
    · exact Nat.le_succ_of_le (h.bound id hmem)
  · exact fun id hid => Nat.le_succ_of_le (h.endedBound id hid)
  · exact h.begun
  · exact h.keys
  · exact h.held

end Knows

theorem MayWait.start {world : World} (h : MayWait world) (request : ActorRequest)
    (state : Option Value) (hidle : world.task.blockedOn = none) :
    MayWait (World.log { world with task := { world.task with
      nextInvocation := world.task.nextInvocation + 1
      blockedOn := some (world.task.nextInvocation + 1)
      running := world.task.running ++ [(world.task.nextInvocation + 1, request)] } }
      ⟨.start (world.task.nextInvocation + 1) request state, ()⟩) where
  knows := h.knows.start request state
  alone := by
    intro hserial
    obtain ⟨hnone, -⟩ | ⟨id, request', -, hblocked⟩ := h.alone hserial
    · exact .inr ⟨_, request, by simp [hnone], rfl⟩
    · rw [hidle] at hblocked
      cases hblocked
  caught := h.caught

/-! ## The admission loop -/

/-- What the channels allow, and also the end of the loop at any time: what is owed at the end
holds whenever the loop waits. -/
def Watched (world : World) (entry : Entry) : Prop :=
  Enabled world entry ∨ entry = ⟨.select, .idle⟩

/-- The protocol under which every call is in order. -/
abbrev disciplined : Protocol services World := keeping Watched fun world => Disciplined world.trace

section

variable {α : Type} {world : World}

/-- The rule for a call that is in order. -/
theorem meets_orderly {op : Op} (hop : op.isService) {next : Ans op → Run α}
    {post : Except Error α → World → Prop}
    (h : ∀ answer, Watched world ⟨op, answer⟩ → Orderly world.trace ⟨op, answer⟩ ∧
      (next answer).Meets disciplined post (world.log ⟨op, answer⟩)) :
    (Prog.call (I := services) op next).Meets disciplined post world := by
  refine (meets_service hop).mpr fun answer hwatched => ?_
  obtain ⟨horderly, hnext⟩ := h answer hwatched
  exact ⟨fun htrace => htrace.cons horderly, hnext⟩

theorem finish_disciplined (request : ActorRequest) (result : Except Error ActorExecutionResult)
    {post : Except Error Unit → World → Prop}
    (h : ∀ sent, post (.ok ()) (world.log ⟨.answer request result, sent⟩)) :
    (finish request result).Meets disciplined post world :=
  Prog.Meets.bind (meets_orderly rfl fun sent _ => ⟨trivial, h sent⟩)

theorem leaveMark_disciplined (mark : Mark) {post : Except Error Unit → World → Prop}
    (h : post (.ok ()) (world.log ⟨.mark mark, ()⟩)) :
    (leaveMark mark).Meets disciplined post world :=
  meets_orderly rfl fun _ _ => ⟨trivial, h⟩

/-- The loop goes on only when it may wait. -/
def Resumes (continued : Bool) (world : World) : Prop := continued = true → MayWait world

theorem stop_disciplined (request : ActorRequest) :
    (stop request).Meets disciplined (Prog.onOk Resumes) world := by
  refine Prog.Meets.bind (meets_orderly rfl fun _ _ => ⟨trivial, ?_⟩)
  refine Prog.Meets.bind (finish_disciplined request _ fun sent => ?_)
  rintro ⟨⟩

theorem answer_silent (request : ActorRequest) (result : Except Error ActorExecutionResult)
    (sent : Bool) : IsSilent ⟨.answer request result, sent⟩ :=
  ⟨rfl, rfl, rfl, rfl, rfl, rfl, rfl⟩

theorem release_disciplined (id : Nat) {post : Except Error Unit → World → Prop}
    (h : post (.ok ()) { world with task := { world.task with
      blockedOn := if world.task.blockedOn = some id then none else world.task.blockedOn } }) :
    (release id).Meets disciplined post world := by
  refine meets_modifyTask.mpr ⟨fun htrace => htrace, ?_⟩
  split at h
  · rename_i hblocked
    simpa only [hblocked, if_true] using h
  · rename_i hblocked
    simpa only [hblocked, if_false] using h

theorem MayWait.answer (h : MayWait world) (request : ActorRequest)
    (result : Except Error ActorExecutionResult) (sent : Bool) :
    MayWait (world.log ⟨.answer request result, sent⟩) :=
  ⟨h.knows.log (answer_silent _ _ _), h.alone, h.caught⟩

theorem MayWait.quiet (h : MayWait world) {w : World} (hquiet : Quiet world w) : MayWait w where
  knows := h.knows.quiet hquiet
  alone := by
    rw [hquiet.field_eq Task.interleaved fun _ => rfl, hquiet.field_eq Task.running fun _ => rfl,
      hquiet.field_eq Task.blockedOn fun _ => rfl]
    exact h.alone
  caught := by
    rw [hquiet.field_eq Task.nextSequence fun _ => rfl, hquiet.field_eq Task.ready fun _ => rfl]
    exact h.caught

theorem activate_disciplined (request : ActorRequest) (actor : ActorKey) (h : MayWait world) :
    (activate request actor).Meets disciplined (Prog.onOk Resumes) world := by
  refine Prog.Meets.bind (Prog.Meets.attempt ((activateActor_quiet Disciplined.quiet actor).mono
    fun activated w hactivated => ?_))
  refine Prog.Meets.bind (finish_disciplined request _ fun sent => ?_)
  cases activated with
  | error error => rintro ⟨⟩
  | ok activation => exact fun _ => (h.quiet hactivated).answer request _ sent

/-- Admitting a request starts an execution only when none is in flight or invocations interleave. -/
theorem admitRequest_disciplined (request : ActorRequest) (accepting : Bool) (h : MayWait world)
    (hidle : world.task.blockedOn = none) :
    (admitRequest request accepting).Meets disciplined (Prog.onOk Resumes) world := by
  have hexecute : ∀ operation : ActorOperation,
      (admitInvocation request operation.invocation operation.isMethod).Meets disciplined (Prog.onOk Resumes) world := by
    intro operation
    refine Prog.Meets.bind (Prog.Meets.attempt ((prepareInvocation_quiet Disciplined.quiet _ _ _).mono
      fun prepared w hquiet => ?_))
    have hwait := h.quiet hquiet
    rcases prepared with _ | state | result
    · exact stop_disciplined request
    · refine Prog.Meets.bind (meets_getTask.mpr ?_)
      refine Prog.Meets.bind (meets_setTask.mpr ⟨fun htrace => htrace, ?_⟩)
      have hfresh : w.task.nextInvocation + 1 ∉ w.trace.filterMap startedId := by
        intro hmem
        have := hwait.knows.bound _ hmem
        omega
      have hidle' : w.task.blockedOn = none :=
        (hquiet.field_eq Task.blockedOn fun _ => rfl).trans hidle
      refine Prog.Meets.bind (meets_orderly rfl fun _ _ => ⟨⟨hfresh, fun other hother => ?_⟩, ?_⟩)
      · rw [← hwait.knows.mode]
        by_contra hserial
        have hrunning := (hwait.knows.running other).mpr hother
        obtain ⟨hnone, -⟩ | ⟨id, request', -, hblocked⟩ := hwait.alone (by simpa using hserial)
        · simp [hnone] at hrunning
        · rw [hidle'] at hblocked
          cases hblocked
      · exact fun _ => hwait.start request state hidle'
    · exact Prog.Meets.bind (finish_disciplined request _ fun sent _ =>
        hwait.answer request _ sent)
  unfold admitRequest
  split
  · exact Prog.Meets.bind (finish_disciplined request _ fun sent _ => h.answer request _ sent)
  · split
    · exact activate_disciplined request _ h
    · exact hexecute _

/-- An interleaved mailbox may wait when the next outcome is not there. -/
theorem Knows.mayWait (h : Knows world) (hmode : world.task.interleaved = true)
    (hcaught : world.task.nextSequence ∉ world.task.ready.map Prod.fst) : MayWait world :=
  ⟨h, by simp [hmode], hcaught⟩

/-- A commit takes the outcomes that are next until the next one is not there. -/
theorem commitReady_disciplined (fuel : Nat) (h : Knows world)
    (hmode : world.task.interleaved = true) (hfuel : world.task.ready.length ≤ fuel) :
    (commitReady fuel).Meets disciplined (Prog.onOk Resumes) world := by
  induction fuel generalizing world with
  | zero =>
      have hready : world.task.ready = [] := List.length_eq_zero_iff.mp (Nat.le_zero.mp hfuel)
      exact fun _ => h.mayWait hmode (by simp [hready])
  | succ fuel ih =>
      refine Prog.Meets.bind (meets_getTask.mpr ?_)
      dsimp only
      cases hfind : world.task.ready.find? fun entry => entry.1 = world.task.nextSequence with
      | none =>
          refine fun _ => h.mayWait hmode fun hmem => ?_
          obtain ⟨entry, hentry, hkey⟩ := List.mem_map.mp hmem
          simpa [hkey] using List.find?_eq_none.mp hfind entry hentry
      | some entry =>
          obtain ⟨sequence, id, request, outcome⟩ := entry
          have hmem := List.mem_of_find?_eq_some hfind
          obtain rfl : sequence = world.task.nextSequence := by
            simpa using List.find?_some hfind
          have hsequence : outcome.sequence = world.task.nextSequence := (h.keys _ hmem).symm
          refine Prog.Meets.bind (meets_setTask.mpr ⟨fun htrace => htrace, ?_⟩)
          refine Prog.Meets.bind (leaveMark_disciplined _ ?_)
          refine Prog.Meets.bind (Prog.Meets.attempt ((commitInterleaved_quiet Disciplined.quiet
            _ _ _ _).mono fun committed w hquiet => ?_))
          have hstop : (do
              leaveMark (.commitEnds outcome.sequence false)
              stop request : Run Bool).Meets disciplined (Prog.onOk Resumes) w :=
            Prog.Meets.bind (leaveMark_disciplined _ (stop_disciplined request))
          match committed with
          | .ok (.completed result effects) =>
              refine Prog.Meets.bind (leaveMark_disciplined _ ?_)
              refine Prog.Meets.bind (meets_modifyTask.mpr ⟨fun htrace => htrace, ?_⟩)
              refine Prog.Meets.bind (finish_disciplined request _ fun sent => ?_)
              refine Prog.Meets.bind (release_disciplined id ?_)
              have hready : w.task.ready = world.task.ready.filter fun entry =>
                  ¬ entry.1 = world.task.nextSequence :=
                hquiet.field_eq Task.ready fun _ => rfl
              -- The mailbox would know the same had it counted the commit when it began.
              have hnext : Quiet (World.log { world with task := { world.task with
                  ready := world.task.ready.filter fun entry => ¬ entry.1 = world.task.nextSequence
                  nextSequence := world.task.nextSequence + 1 } } (beginsCommit request outcome))
                  { w with task := { w.task with nextSequence := w.task.nextSequence + 1 } } :=
                ⟨congrArg (fun task : Task => { task with nextSequence := task.nextSequence + 1 })
                  hquiet.mailbox_eq, hquiet.trace_eq⟩
              have hends : IsSilent (endsCommit outcome.sequence true) :=
                ⟨rfl, rfl, rfl, rfl, rfl, rfl, rfl⟩
              have hknows := (((h.commit hsequence).quiet hnext).log hends).log
                (answer_silent request (.ok (.completed result effects)) sent)
              refine ih (hknows.block _) ?_ ?_
              · exact (hquiet.field_eq Task.interleaved fun _ => rfl).trans hmode
              · have hshorter : (world.task.ready.filter fun entry =>
                    ¬ entry.1 = world.task.nextSequence).length < world.task.ready.length := by
                  refine List.length_filter_lt_length_iff_exists.mpr ⟨_, hmem, ?_⟩
                  simp
                show w.task.ready.length ≤ fuel
                rw [hready]
                omega
          | .ok (.failed _) | .ok .reroute | .ok .hostUnavailable | .error _ => exact hstop

/-- An outcome without a number is taken. -/
theorem executedAlone_disciplined {id : Nat} {request : ActorRequest}
    {result : Except Error ActorMethodOutcome} (h : MayWait world)
    (hrunning : (id, request) ∈ world.task.running)
    (hnumber : ∀ outcome, result ≠ .ok (.interleaved outcome)) :
    (executedAlone id request result).Meets disciplined (Prog.onOk Resumes)
      (World.log { world with task := { world.task with
        running := world.task.running.filter fun entry => ¬ entry.1 = id } }
        ⟨.select, .executed id request result⟩) := by
  unfold executedAlone
  refine Prog.Meets.bind (meets_getTask.mpr ?_)
  dsimp only
  split
  · rename_i hmode
    split
    · rename_i failure
      split
      · rename_i hbenign
        refine Prog.Meets.bind (finish_disciplined request _ fun sent => ?_)
        refine Prog.Meets.bind (release_disciplined id fun _ => ?_)
        have hknows := h.knows.taken hrunning hnumber (by simp [isFatal, hbenign])
        exact Knows.mayWait ((hknows.log (answer_silent _ _ sent)).block _) hmode h.caught
      · exact stop_disciplined request
    · exact stop_disciplined request
  · rename_i hmode
    have hserial : world.task.interleaved = false := by simpa using hmode
    refine Prog.Meets.bind (Prog.Meets.attempt ((finishSerial_quiet Disciplined.quiet
      _ _ _ _).mono fun finished w hquiet => ?_))
    refine Prog.Meets.bind (finish_disciplined request _ fun sent => ?_)
    refine Prog.Meets.bind (release_disciplined id fun _ => ?_)
    have hknows := (h.knows.taken hrunning hnumber fun _ => hserial).quiet hquiet
    -- Only this execution was in flight, and it held back the next request.
    obtain ⟨hone, hblocked⟩ : w.task.running = [] ∧ w.task.blockedOn = some id := by
      rw [hquiet.field_eq Task.running fun _ => rfl, hquiet.field_eq Task.blockedOn fun _ => rfl]
      obtain ⟨hnone, -⟩ | ⟨id', request', hone, hblocked⟩ := h.alone hserial
      · rw [hnone] at hrunning
        cases hrunning
      · rw [hone] at hrunning
        obtain ⟨rfl, rfl⟩ := Prod.mk.inj (List.mem_singleton.mp hrunning)
        exact ⟨by simp [hone], hblocked⟩
    exact {
      knows := (hknows.log (answer_silent _ _ sent)).block _
      alone := fun _ => .inl ⟨hone, by simp [hblocked]⟩
      caught := by
        show w.task.nextSequence ∉ w.task.ready.map Prod.fst
        rw [hquiet.field_eq Task.nextSequence fun _ => rfl, hquiet.field_eq Task.ready fun _ => rfl]
        exact h.caught }

theorem executed_disciplined {id : Nat} {request : ActorRequest}
    {result : Except Error ActorMethodOutcome} (h : MayWait world)
    (hrunning : (id, request) ∈ world.task.running) :
    (executed id request result).Meets disciplined (Prog.onOk Resumes)
      (World.log { world with task := { world.task with
        running := world.task.running.filter fun entry => ¬ entry.1 = id } }
        ⟨.select, .executed id request result⟩) := by
  unfold executed
  split
  · rename_i outcome
    refine Prog.Meets.bind (meets_modifyTask.mpr ⟨fun htrace => htrace, ?_⟩)
    refine Prog.Meets.bind (meets_getTask.mpr ?_)
    dsimp only
    split
    · exact stop_disciplined request
    · refine Prog.Meets.bind (meets_setTask.mpr ⟨fun htrace => htrace, ?_⟩)
      exact commitReady_disciplined _ (h.knows.hold hrunning outcome) rfl (by simp)
  · rename_i hnumber
    exact executedAlone_disciplined h hrunning hnumber

/-- The admission loop is disciplined. -/
theorem admissionLoop_disciplined (fuel : Nat) (h : MayWait world) :
    (admissionLoop fuel).Meets disciplined (fun _ _ => True) world := by
  induction fuel generalizing world with
  | zero => trivial
  | succ fuel ih =>
      have hcontinue : ∀ (step : Run Bool) (w : World),
          step.Meets disciplined (Prog.onOk Resumes) w →
          (do if ← step then admissionLoop fuel else return () : Run Unit).Meets disciplined
            (fun _ _ => True) w := by
        intro step w hstep
        refine hstep.seq (fun continued w' hresumes => ?_) fun _ _ _ => trivial
        cases continued with
        | false => trivial
        | true => exact ih (hresumes rfl)
      unfold admissionLoop
      refine Prog.Meets.bind (meets_orderly rfl fun wakeup hwakeup => ?_)
      have hguarded : wakeup ≠ .idle → Guarded world ⟨.select, wakeup⟩ := by
        intro hne
        rcases hwakeup with henabled | hidle
        · exact henabled.1
        · exact absurd (by simpa using hidle) hne
      refine ⟨⟨h.knows.undoomed, h.caughtUp, ?_⟩, ?_⟩
      · rintro id request result rfl
        exact (h.knows.running id).mp (List.mem_map_of_mem (hguarded (by simp)))
      cases wakeup with
      | executed id request result =>
          refine Prog.Meets.bind (meets_modifyTask.mpr ⟨fun htrace => htrace, ?_⟩)
          exact hcontinue _ _ (executed_disciplined h (hguarded (by simp)))
      | permission granted =>
          cases granted with
          | false => trivial
          | true =>
              refine Prog.Meets.bind (meets_modifyTask.mpr ⟨fun htrace => htrace, ih ?_⟩)
              refine Knows.mayWait ?_ rfl h.caught
              constructor
              · rintro (hdoomed | ⟨htakes, -⟩ | hhydration)
                · exact h.knows.undoomed hdoomed
                · cases htakes
                · cases hhydration
              · exact ⟨fun _ => interleaves_cons.mpr (.inl rfl), fun _ => rfl⟩
              · exact h.knows.running
              · exact h.knows.bound
              · exact h.knows.endedBound
              · exact h.knows.begun
              · exact h.knows.keys
              · exact h.knows.held
      | request request accepting =>
          have hlog : MayWait (world.log ⟨.select, .request request accepting⟩) :=
            ⟨h.knows.log ⟨rfl, rfl, rfl, rfl, rfl, rfl, rfl⟩, h.alone, h.caught⟩
          cases request with
          | none =>
              refine Prog.Meets.bind (meets_modifyTask.mpr ⟨fun htrace => htrace, ih ?_⟩)
              exact ⟨hlog.knows.close false, hlog.alone, hlog.caught⟩
          | some request =>
              refine Prog.Meets.bind (meets_orderly rfl fun _ _ => ⟨trivial, ?_⟩)
              refine hcontinue _ _ (admitRequest_disciplined request accepting ?_ ?_)
              · exact hlog.quiet ((Quiet.refl _).log rfl)
              · exact (hguarded (by simp)).2
      | idle => trivial

end

/-- The mailbox of a new task may wait. -/
theorem mayWait_init : MayWait {} where
  knows := ⟨fun h => h, by simp [Interleaves], by simp [Unfinished], by simp, by simp,
    ⟨0, rfl, rfl⟩, by simp, by simp⟩
  alone := fun _ => .inl ⟨rfl, rfl⟩
  caught := by simp

/-- Every run of the admission loop is disciplined, and so is the rest of it. -/
theorem disciplined_of_runs {fuel : Nat} {rest : Run Unit} {world : World}
    (h : Runs Enabled (runActor true fuel, {}) (rest, world)) :
    rest.Meets disciplined (fun _ _ => True) world ∧ Disciplined world.trace := by
  have hwatched : Runs Watched (runActor true fuel, {}) (rest, world) :=
    Relation.ReflTransGen.mono
      (fun _ _ hstep => step_mono (fun _ _ henabled => Or.inl henabled) hstep) _ _ h
  exact Prog.Meets.run (P := disciplined) (fun _ => rfl) (fun _ _ ha hab => hab ha)
    (admissionLoop_disciplined fuel mayWait_init) trivial hwatched

/-- A loop that waits has committed everything up to a number that has not come. -/
theorem caughtUp_of_waiting {fuel : Nat} {next : Wakeup → Run Unit} {world : World}
    (h : Runs Enabled (runActor true fuel, {}) (.call (I := services) .select next, world)) :
    CaughtUp world.trace := by
  obtain ⟨hmeets, hdisciplined⟩ := disciplined_of_runs h
  have hidle := ((meets_service rfl).mp hmeets .idle (.inr rfl)).1 hdisciplined
  exact hidle.2.2.1

end Host
end DurableActors
