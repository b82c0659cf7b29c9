import DurableActors.Host.Footprint

/-!
# What a run says about the mailbox

Most calls of a task concern only the state of the actor.  This module separates
the entries of a run that concern the mailbox from the others, says which
runtime functions leave the mailbox alone, and keeps track of the executions in
flight.
-/

namespace DurableActors
namespace Host

open Effects

/-! ## What a runtime function leaves unchanged -/

/-- Whether an entry concerns the mailbox: a wakeup, an answer, a mark, or a request that is handed
to the executor. -/
def isEvent : Entry → Bool
  | ⟨.mark _, _⟩ | ⟨.receive, _⟩ | ⟨.select, _⟩ | ⟨.answer _ _, _⟩ | ⟨.invoke _ _, _⟩
  | ⟨.handleSocket _ _, _⟩ | ⟨.start _ _ _, _⟩ => true
  | _ => false

/-- The part of a run that concerns the mailbox. -/
def journal (trace : List Entry) : List Entry := trace.filter isEvent

theorem mem_journal {entry : Entry} {trace : List Entry} (h : isEvent entry) :
    entry ∈ journal trace ↔ entry ∈ trace := by
  simp [journal, h]

/-- The fields of the mailbox, without those of the runtime. -/
def Task.mailbox (task : Task) : Task := { task with cachedState := none, activation := none }

/-- The mailbox has seen nothing new. -/
structure Follows (start world : World) : Prop where
  journal_eq : journal world.trace = journal start.trace
  mailbox_eq : world.task.mailbox = start.task.mailbox

theorem Follows.refl (world : World) : Follows world world := ⟨rfl, rfl⟩

theorem Follows.trans {first second third : World} (h : Follows first second)
    (h' : Follows second third) : Follows first third :=
  ⟨h'.journal_eq.trans h.journal_eq, h'.mailbox_eq.trans h.mailbox_eq⟩

theorem Follows.log {start world : World} (h : Follows start world) {entry : Entry}
    (hentry : isEvent entry = false) : Follows start (world.log entry) :=
  ⟨by simpa [journal, hentry] using h.journal_eq, h.mailbox_eq⟩

theorem Follows.setTask {start world : World} (h : Follows start world) {task : Task}
    (htask : task.mailbox = world.task.mailbox) : Follows start { world with task := task } :=
  ⟨h.journal_eq, htask.trans h.mailbox_eq⟩

theorem Follows.field_eq {start world : World} {α : Type} (h : Follows start world)
    (field : Task → α) (hfield : ∀ task : Task, field task.mailbox = field task) :
    field world.task = field start.task := by
  rw [← hfield world.task, h.mailbox_eq, hfield]

theorem unused_journal {ticket : Nat} {trace : List Entry} (h : Unused ticket trace) :
    Unused ticket (journal trace) :=
  fun entry hentry => h entry (List.mem_of_mem_filter hentry)

/-! ## Calls that leave the stored state alone -/

/-- The calls that neither concern the mailbox nor change or read the stored state. -/
def Pauses : Op → Prop
  | .ensureAuthority | .acquireActor _ | .prepareStateWrite _ _ _ | .unixMillis
  | .evict _ | .publish _ _ | .observeAdmission => True
  | _ => False

/-- Only such calls were made. -/
structure Pause (start world : World) : Prop where
  task_eq : world.task = start.task
  trace_eq : ∃ added, world.trace = added ++ start.trace ∧ ∀ entry ∈ added, Pauses entry.1

theorem Pause.refl (world : World) : Pause world world := ⟨rfl, [], rfl, by simp⟩

theorem Pause.log {start world : World} (h : Pause start world) {entry : Entry}
    (hentry : Pauses entry.1) : Pause start (world.log entry) := by
  obtain ⟨added, htrace, hadded⟩ := h.trace_eq
  refine ⟨h.task_eq, entry :: added, by simp [htrace], ?_⟩
  intro other hother
  rcases List.mem_cons.mp hother with rfl | hmem
  · exact hentry
  · exact hadded other hmem

/-- What each of these calls keeps, all of them keep. -/
theorem Pause.keeps {start world : World} (h : Pause start world) (keeps : List Entry → Prop)
    (hkeeps : ∀ entry trace, Pauses entry.1 → keeps trace → keeps (entry :: trace))
    (hstart : keeps start.trace) : keeps world.trace := by
  obtain ⟨added, htrace, hadded⟩ := h.trace_eq
  rw [htrace]
  clear htrace
  induction added with
  | nil => exact hstart
  | cons entry added ih =>
      refine hkeeps entry _ (hadded entry (by simp)) (ih fun other hother => ?_)
      exact hadded other (List.mem_cons_of_mem _ hother)

theorem Pause.follows {start world : World} (h : Pause start world) : Follows start world := by
  refine ⟨h.keeps (fun trace => journal trace = journal start.trace) ?_ rfl, by rw [h.task_eq]⟩
  rintro ⟨op, answer⟩ trace hop htrace
  cases op <;> first | exact htrace | cases hop

theorem Pause.trans {first second third : World} (h : Pause first second)
    (h' : Pause second third) : Pause first third := by
  obtain ⟨added, htrace, hadded⟩ := h.trace_eq
  obtain ⟨added', htrace', hadded'⟩ := h'.trace_eq
  refine ⟨h'.task_eq.trans h.task_eq, added' ++ added, by simp [htrace', htrace], ?_⟩
  intro entry hentry
  rcases List.mem_append.mp hentry with hmem | hmem
  · exact hadded' entry hmem
  · exact hadded entry hmem

section

variable {α : Type}

theorem ensureAuthority_pauses : ensureAuthority.Within Pauses fun _ => True :=
  ⟨trivial, fun _ => Prog.within_lift.mono (fun _ hop => hop) fun _ _ => trivial⟩

theorem acquireActor_pauses (actor : ActorKey) :
    (acquireActor actor).Within Pauses fun _ => True :=
  ⟨trivial, fun _ => Prog.within_lift.mono (fun _ hop => hop) fun _ _ => trivial⟩

theorem evict_pauses (actor : ActorKey) : (evict actor).Within Pauses fun _ => True :=
  ⟨trivial, fun _ => trivial⟩

theorem publish_pauses (actor : ActorKey) (effects : List ActorSocketEffect) :
    (publish actor effects).Within Pauses fun _ => True :=
  ⟨trivial, fun _ => Prog.within_lift.mono (fun _ hop => hop) fun _ _ => trivial⟩

theorem completeWithState_pauses (actor : ActorKey) (stateVersion : Nat) (result : Value)
    (effects : List ActorSocketEffect) :
    (completeWithState actor stateVersion result effects).Within Pauses fun _ => True := by
  refine Prog.Within.bind ensureAuthority_pauses fun _ _ => ?_
  dsimp only
  split
  · trivial
  · refine Prog.Within.bind (Prog.Within.attempt (publish_pauses _ _)) fun published _ => ?_
    cases published <;> trivial

/-- What is reported for a failed execution is a failure with a code. -/
theorem methodResult_pauses (actor : ActorKey) (outcome : Except Error ActorMethodOutcome) :
    (methodResult actor outcome).Within Pauses fun executed =>
      ∀ failure, executed = .error failure → ∃ code message, failure = .failedWith code message ∧
        (code = "actor_error" ∨ code = "resource_exhausted") := by
  unfold methodResult
  have hfailed : ∀ message failure,
      (.error (.failedWith "actor_error" message) :
        Except ActorExecutionResult (Value × Value × List ActorSocketEffect)) = .error failure →
      ∃ code message, failure = .failedWith code message ∧
        (code = "actor_error" ∨ code = "resource_exhausted") := by
    rintro message _ ⟨⟩
    exact ⟨_, message, rfl, .inl rfl⟩
  cases outcome with
  | error error => exact Prog.Within.bind (evict_pauses actor) fun _ _ => hfailed _
  | ok outcome =>
      cases outcome with
      | interleaved outcome => exact hfailed _
      | completed result state effects =>
          dsimp only
          cases validateSocketEffects effects with
          | ok _ => exact fun failure hfailure => by cases hfailure
          | error error => exact Prog.Within.bind (evict_pauses actor) fun _ _ => hfailed _
      | failed failure =>
          have hcode : ∀ result, (.error (.failedWith (if failure.code = "resource_exhausted" then
              "resource_exhausted" else "actor_error") failure.message) :
              Except ActorExecutionResult (Value × Value × List ActorSocketEffect)) =
                .error result → ∃ code message, result = .failedWith code message ∧
                  (code = "actor_error" ∨ code = "resource_exhausted") := by
            rintro _ ⟨⟩
            refine ⟨_, _, rfl, ?_⟩
            split <;> simp
          dsimp only
          split
          · exact Prog.Within.bind (evict_pauses actor) fun _ _ => hcode
          · exact hcode

/-- The result of a method reports its errors as a value. -/
theorem methodResult_total (actor : ActorKey) (outcome : Except Error ActorMethodOutcome) :
    (methodResult actor outcome).Total := by
  unfold methodResult
  cases outcome with
  | error error => exact fun _ => trivial
  | ok outcome =>
      cases outcome with
      | interleaved outcome => trivial
      | completed result state effects =>
          dsimp only
          cases validateSocketEffects effects with
          | ok _ => trivial
          | error error => exact fun _ => trivial
      | failed failure =>
          dsimp only
          split
          · exact fun _ => trivial
          · trivial

/-- A commit that writes nothing pauses. -/
theorem pauses_of_commit {p : Run α} {post : α → Prop}
    (h : p.Within (CommitCalls fun _ => False) post) : p.Within Pauses post := by
  refine h.mono (fun op hop => ?_) fun _ hvalue => hvalue
  obtain rfl | ⟨_, _, _, rfl⟩ | ⟨_, _, rfl, hwrites⟩ := hop.cases
  · trivial
  · trivial
  · exact hwrites.elim

end

/-! ## Parts of the program -/

/-- What {lit}`admit_request` does with a request that runs the actor's code. -/
def admitInvocation (request : ActorRequest) (invocation : ActorInvocation) (replay : Bool) :
    Run Bool := do
  match ← (prepareInvocation invocation request.ownerEpoch replay).attempt with
  | .ok (.completed result) =>
      finish request (.ok result)
      return true
  | .error _ => stop request
  | .ok (.execute state) =>
      let task ← getTask
      let id := task.nextInvocation + 1
      setTask { task with
        nextInvocation := id
        blockedOn := some id
        running := task.running ++ [(id, request)] }
      startExecution id request state
      return true

/-- What is reported of a publication after the cached state is put back. -/
def reportPublished (actor : ActorKey) (cached : CachedActorState)
    (effects : List ActorSocketEffect) (report : Value → Value)
    (published : Except Error ActorExecutionResult) : Run ActorExecutionResult := do
  putCached cached
  match published with
  | .ok (.completed result _) =>
      completeWithState actor cached.stateVersion (report result) effects
  | .ok other => return other
  | .error _ => return .outcomeUnknown

/-! ## Executions in flight -/

/-- The reply channel of an execution that ended. -/
def executedTicket : Entry → Option Nat
  | ⟨.select, .executed _ request _⟩ => some request.ticket
  | _ => none

/-- The executions in flight: each has a reply channel of its own and ends once. -/
structure InFlight (events : List Entry) (running : List (Nat × ActorRequest)) : Prop where
  received : ∀ entry ∈ running, ¬ Unused entry.2.ticket events
  notExecuted : ∀ entry ∈ running, ∀ event ∈ events, executedTicket event ≠ some entry.2.ticket
  nodup : (running.map fun entry => entry.2.ticket).Nodup
  executedReceived : ∀ event ∈ events, ∀ ticket, executedTicket event = some ticket →
    ¬ Unused ticket events
  executedOnce : ∀ event ∈ events, ∀ event' ∈ events, ∀ ticket,
    executedTicket event = some ticket → executedTicket event' = some ticket → event = event'

/-- A request that has come in and was not handed to the executor. -/
structure Fresh (events : List Entry) (running : List (Nat × ActorRequest))
    (request : ActorRequest) : Prop where
  received : ¬ Unused request.ticket events
  notExecuted : ∀ event ∈ events, executedTicket event ≠ some request.ticket
  notRunning : ∀ entry ∈ running, entry.2.ticket ≠ request.ticket

theorem unused_of_cons {ticket : Nat} {event : Entry} {events : List Entry}
    (h : Unused ticket (event :: events)) : Unused ticket events :=
  fun other hother => h other (List.mem_cons_of_mem _ hother)

namespace InFlight

variable {events : List Entry} {running : List (Nat × ActorRequest)}

/-- Other events leave the executions in flight. -/
theorem cons (h : InFlight events running) {event : Entry} (hevent : executedTicket event = none) :
    InFlight (event :: events) running where
  received := fun entry hentry hunused => h.received entry hentry (unused_of_cons hunused)
  notExecuted := by
    intro entry hentry other hother
    rcases List.mem_cons.mp hother with rfl | hmem
    · simp [hevent]
    · exact h.notExecuted entry hentry other hmem
  nodup := h.nodup
  executedReceived := by
    intro other hother ticket hticket hunused
    rcases List.mem_cons.mp hother with rfl | hmem
    · simp [hevent] at hticket
    · exact h.executedReceived other hmem ticket hticket (unused_of_cons hunused)
  executedOnce := by
    intro other hother other' hother' ticket hticket hticket'
    rcases List.mem_cons.mp hother with rfl | hmem
    · simp [hevent] at hticket
    · rcases List.mem_cons.mp hother' with rfl | hmem'
      · simp [hevent] at hticket'
      · exact h.executedOnce other hmem other' hmem' ticket hticket hticket'

/-- An execution ends. -/
theorem executed (h : InFlight events running) {id : Nat} {request : ActorRequest}
    {result : Except Error ActorMethodOutcome} (hrunning : (id, request) ∈ running) :
    InFlight (⟨.select, .executed id request result⟩ :: events)
      (running.filter fun entry => ¬ entry.1 = id) where
  received := by
    intro entry hentry hunused
    exact h.received entry (List.mem_of_mem_filter hentry) (unused_of_cons hunused)
  notExecuted := by
    intro entry hentry other hother
    obtain ⟨hmem, hid⟩ := List.mem_filter.mp hentry
    rcases List.mem_cons.mp hother with rfl | hold
    · -- Reply channels are unique among the executions in flight.
      intro hticket
      have hsame : (id, request) = entry :=
        List.inj_on_of_nodup_map h.nodup hrunning hmem (Option.some.inj hticket)
      subst hsame
      simp at hid
    · exact h.notExecuted entry hmem other hold
  nodup := h.nodup.sublist (List.filter_sublist.map _)
  executedReceived := by
    intro other hother ticket hticket hunused
    rcases List.mem_cons.mp hother with rfl | hmem
    · cases hticket
      exact h.received (id, request) hrunning (unused_of_cons hunused)
    · exact h.executedReceived other hmem ticket hticket (unused_of_cons hunused)
  executedOnce := by
    intro other hother other' hother' ticket hticket hticket'
    have hnew := h.notExecuted (id, request) hrunning
    rcases List.mem_cons.mp hother with rfl | hmem <;>
      rcases List.mem_cons.mp hother' with rfl | hmem'
    · rfl
    · cases hticket
      exact absurd hticket' (hnew other' hmem')
    · cases hticket'
      exact absurd hticket (hnew other hmem)
    · exact h.executedOnce other hmem other' hmem' ticket hticket hticket'

/-- A request comes in. -/
theorem fresh (h : InFlight events running) {request : ActorRequest} {accepting : Bool}
    (hunused : Unused request.ticket events) :
    Fresh (⟨.select, .request (some request) accepting⟩ :: events) running request where
  received := fun hnone => hnone _ List.mem_cons_self request rfl rfl
  notExecuted := by
    intro event hevent hticket
    rcases List.mem_cons.mp hevent with rfl | hmem
    · cases hticket
    · exact h.executedReceived event hmem _ hticket hunused
  notRunning := by
    intro entry hentry hticket
    refine h.received entry hentry ?_
    rw [hticket]
    exact hunused

/-- A fresh request is handed to the executor. -/
theorem start (h : InFlight events running) {request : ActorRequest}
    (hfresh : Fresh events running request) (id : Nat) :
    InFlight events (running ++ [(id, request)]) :=
  { h with
    received := by
      intro entry hentry
      rcases List.mem_append.mp hentry with hmem | hmem
      · exact h.received entry hmem
      · obtain rfl := List.mem_singleton.mp hmem
        exact hfresh.received
    notExecuted := by
      intro entry hentry
      rcases List.mem_append.mp hentry with hmem | hmem
      · exact h.notExecuted entry hmem
      · obtain rfl := List.mem_singleton.mp hmem
        exact hfresh.notExecuted
    nodup := by
      rw [List.map_append, List.map_singleton, List.nodup_append]
      refine ⟨h.nodup, List.nodup_singleton _, ?_⟩
      intro ticket hticket other hother
      obtain ⟨entry, hentry, rfl⟩ := List.mem_map.mp hticket
      obtain rfl := List.mem_singleton.mp hother
      exact hfresh.notRunning entry hentry }

end InFlight

end Host
end DurableActors
