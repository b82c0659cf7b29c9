import DurableActors.Host.Dispatcher

/-!
# What the dispatcher counts

The dispatcher's loop takes results of the actor's task, the end of the task, and commands.  It
counts the requests that it has accepted, publishes the count, and releases those that wait for the
host to drain when the count is zero.  The task is any task that takes requests from its channel,
hands each one back at most once, and ends at any time; what it still has then is dropped.

Main results:

- Theorem {lit}`Sound.step`: one step of the dispatcher, its channels and its task.
- Theorem {lit}`dispatcher_accounting`: in every run the count is that of the requests that were
  accepted and neither completed nor abandoned, each request is in one place, and nobody is
  released while the count is not zero.
-/

namespace DurableActors
namespace Host

/-- {lit}`resets_idle_timer`. -/
def ActorOperation.resetsIdleTimer : ActorOperation → Bool
  | activate _ => true
  | method _ => true
  | socket invocation =>
      match invocation.event with
      | .message .. => true
      | _ => false

/-! ## The dispatcher's loop -/

/-- {lit}`HostCommand`.  A drain carries the channel of the one who waits. -/
inductive HostCommand
  | ping
  | invoke (request : ActorRequest)
  | evictIdle (lastActive : Nat)
  | drain (waiter : Nat)
deriving DecidableEq

/-- {lit}`ActorActivity`. -/
structure ActorActivity where
  active : Nat := 0
  resident : Bool := false
  lastActive : Nat := 0
deriving DecidableEq

/-- The dispatcher with what its loop changes.  The actor is resident only after its mailbox was
created. -/
structure Dispatcher where
  counts : HostDispatcher := {}
  resident : Bool := false
  lastActive : Nat := 0
  accepting : Bool := true
  activity : ActorActivity := {}
  stopped : Bool := false
  drained : List Nat := []
deriving DecidableEq

namespace Dispatcher

/-- {lit}`publish_activity`: the second component is who is released. -/
def publishActivity (dispatcher : Dispatcher) : Dispatcher × List Nat :=
  let published := { dispatcher with
    activity := ⟨dispatcher.counts.active, dispatcher.resident, dispatcher.lastActive⟩ }
  if dispatcher.counts.active = 0 then ({ published with drained := [] }, dispatcher.drained)
  else (published, [])

/-- {lit}`HostCommand::Ping`. -/
def ping (now : Nat) (dispatcher : Dispatcher) : Dispatcher × List Nat :=
  { dispatcher with lastActive := now }.publishActivity

/-- {lit}`HostCommand::Drain`. -/
def drain (isClosed : Nat → Bool) (waiter : Nat) (dispatcher : Dispatcher) :
    Dispatcher × List Nat :=
  { dispatcher with
    accepting := false
    drained := (dispatcher.drained.filter fun waiter => !isClosed waiter) ++ [waiter]
  }.publishActivity

/-- {lit}`evict_idle`. -/
def evictIdle (evicted : Except Error Unit) (lastActive : Nat) (dispatcher : Dispatcher) :
    Except Error (Dispatcher × List Nat) :=
  if dispatcher.counts.active ≠ 0 ∨ dispatcher.lastActive ≠ lastActive then
    .ok (dispatcher, [])
  else if !dispatcher.resident then
    .ok (dispatcher, [])
  else
    match evicted with
    | .error error => .error error
    | .ok () => .ok { dispatcher with resident := false }.publishActivity

/-- {lit}`admit`: the answer to a request that is not queued. -/
def tryAdmit (supports : String → Bool) (room : Bool) (request : ActorRequest)
    (dispatcher : Dispatcher) :
    (Dispatcher × List Nat) × Option (Except Error ActorExecutionResult) :=
  match dispatcher.counts.admitRequest supports dispatcher.accepting room request with
  | (counts, some result) => (({ dispatcher with counts }, []), some result)
  | (counts, none) => ({ dispatcher with counts, resident := true }.publishActivity, none)

/-- {lit}`complete`. -/
def complete (now : Nat) (request : ActorRequest) (dispatcher : Dispatcher) :
    Dispatcher × List Nat :=
  { dispatcher with
    counts := dispatcher.counts.complete
    lastActive := if request.operation.resetsIdleTimer then now else dispatcher.lastActive
  }.publishActivity

/-- {lit}`task_stopped`. -/
def taskStopped (dispatcher : Dispatcher) : Dispatcher × List Nat :=
  { dispatcher with counts := dispatcher.counts.taskStopped, stopped := true }.publishActivity

end Dispatcher

/-! ## The dispatcher, its channels and its task -/

/-- The actor's task.  A task that has ended has dropped what it had, until the dispatcher learns
of its end. -/
inductive TaskState
  | absent
  | running
  | ended (lost : List ActorRequest)
  | reaped
deriving DecidableEq

/-- What the task dropped. -/
def TaskState.lost : TaskState → List ActorRequest
  | ended lost => lost
  | _ => []

/-- What happened to requests and to those who wait for the host to drain. -/
inductive AccountEvent
  | admitted (request : ActorRequest)
  | completed (request : ActorRequest)
  | abandoned
  | draining
  | released (waiter : Nat)
deriving DecidableEq

/-- The requests that were accepted and neither completed nor abandoned since; the newest event
comes first. -/
def outstanding : List AccountEvent → List ActorRequest
  | [] => []
  | .admitted request :: earlier => request :: outstanding earlier
  | .completed request :: earlier => (outstanding earlier).erase request
  | .abandoned :: _ => []
  | .draining :: earlier => outstanding earlier
  | .released _ :: earlier => outstanding earlier

/-- The state of the dispatcher, its channels and its task.  The last four fields record what
happened. -/
structure DispatchState where
  dispatcher : Option Dispatcher := some {}
  commands : List HostCommand := []
  task : TaskState := .absent
  queue : List ActorRequest := []
  held : List ActorRequest := []
  completions : List (ActorRequest × Except Error ActorExecutionResult) := []
  submitted : List ActorRequest := []
  replies : List (ActorRequest × Except Error ActorExecutionResult) := []
  dropped : List ActorRequest := []
  log : List AccountEvent := []

/-- The requests among commands. -/
def requestsOf (commands : List HostCommand) : List ActorRequest :=
  commands.filterMap fun
    | .invoke request => some request
    | _ => none

namespace DispatchState

/-- The mailbox's channel takes another request. -/
def room (state : DispatchState) : Bool :=
  match state.task with
  | .absent => true
  | .running => state.queue.length < maxAdmittedInvocationsPerActor
  | _ => false

/-- What the loop publishes after an event. -/
def publish (state : DispatchState) (published : Dispatcher × List Nat)
    (events : List AccountEvent) : DispatchState :=
  { state with
    dispatcher := some published.1
    log := published.2.map .released ++ events ++ state.log }

/-- The dispatcher takes a request. -/
def invoke (supports : String → Bool) (dispatcher : Dispatcher) (request : ActorRequest)
    (state : DispatchState) : DispatchState :=
  match dispatcher.tryAdmit supports state.room request with
  | ((dispatcher, _), some result) =>
      { state with
        dispatcher := some dispatcher
        task := if dispatcher.counts.mailbox.isSome ∧ state.task = .absent then .running
          else state.task
        replies := (request, result) :: state.replies }
  | (published, none) =>
      publish { state with
        task := if state.task = .absent then .running else state.task
        queue := state.queue ++ [request] } published [.admitted request]

/-- The dispatcher returns and drops its channels. -/
def halt (state : DispatchState) : DispatchState :=
  { state with
    dispatcher := none
    commands := []
    completions := []
    dropped := requestsOf state.commands ++ state.completions.map Prod.fst ++ state.dropped }

end DispatchState

/-- One step. -/
inductive DispatchStep (supports : String → Bool) : DispatchState → DispatchState → Prop
  | command {state : DispatchState} (command : HostCommand) :
      state.dispatcher.isSome → requestsOf [command] = [] →
      DispatchStep supports state { state with commands := state.commands ++ [command] }
  /-- A request is sent; each has a reply channel of its own. -/
  | submit {state : DispatchState} (request : ActorRequest) :
      state.dispatcher.isSome → (∀ other ∈ state.submitted, other.ticket ≠ request.ticket) →
      DispatchStep supports state { state with
        commands := state.commands ++ [.invoke request]
        submitted := request :: state.submitted }
  /-- The dispatcher has stopped, so the request cannot be sent. -/
  | refuse {state : DispatchState} (request : ActorRequest) :
      state.dispatcher = none → (∀ other ∈ state.submitted, other.ticket ≠ request.ticket) →
      DispatchStep supports state { state with
        submitted := request :: state.submitted
        replies := (request, .error "actor dispatcher stopped") :: state.replies }
  | ping {state : DispatchState} (dispatcher : Dispatcher) (rest : List HostCommand) (now : Nat) :
      state.dispatcher = some dispatcher → state.commands = .ping :: rest →
      DispatchStep supports state
        ({ state with commands := rest }.publish (dispatcher.ping now) [])
  | invoke {state : DispatchState} (dispatcher : Dispatcher) (request : ActorRequest)
      (rest : List HostCommand) :
      state.dispatcher = some dispatcher → state.commands = .invoke request :: rest →
      DispatchStep supports state
        (DispatchState.invoke supports dispatcher request { state with commands := rest })
  | evictIdle {state : DispatchState} (dispatcher : Dispatcher) (lastActive : Nat)
      (rest : List HostCommand) (evicted : Except Error Unit) (published : Dispatcher × List Nat) :
      state.dispatcher = some dispatcher → state.commands = .evictIdle lastActive :: rest →
      dispatcher.evictIdle evicted lastActive = .ok published →
      DispatchStep supports state ({ state with commands := rest }.publish published [])
  /-- The dispatcher returns when an eviction fails. -/
  | evictFails {state : DispatchState} (dispatcher : Dispatcher) (lastActive : Nat)
      (rest : List HostCommand) (evicted : Except Error Unit) (error : Error) :
      state.dispatcher = some dispatcher → state.commands = .evictIdle lastActive :: rest →
      dispatcher.evictIdle evicted lastActive = .error error →
      DispatchStep supports state { state with commands := rest }.halt
  | drain {state : DispatchState} (dispatcher : Dispatcher) (waiter : Nat)
      (rest : List HostCommand) (isClosed : Nat → Bool) :
      state.dispatcher = some dispatcher → state.commands = .drain waiter :: rest →
      DispatchStep supports state
        ({ state with commands := rest }.publish (dispatcher.drain isClosed waiter) [.draining])
  /-- The dispatcher returns when nobody can send it commands any more. -/
  | close {state : DispatchState} : state.commands = [] → DispatchStep supports state state.halt
  | complete {state : DispatchState} (dispatcher : Dispatcher) (request : ActorRequest)
      (result : Except Error ActorExecutionResult)
      (rest : List (ActorRequest × Except Error ActorExecutionResult)) (now : Nat) :
      state.dispatcher = some dispatcher → state.completions = (request, result) :: rest →
      DispatchStep supports state ({ state with
        completions := rest
        replies := (request, result) :: state.replies }.publish
          (dispatcher.complete now request) [.completed request])
  /-- The dispatcher may learn of the task's end before it takes the task's last results. -/
  | taskStopped {state : DispatchState} (dispatcher : Dispatcher) (lost : List ActorRequest) :
      state.dispatcher = some dispatcher → state.task = .ended lost →
      DispatchStep supports state
        ({ state with task := .reaped }.publish dispatcher.taskStopped [.abandoned])
  | receive {state : DispatchState} (request : ActorRequest) (rest : List ActorRequest) :
      state.task = .running → state.queue = request :: rest →
      DispatchStep supports state { state with queue := rest, held := request :: state.held }
  | finish {state : DispatchState} (request : ActorRequest)
      (result : Except Error ActorExecutionResult) :
      state.task = .running → request ∈ state.held → state.dispatcher.isSome →
      DispatchStep supports state { state with
        held := state.held.erase request
        completions := state.completions ++ [(request, result)] }
  /-- The dispatcher has returned, so the result is lost. -/
  | finishLost {state : DispatchState} (request : ActorRequest) :
      state.task = .running → request ∈ state.held → state.dispatcher = none →
      DispatchStep supports state { state with
        held := state.held.erase request
        dropped := request :: state.dropped }
  /-- The task returns, panics or is aborted. -/
  | taskEnds {state : DispatchState} :
      state.task = .running →
      DispatchStep supports state { state with
        task := .ended (state.queue ++ state.held)
        queue := []
        held := []
        dropped := state.queue ++ state.held ++ state.dropped }

/-- The states that a dispatcher can reach. -/
def DispatchReachable (supports : String → Bool) (state : DispatchState) : Prop :=
  Relation.ReflTransGen (DispatchStep supports) {} state

/-! ## The account -/

/-- An account in which nobody is released while requests are outstanding, and only disconnects are
accepted once the host drains. -/
def OrderlyAccount : List AccountEvent → Prop
  | [] => True
  | .admitted request :: earlier =>
      (.draining ∈ earlier → request.operation.isDisconnect) ∧ OrderlyAccount earlier
  | .released _ :: earlier =>
      .draining ∈ earlier ∧ outstanding earlier = [] ∧ OrderlyAccount earlier
  | _ :: earlier => OrderlyAccount earlier

/-- What the dispatcher knows. -/
structure Counted (state : DispatchState) (dispatcher : Dispatcher) : Prop where
  active : dispatcher.counts.active = (outstanding state.log).length
  limit : dispatcher.counts.active ≤ maxAdmittedInvocationsPerActor
  absent : dispatcher.counts.mailbox = none ↔ state.task = .absent
  admitted : (dispatcher.counts.mailbox.getD {}).admitted = dispatcher.counts.active
  accepting : .draining ∈ state.log → dispatcher.accepting = false
  waiting : dispatcher.drained ≠ [] → .draining ∈ state.log
  /-- The requests that are counted wait for the task, are with it, come back from it, or were
  dropped by it. -/
  places : state.task ≠ .reaped → ∀ request, (outstanding state.log).count request =
    state.queue.count request + state.held.count request +
      (state.completions.map Prod.fst).count request + state.task.lost.count request
  /-- Nothing is counted when the end of the task is known. -/
  reaped : state.task = .reaped → outstanding state.log = []

/-- What holds in every state. -/
structure DispatchState.Sound (state : DispatchState) : Prop where
  tickets : (state.submitted.map ActorRequest.ticket).Nodup
  /-- Each request is in one place. -/
  placed : ∀ request, state.submitted.count request =
    (requestsOf state.commands).count request + state.queue.count request +
      state.held.count request + (state.completions.map Prod.fst).count request +
        (state.replies.map Prod.fst).count request + state.dropped.count request
  idle : state.task ≠ .running → state.queue = [] ∧ state.held = []
  orderly : OrderlyAccount state.log
  counted : ∀ dispatcher ∈ state.dispatcher, Counted state dispatcher

/-- A request is accepted or answered at once. -/
theorem HostDispatcher.admitRequest_cases (supports : String → Bool) (accepting room : Bool)
    (dispatcher : HostDispatcher) (request : ActorRequest) :
    (∃ counts result,
      dispatcher.admitRequest supports accepting room request = (counts, some result) ∧
        counts.active = dispatcher.active ∧
        (counts.mailbox = dispatcher.mailbox ∨
          dispatcher.mailbox = none ∧ counts.mailbox = some {})) ∨
    ∃ counts,
      dispatcher.admitRequest supports accepting room request = (counts, none) ∧
        room = true ∧ (accepting = true ∨ request.operation.isDisconnect) ∧
        (dispatcher.mailbox.getD {}).admitted < maxAdmittedInvocationsPerActor ∧
        counts.active = dispatcher.active + 1 ∧
        counts.mailbox = some { admitted := (dispatcher.mailbox.getD {}).admitted + 1 } := by
  have hcreated : some (dispatcher.mailbox.getD {}) = dispatcher.mailbox ∨
      dispatcher.mailbox = none ∧ some (dispatcher.mailbox.getD {}) = some {} := by
    cases dispatcher.mailbox with
    | none => exact .inr ⟨rfl, rfl⟩
    | some mailbox => exact .inl rfl
  unfold admitRequest
  cases hvalidate : validate supports accepting request with
  | some result => exact .inl ⟨_, _, rfl, rfl, .inl rfl⟩
  | none =>
    have haccepting : accepting = true ∨ request.operation.isDisconnect := by
      unfold validate at hvalidate
      split at hvalidate
      · cases hvalidate
      · rename_i hopen
        cases accepting
        · exact .inr (by simpa using hopen)
        · exact .inl rfl
    dsimp only
    split_ifs with hidentity hfull hroom
    · exact .inl ⟨_, _, rfl, rfl, .inl rfl⟩
    · exact .inl ⟨_, _, rfl, rfl, hcreated⟩
    · exact .inr ⟨_, rfl, hroom, haccepting, Nat.lt_of_not_le hfull, rfl, rfl⟩
    · exact .inl ⟨_, _, rfl, rfl, hcreated⟩

namespace HostDispatcher

variable {counts : HostDispatcher} (h : (counts.mailbox.getD {}).admitted = counts.active)
include h

/-- A result takes one from both counts, unless they are zero. -/
theorem complete_counts :
    counts.complete.active = counts.active - 1 ∧
      (counts.complete.mailbox.getD {}).admitted = counts.active - 1 ∧
      (counts.complete.mailbox = none ↔ counts.mailbox = none) := by
  unfold complete
  cases hmailbox : counts.mailbox with
  | none =>
    rw [hmailbox] at h
    simp only [hmailbox, ← h, Option.getD_none, and_true]
  | some mailbox =>
    rw [hmailbox, Option.getD_some] at h
    dsimp only
    split
    · simp [h]
    · have hzero : mailbox.admitted = 0 := by omega
      simp [hmailbox, ← h, hzero]

/-- A stopped task leaves both counts at zero. -/
theorem taskStopped_counts :
    counts.taskStopped.active = 0 ∧ (counts.taskStopped.mailbox.getD {}).admitted = 0 ∧
      (counts.taskStopped.mailbox = none ↔ counts.mailbox = none) := by
  unfold taskStopped
  cases hmailbox : counts.mailbox with
  | none =>
    rw [hmailbox] at h
    simp only [hmailbox, ← h, Option.getD_none, and_true]
  | some mailbox =>
    rw [hmailbox, Option.getD_some] at h
    simp [h]

end HostDispatcher

/-! ## Publishing -/

section Publish

variable (dispatcher : Dispatcher)

@[simp]
theorem Dispatcher.publishActivity_counts :
    dispatcher.publishActivity.1.counts = dispatcher.counts := by
  unfold publishActivity
  split <;> rfl

@[simp]
theorem Dispatcher.publishActivity_accepting :
    dispatcher.publishActivity.1.accepting = dispatcher.accepting := by
  unfold publishActivity
  split <;> rfl

/-- Those who wait are released together, and only if nothing is counted. -/
theorem Dispatcher.publishActivity_released :
    dispatcher.publishActivity.1.drained = dispatcher.drained ∧
        dispatcher.publishActivity.2 = [] ∨
      dispatcher.counts.active = 0 ∧ dispatcher.publishActivity.1.drained = [] ∧
        dispatcher.publishActivity.2 = dispatcher.drained := by
  unfold publishActivity
  split
  · rename_i hzero
    exact .inr ⟨hzero, rfl, rfl⟩
  · exact .inl ⟨rfl, rfl⟩

end Publish

@[simp]
theorem outstanding_released (released : List Nat) (log : List AccountEvent) :
    outstanding (released.map .released ++ log) = outstanding log := by
  induction released with
  | nil => rfl
  | cons waiter released ih => exact ih

theorem orderlyAccount_released {released : List Nat} {log : List AccountEvent}
    (h : OrderlyAccount log)
    (hempty : released ≠ [] → .draining ∈ log ∧ outstanding log = []) :
    OrderlyAccount (released.map .released ++ log) := by
  induction released with
  | nil => exact h
  | cons waiter released ih =>
    obtain ⟨hdraining, hnone⟩ := hempty (List.cons_ne_nil _ _)
    exact ⟨List.mem_append_right _ hdraining, (outstanding_released released log).trans hnone,
      ih fun _ => ⟨hdraining, hnone⟩⟩

/-- The account does not depend on which of its places a request is in. -/
theorem Counted.of_same {state state' : DispatchState} {dispatcher : Dispatcher}
    (h : Counted state dispatcher) (hlog : state'.log = state.log)
    (htask : state'.task = state.task)
    (hplaces : ∀ request, state'.queue.count request + state'.held.count request +
        (state'.completions.map Prod.fst).count request =
      state.queue.count request + state.held.count request +
        (state.completions.map Prod.fst).count request) :
    Counted state' dispatcher where
  active := by rw [hlog, h.active]
  limit := h.limit
  absent := by rw [htask, h.absent]
  admitted := h.admitted
  accepting := by
    rw [hlog]
    exact h.accepting
  waiting := by
    rw [hlog]
    exact h.waiting
  places hreaped request := by
    rw [hlog, hplaces, htask]
    exact h.places (htask ▸ hreaped) request
  reaped hreaped := by
    rw [hlog]
    exact h.reaped (htask ▸ hreaped)

namespace DispatchState

variable {state : DispatchState} {dispatcher : Dispatcher} {supports : String → Bool}

/-- Publishing an account that is sound. -/
theorem Sound.publish {events : List AccountEvent}
    (h : Sound { state with dispatcher := some dispatcher, log := events ++ state.log }) :
    Sound (state.publish dispatcher.publishActivity events) := by
  have hcounted := h.counted dispatcher rfl
  have hreleased := dispatcher.publishActivity_released
  refine ⟨h.tickets, h.placed, h.idle, ?_, ?_⟩
  · rw [DispatchState.publish, List.append_assoc]
    refine orderlyAccount_released h.orderly fun hsome => ?_
    rcases hreleased with ⟨-, hnone⟩ | ⟨hzero, -, hall⟩
    · exact absurd hnone hsome
    · rw [hall] at hsome
      refine ⟨hcounted.waiting hsome, List.length_eq_zero_iff.mp ?_⟩
      rw [← hzero]
      exact hcounted.active.symm
  · rintro _ ⟨⟩
    have hlog : (state.publish dispatcher.publishActivity events).log =
        dispatcher.publishActivity.2.map .released ++ (events ++ state.log) :=
      List.append_assoc ..
    have hdraining : .draining ∈ (state.publish dispatcher.publishActivity events).log ↔
        .draining ∈ events ++ state.log := by
      simp [hlog]
    constructor
    · rw [Dispatcher.publishActivity_counts, hlog, outstanding_released]
      exact hcounted.active
    · rw [Dispatcher.publishActivity_counts]
      exact hcounted.limit
    · rw [Dispatcher.publishActivity_counts]
      exact hcounted.absent
    · rw [Dispatcher.publishActivity_counts]
      exact hcounted.admitted
    · rw [hdraining, Dispatcher.publishActivity_accepting]
      exact hcounted.accepting
    · rw [hdraining]
      rcases hreleased with ⟨hsame, -⟩ | ⟨-, hnone, -⟩
      · rw [hsame]
        exact hcounted.waiting
      · exact fun hsome => absurd hnone hsome
    · rw [hlog, outstanding_released]
      exact hcounted.places
    · rw [hlog, outstanding_released]
      exact hcounted.reaped

/-- A command that is not a request. -/
theorem Sound.commands (h : Sound state) {commands : List HostCommand}
    (hsame : requestsOf commands = requestsOf state.commands) :
    Sound { state with commands } where
  tickets := h.tickets
  placed request := by
    rw [show requestsOf commands = _ from hsame]
    exact h.placed request
  idle := h.idle
  orderly := h.orderly
  counted dispatcher hdispatcher :=
    (h.counted dispatcher hdispatcher).of_same rfl rfl fun _ => rfl

theorem requestsOf_append (first second : List HostCommand) :
    requestsOf (first ++ second) = requestsOf first ++ requestsOf second :=
  List.filterMap_append ..

/-- A new request has a place. -/
theorem Sound.submit (h : Sound state) {request : ActorRequest}
    (hnew : ∀ other ∈ state.submitted, other.ticket ≠ request.ticket) :
    Sound { state with
      commands := state.commands ++ [.invoke request]
      submitted := request :: state.submitted } where
  tickets := by
    simpa using ⟨fun other hother => hnew other hother, h.tickets⟩
  placed other := by
    have hplaced := h.placed other
    dsimp only
    rw [requestsOf_append, List.count_append, List.count_cons, hplaced]
    have hone : (requestsOf [.invoke request]).count other =
        if request == other then 1 else 0 := by
      simp [requestsOf, List.count_cons]
    rw [hone]
    omega
  idle := h.idle
  orderly := h.orderly
  counted dispatcher hdispatcher :=
    (h.counted dispatcher hdispatcher).of_same rfl rfl fun _ => rfl

/-- A dispatcher that has returned drops what its channels hold. -/
theorem Sound.halt (h : Sound state) : Sound state.halt where
  tickets := h.tickets
  placed request := by
    have hplaced := h.placed request
    simp only [DispatchState.halt, List.count_append, List.map_nil, List.count_nil]
    rw [hplaced]
    simp only [requestsOf, List.filterMap_nil, List.count_nil]
    omega
  idle := h.idle
  orderly := h.orderly
  counted := nofun

/-- A request that cannot be sent is answered. -/
theorem Sound.refuse (h : Sound state) {request : ActorRequest}
    (hnew : ∀ other ∈ state.submitted, other.ticket ≠ request.ticket)
    (result : Except Error ActorExecutionResult) :
    Sound { state with
      submitted := request :: state.submitted
      replies := (request, result) :: state.replies } where
  tickets := by
    simpa using ⟨fun other hother => hnew other hother, h.tickets⟩
  placed other := by
    have hplaced := h.placed other
    simp only [List.count_cons, List.map_cons]
    rw [hplaced]
    omega
  idle := h.idle
  orderly := h.orderly
  counted dispatcher hdispatcher :=
    (h.counted dispatcher hdispatcher).of_same rfl rfl fun _ => rfl

/-- The task takes a request. -/
theorem Sound.receive (h : Sound state) {request : ActorRequest} {rest : List ActorRequest}
    (hrunning : state.task = .running) (hqueue : state.queue = request :: rest) :
    Sound { state with queue := rest, held := request :: state.held } where
  tickets := h.tickets
  placed other := by
    have hplaced := h.placed other
    simp only [hqueue, List.count_cons] at hplaced ⊢
    omega
  idle hidle := absurd hrunning hidle
  orderly := h.orderly
  counted dispatcher hdispatcher := by
    refine (h.counted dispatcher hdispatcher).of_same rfl rfl fun other => ?_
    simp only [hqueue, List.count_cons]
    omega

theorem count_erase_add {request : ActorRequest} {held : List ActorRequest} (h : request ∈ held)
    (other : ActorRequest) :
    (held.erase request).count other + [request].count other = held.count other := by
  have hcount := (List.perm_cons_erase h).count_eq other
  simp only [List.count_cons, List.count_nil] at hcount ⊢
  omega

/-- The task hands a request back. -/
theorem Sound.finish (h : Sound state) {request : ActorRequest}
    (result : Except Error ActorExecutionResult) (hrunning : state.task = .running)
    (hheld : request ∈ state.held) :
    Sound { state with
      held := state.held.erase request
      completions := state.completions ++ [(request, result)] } where
  tickets := h.tickets
  placed other := by
    have hplaced := h.placed other
    have herase := count_erase_add hheld other
    simp only [List.map_append, List.map_cons, List.map_nil, List.count_append]
    omega
  idle hidle := absurd hrunning hidle
  orderly := h.orderly
  counted dispatcher hdispatcher := by
    refine (h.counted dispatcher hdispatcher).of_same rfl rfl fun other => ?_
    have herase := count_erase_add hheld other
    simp only [List.map_append, List.map_cons, List.map_nil, List.count_append]
    omega

/-- The task hands a request back that nobody takes. -/
theorem Sound.finishLost (h : Sound state) {request : ActorRequest}
    (hrunning : state.task = .running) (hheld : request ∈ state.held)
    (hstopped : state.dispatcher = none) :
    Sound { state with
      held := state.held.erase request
      dropped := request :: state.dropped } where
  tickets := h.tickets
  placed other := by
    have hplaced := h.placed other
    have herase := count_erase_add hheld other
    simp only [List.count_cons, List.count_nil] at herase ⊢
    omega
  idle hidle := absurd hrunning hidle
  orderly := h.orderly
  counted dispatcher hdispatcher := by
    rw [hstopped] at hdispatcher
    cases hdispatcher

/-- The task ends, and what it had is dropped but still counted. -/
theorem Sound.taskEnds (h : Sound state) (hrunning : state.task = .running) :
    Sound { state with
      task := .ended (state.queue ++ state.held)
      queue := []
      held := []
      dropped := state.queue ++ state.held ++ state.dropped } where
  tickets := h.tickets
  placed other := by
    have hplaced := h.placed other
    simp only [List.count_append, List.count_nil]
    omega
  idle _ := ⟨rfl, rfl⟩
  orderly := h.orderly
  counted dispatcher hdispatcher := by
    have hcounted := h.counted dispatcher hdispatcher
    refine ⟨hcounted.active, hcounted.limit, ?_, hcounted.admitted, hcounted.accepting,
      hcounted.waiting, fun _ other => ?_, nofun⟩
    · have habsent := hcounted.absent
      simp only [hrunning, reduceCtorEq, iff_false] at habsent ⊢
      exact habsent
    · have hplaces := hcounted.places (by simp [hrunning]) other
      simp only [hrunning, TaskState.lost, List.count_nil, List.count_append] at hplaces ⊢
      omega

/-- The dispatcher changes nothing that is counted. -/
theorem Sound.uncounted (h : Sound state) {dispatcher' : Dispatcher}
    (hdispatcher : state.dispatcher = some dispatcher)
    (hcounts : dispatcher'.counts = dispatcher.counts)
    (haccepting : dispatcher'.accepting = dispatcher.accepting)
    (hdrained : dispatcher'.drained = dispatcher.drained) :
    Sound { state with dispatcher := some dispatcher' } where
  tickets := h.tickets
  placed := h.placed
  idle := h.idle
  orderly := h.orderly
  counted := by
    rintro _ ⟨⟩
    have hcounted := h.counted dispatcher hdispatcher
    refine ⟨?_, ?_, ?_, ?_, ?_, ?_, hcounted.places, hcounted.reaped⟩
    · rw [hcounts]
      exact hcounted.active
    · rw [hcounts]
      exact hcounted.limit
    · rw [hcounts]
      exact hcounted.absent
    · rw [hcounts]
      exact hcounted.admitted
    · rw [haccepting]
      exact hcounted.accepting
    · rw [hdrained]
      exact hcounted.waiting

/-- The host stops accepting requests, and one more waits for it to drain. -/
theorem Sound.drain (h : Sound state) (hdispatcher : state.dispatcher = some dispatcher)
    (drained : List Nat) :
    Sound { state with
      dispatcher := some { dispatcher with accepting := false, drained }
      log := [.draining] ++ state.log } where
  tickets := h.tickets
  placed := h.placed
  idle := h.idle
  orderly := h.orderly
  counted := by
    rintro _ ⟨⟩
    have hcounted := h.counted dispatcher hdispatcher
    exact ⟨hcounted.active, hcounted.limit, hcounted.absent, hcounted.admitted, fun _ => rfl,
      fun _ => List.mem_cons_self, hcounted.places, hcounted.reaped⟩

/-- A request is answered at once. -/
theorem Sound.answer (h : Sound state) (hdispatcher : state.dispatcher = some dispatcher)
    {request : ActorRequest} {rest : List HostCommand}
    (hcommands : state.commands = .invoke request :: rest) {counts : HostDispatcher}
    (result : Except Error ActorExecutionResult)
    (hactive : counts.active = dispatcher.counts.active)
    (hmailbox : counts.mailbox = dispatcher.counts.mailbox ∨
      dispatcher.counts.mailbox = none ∧ counts.mailbox = some {}) :
    Sound { state with
      commands := rest
      dispatcher := some { dispatcher with counts }
      task := if counts.mailbox.isSome ∧ state.task = .absent then .running else state.task
      replies := (request, result) :: state.replies } := by
  have hcounted := h.counted dispatcher hdispatcher
  have hnone : dispatcher.counts.mailbox = none ↔ state.task = .absent := hcounted.absent
  -- The task is started if there was no mailbox, and stays what it is otherwise.
  have htask : (if counts.mailbox.isSome ∧ state.task = .absent then TaskState.running
        else state.task) = state.task ∧ counts.mailbox = dispatcher.counts.mailbox ∨
      (if counts.mailbox.isSome ∧ state.task = .absent then TaskState.running
        else state.task) = .running ∧ state.task = .absent ∧ counts.mailbox = some {} := by
    rcases hmailbox with hsame | ⟨hcreated, hmailbox⟩
    · refine .inl ⟨if_neg fun ⟨hsome, habsent⟩ => ?_, hsame⟩
      rw [hsame, hnone.mpr habsent] at hsome
      cases hsome
    · have habsent := hnone.mp hcreated
      exact .inr ⟨if_pos ⟨by rw [hmailbox]; rfl, habsent⟩, habsent, hmailbox⟩
  generalize (if counts.mailbox.isSome ∧ state.task = .absent then TaskState.running
    else state.task) = task at htask
  constructor
  · exact h.tickets
  · intro other
    have hplaced := h.placed other
    rw [hcommands, show requestsOf (.invoke request :: rest) = request :: requestsOf rest from rfl,
      List.count_cons] at hplaced
    simp only [List.map_cons, List.count_cons]
    omega
  · rcases htask with ⟨rfl, -⟩ | ⟨rfl, -⟩
    · exact h.idle
    · exact fun hidle => absurd rfl hidle
  · exact h.orderly
  · rintro _ ⟨⟩
    have hadmitted := hcounted.admitted
    rcases htask with ⟨rfl, hsame⟩ | ⟨rfl, habsent, hcreated⟩
    · refine ⟨hactive.trans hcounted.active, hactive.trans_le hcounted.limit, ?_, ?_,
        hcounted.accepting, hcounted.waiting, hcounted.places, hcounted.reaped⟩
      · rw [hsame]
        exact hnone
      · rw [hsame, hactive]
        exact hadmitted
    · refine ⟨hactive.trans hcounted.active, hactive.trans_le hcounted.limit, ?_, ?_,
        hcounted.accepting, hcounted.waiting, fun _ other => ?_, nofun⟩
      · rw [hcreated]
        exact iff_of_false nofun nofun
      · rw [hnone.mpr habsent] at hadmitted
        rw [hcreated, hactive]
        exact hadmitted
      · have hplaces := hcounted.places (by simp [habsent]) other
        rw [habsent] at hplaces
        exact hplaces

/-- A request is accepted. -/
theorem Sound.accept (h : Sound state) (hdispatcher : state.dispatcher = some dispatcher)
    {request : ActorRequest} {rest : List HostCommand}
    (hcommands : state.commands = .invoke request :: rest) {counts : HostDispatcher}
    (hroom : state.room = true)
    (hallowed : dispatcher.accepting = true ∨ request.operation.isDisconnect)
    (hlimit : (dispatcher.counts.mailbox.getD {}).admitted < maxAdmittedInvocationsPerActor)
    (hactive : counts.active = dispatcher.counts.active + 1)
    (hmailbox : counts.mailbox =
      some { admitted := (dispatcher.counts.mailbox.getD {}).admitted + 1 }) :
    Sound { state with
      commands := rest
      dispatcher := some { dispatcher with counts, resident := true }
      task := if state.task = .absent then .running else state.task
      queue := state.queue ++ [request]
      log := [.admitted request] ++ state.log } := by
  have hcounted := h.counted dispatcher hdispatcher
  have hlost : state.task.lost = [] ∧ state.task ≠ .reaped ∧
      (if state.task = .absent then TaskState.running else state.task) = .running := by
    unfold room at hroom
    split at hroom <;> rename_i htask
    · simp [htask, TaskState.lost]
    · simp [htask, TaskState.lost]
    · cases hroom
  obtain ⟨hlost, hreaped, hrunning⟩ := hlost
  rw [hrunning]
  constructor
  · exact h.tickets
  · intro other
    have hplaced := h.placed other
    rw [hcommands, show requestsOf (.invoke request :: rest) = request :: requestsOf rest from rfl,
      List.count_cons] at hplaced
    simp only [List.count_append, List.count_cons, List.count_nil]
    omega
  · exact fun hidle => absurd rfl hidle
  · refine ⟨fun hdraining => hallowed.resolve_left ?_, h.orderly⟩
    rw [hcounted.accepting hdraining]
    exact Bool.false_ne_true
  · rintro _ ⟨⟩
    rw [hcounted.admitted] at hlimit hmailbox
    refine ⟨?_, ?_, ?_, ?_, fun hdraining => ?_, fun hsome => ?_, fun _ other => ?_, nofun⟩
    · rw [hactive, hcounted.active]
      rfl
    · rw [hactive]
      exact hlimit
    · rw [hmailbox]
      exact iff_of_false nofun nofun
    · rw [hmailbox, hactive]
      rfl
    · exact hcounted.accepting ((List.mem_cons.mp hdraining).resolve_left nofun)
    · exact List.mem_cons_of_mem _ (hcounted.waiting hsome)
    · have hplaces := hcounted.places hreaped other
      rw [hlost] at hplaces
      simp only [List.singleton_append, outstanding, List.count_cons, List.count_append,
        TaskState.lost, List.count_nil] at hplaces ⊢
      omega

/-- The dispatcher takes a result.  Nothing is counted any more if it knows of the task's end. -/
theorem Sound.complete (h : Sound state) (hdispatcher : state.dispatcher = some dispatcher)
    {request : ActorRequest} {result : Except Error ActorExecutionResult}
    {rest : List (ActorRequest × Except Error ActorExecutionResult)}
    (hcompletions : state.completions = (request, result) :: rest) (lastActive : Nat) :
    Sound { state with
      dispatcher := some { dispatcher with counts := dispatcher.counts.complete, lastActive }
      completions := rest
      replies := (request, result) :: state.replies
      log := [.completed request] ++ state.log } := by
  have hcounted := h.counted dispatcher hdispatcher
  obtain ⟨hactive, hadmitted, hnone⟩ := HostDispatcher.complete_counts hcounted.admitted
  constructor
  · exact h.tickets
  · intro other
    have hplaced := h.placed other
    rw [hcompletions] at hplaced
    simp only [List.map_cons, List.count_cons] at hplaced ⊢
    omega
  · exact h.idle
  · exact h.orderly
  · rintro _ ⟨⟩
    have hmem : state.task ≠ .reaped → request ∈ outstanding state.log := by
      intro hreaped
      have hplaces := hcounted.places hreaped request
      rw [hcompletions, List.map_cons, List.count_cons_self] at hplaces
      exact List.count_pos_iff.mp (by omega)
    refine ⟨?_, ?_, hnone.trans hcounted.absent, hadmitted.trans hactive.symm,
      fun hdraining => ?_, fun hsome => ?_, fun hreaped other => ?_, fun hreaped => ?_⟩
    · rw [hactive, hcounted.active]
      by_cases hreaped : state.task = .reaped
      · simp [outstanding, hcounted.reaped hreaped]
      · exact (List.length_erase_of_mem (hmem hreaped)).symm
    · rw [hactive]
      exact (Nat.sub_le _ _).trans hcounted.limit
    · exact hcounted.accepting ((List.mem_cons.mp hdraining).resolve_left nofun)
    · exact List.mem_cons_of_mem _ (hcounted.waiting hsome)
    · have hplaces := hcounted.places hreaped other
      have herase := count_erase_add (hmem hreaped) other
      rw [hcompletions] at hplaces
      simp only [List.map_cons, List.count_cons, List.count_nil, List.singleton_append,
        outstanding] at hplaces herase ⊢
      omega
    · simp [outstanding, hcounted.reaped hreaped]

/-- The dispatcher learns of the task's end, and releases what it had admitted. -/
theorem Sound.taskStopped (h : Sound state) (hdispatcher : state.dispatcher = some dispatcher)
    {lost : List ActorRequest} (htask : state.task = .ended lost) :
    Sound { state with
      dispatcher := some { dispatcher with
        counts := dispatcher.counts.taskStopped
        stopped := true }
      task := .reaped
      log := [.abandoned] ++ state.log } := by
  have hcounted := h.counted dispatcher hdispatcher
  obtain ⟨hactive, hadmitted, hnone⟩ := HostDispatcher.taskStopped_counts hcounted.admitted
  refine ⟨h.tickets, h.placed, fun _ => h.idle (by simp [htask]), h.orderly, ?_⟩
  rintro _ ⟨⟩
  refine ⟨hactive, hactive.trans_le (Nat.zero_le _), ?_, hadmitted.trans hactive.symm,
    fun hdraining => ?_, fun hsome => ?_, fun hreaped => absurd rfl hreaped, fun _ => rfl⟩
  · have habsent := hcounted.absent
    rw [htask] at habsent
    exact (hnone.trans habsent).trans (iff_of_false nofun nofun)
  · exact hcounted.accepting ((List.mem_cons.mp hdraining).resolve_left nofun)
  · exact List.mem_cons_of_mem _ (hcounted.waiting hsome)

/-- The dispatcher takes a request. -/
theorem Sound.invoke (h : Sound state) (hdispatcher : state.dispatcher = some dispatcher)
    {request : ActorRequest} {rest : List HostCommand}
    (hcommands : state.commands = .invoke request :: rest) :
    Sound (DispatchState.invoke supports dispatcher request { state with commands := rest }) := by
  unfold DispatchState.invoke Dispatcher.tryAdmit
  rcases dispatcher.counts.admitRequest_cases supports dispatcher.accepting state.room request with
    ⟨counts, result, hadmit, hactive, hmailbox⟩ |
    ⟨counts, hadmit, hroom, hallowed, hlimit, hactive, hmailbox⟩
  · rw [show DispatchState.room { state with commands := rest } = state.room from rfl, hadmit]
    exact h.answer hdispatcher hcommands result hactive hmailbox
  · rw [show DispatchState.room { state with commands := rest } = state.room from rfl, hadmit]
    exact (h.accept hdispatcher hcommands hroom hallowed hlimit hactive hmailbox).publish

/-- One step. -/
theorem Sound.step {state' : DispatchState} (h : Sound state)
    (hstep : DispatchStep supports state state') : Sound state' := by
  cases hstep with
  | command command hsome hnone =>
    refine h.commands ?_
    rw [requestsOf_append, hnone, List.append_nil]
  | submit request hsome hnew => exact h.submit hnew
  | refuse request hstopped hnew => exact h.refuse hnew _
  | ping dispatcher rest now hdispatcher hcommands =>
    have hrest : Sound { state with commands := rest } := h.commands (by rw [hcommands]; rfl)
    unfold Dispatcher.ping
    refine Sound.publish ?_
    exact hrest.uncounted hdispatcher rfl rfl rfl
  | invoke dispatcher request rest hdispatcher hcommands => exact h.invoke hdispatcher hcommands
  | evictIdle dispatcher lastActive rest evicted published hdispatcher hcommands hevict =>
    have hrest : Sound { state with commands := rest } := h.commands (by rw [hcommands]; rfl)
    unfold Dispatcher.evictIdle at hevict
    split at hevict
    · cases hevict
      exact hrest.uncounted hdispatcher rfl rfl rfl
    · split at hevict
      · cases hevict
        exact hrest.uncounted hdispatcher rfl rfl rfl
      · split at hevict
        · cases hevict
        · cases hevict
          refine Sound.publish ?_
          exact hrest.uncounted hdispatcher rfl rfl rfl
  | evictFails dispatcher lastActive rest evicted error hdispatcher hcommands hevict =>
    exact (h.commands (by rw [hcommands]; rfl)).halt
  | drain dispatcher waiter rest isClosed hdispatcher hcommands =>
    have hrest : Sound { state with commands := rest } := h.commands (by rw [hcommands]; rfl)
    exact (hrest.drain hdispatcher _).publish
  | close hcommands => exact h.halt
  | complete dispatcher request result rest now hdispatcher hcompletions =>
    exact (h.complete hdispatcher hcompletions _).publish
  | taskStopped dispatcher lost hdispatcher htask =>
    exact (h.taskStopped hdispatcher htask).publish
  | receive request rest hrunning hqueue => exact h.receive hrunning hqueue
  | finish request result hrunning hheld hsome => exact h.finish result hrunning hheld
  | finishLost request hrunning hheld hstopped => exact h.finishLost hrunning hheld hstopped
  | taskEnds hrunning => exact h.taskEnds hrunning

theorem sound_init : Sound {} where
  tickets := List.nodup_nil
  placed _ := rfl
  idle _ := ⟨rfl, rfl⟩
  orderly := trivial
  counted := by
    rintro _ ⟨⟩
    exact ⟨rfl, Nat.zero_le _, iff_of_true rfl rfl, rfl, nofun, fun hsome => absurd rfl hsome,
      fun _ _ => rfl, nofun⟩

/-- Whole runs. -/
theorem sound_of_reachable (h : DispatchReachable supports state) : Sound state := by
  induction h with
  | refl => exact sound_init
  | tail _ hstep ih => exact ih.step hstep

/-! ## Outcomes -/

/-- The requests that have a reply channel which may still be used. -/
def onTheirWay (state : DispatchState) : List ActorRequest :=
  requestsOf state.commands ++ state.queue ++ state.held ++ state.completions.map Prod.fst

/-- What {lit}`submit_since` returns: the reply, or that the outcome is unknown if the channel was
dropped. -/
def Returns (state : DispatchState) (request : ActorRequest)
    (result : Except Error ActorExecutionResult) : Prop :=
  (request, result) ∈ state.replies ∨
    request ∈ state.dropped ∧ result = .ok .outcomeUnknown

theorem count_replies_pos {request : ActorRequest} {result : Except Error ActorExecutionResult}
    {replies : List (ActorRequest × Except Error ActorExecutionResult)}
    (h : (request, result) ∈ replies) : 0 < (replies.map Prod.fst).count request :=
  List.count_pos_iff.mpr (List.mem_map.mpr ⟨_, h, rfl⟩)

/-- A request that is answered once has one answer. -/
theorem existsUnique_reply {request : ActorRequest}
    {replies : List (ActorRequest × Except Error ActorExecutionResult)}
    (h : (replies.map Prod.fst).count request = 1) : ∃! result, (request, result) ∈ replies := by
  induction replies with
  | nil => cases h
  | cons reply replies ih =>
    obtain ⟨other, result⟩ := reply
    rw [List.map_cons] at h
    by_cases hother : other = request
    · subst hother
      rw [List.count_cons_self] at h
      refine ⟨result, List.mem_cons_self, fun result' hresult => ?_⟩
      rcases List.mem_cons.mp hresult with heq | hlater
      · exact (Prod.mk.inj heq).2
      · have hagain := count_replies_pos hlater
        omega
    · rw [List.count_cons_of_ne hother] at h
      obtain ⟨found, hfound, hunique⟩ := ih h
      refine ⟨found, List.mem_cons_of_mem _ hfound, fun result' hresult => hunique result' ?_⟩
      exact (List.mem_cons.mp hresult).resolve_left fun heq => hother (Prod.mk.inj heq).1.symm

/-- A request has one outcome once it is not on its way any more, and none before. -/
theorem Sound.returns (h : Sound state) {request : ActorRequest}
    (hsubmitted : request ∈ state.submitted) :
    (request ∈ state.onTheirWay → ∀ result, ¬ state.Returns request result) ∧
      (request ∉ state.onTheirWay → ∃! result, state.Returns request result) := by
  have hone : state.submitted.count request = 1 :=
    List.count_eq_one_of_mem h.tickets.of_map hsubmitted
  have hplaced := h.placed request
  have hway : state.onTheirWay.count request + (state.replies.map Prod.fst).count request +
      state.dropped.count request = 1 := by
    simp only [onTheirWay, List.count_append]
    omega
  constructor
  · rintro hmem result (hreply | ⟨hdropped, -⟩)
    · have hpos := List.count_pos_iff.mpr hmem
      have hreplied := count_replies_pos hreply
      omega
    · have hpos := List.count_pos_iff.mpr hmem
      have hlost := List.count_pos_iff.mpr hdropped
      omega
  · intro hmem
    rw [List.count_eq_zero_of_not_mem hmem] at hway
    by_cases hdropped : request ∈ state.dropped
    · have hlost := List.count_pos_iff.mpr hdropped
      refine ⟨_, .inr ⟨hdropped, rfl⟩, ?_⟩
      rintro result (hreply | ⟨-, rfl⟩)
      · have hreplied := count_replies_pos hreply
        omega
      · rfl
    · rw [List.count_eq_zero_of_not_mem hdropped] at hway
      have hreplied : (state.replies.map Prod.fst).count request = 1 := by omega
      obtain ⟨result, hresult, hunique⟩ := existsUnique_reply hreplied
      refine ⟨result, .inl hresult, ?_⟩
      rintro other (hother | ⟨hlost, -⟩)
      · exact hunique other hother
      · exact absurd hlost hdropped

end DispatchState

theorem OrderlyAccount.tail {event : AccountEvent} {earlier : List AccountEvent}
    (h : OrderlyAccount (event :: earlier)) : OrderlyAccount earlier := by
  cases event with
  | admitted request => exact h.2
  | completed request => exact h
  | abandoned => exact h
  | draining => exact h
  | released waiter => exact h.2.2

theorem OrderlyAccount.of_append {later earlier : List AccountEvent}
    (h : OrderlyAccount (later ++ earlier)) : OrderlyAccount earlier := by
  induction later with
  | nil => exact h
  | cons event later ih => exact ih h.tail

/-- Nobody is released while requests are outstanding, and only disconnects are accepted later. -/
theorem OrderlyAccount.released {later earlier : List AccountEvent} {waiter : Nat}
    (h : OrderlyAccount (later ++ .released waiter :: earlier)) :
    outstanding earlier = [] ∧
      ∀ request, .admitted request ∈ later → request.operation.isDisconnect := by
  obtain ⟨hdraining, hnone, -⟩ := h.of_append
  refine ⟨hnone, ?_⟩
  induction later with
  | nil => nofun
  | cons event later ih =>
    intro request hrequest
    rcases List.mem_cons.mp hrequest with rfl | hlater
    · exact h.1 (List.mem_append_right _ (List.mem_cons_of_mem _ hdraining))
    · exact ih h.tail request hlater

/-- A request that activates an actor. -/
def activateRequest : ActorRequest where
  ticket := 0
  operation := .activate { projectId := "p", actorName := "Counter", actorId := "a" }
  ownerEpoch := 0

end Host
end DurableActors
