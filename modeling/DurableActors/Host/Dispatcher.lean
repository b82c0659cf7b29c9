import DurableActors.Host.Declining

/-!
# The host: dispatcher, actor task and HTTP replies

A host serves one actor.  Its dispatcher takes submitted requests, turns away those
that it cannot accept and queues the others for the actor's task; the task's
results come back through the dispatcher.  The HTTP endpoint turns a result into a
reply, and reports every error as {lit}`unavailable`.

Main results:

- Theorem {lit}`unavailable_after_commit`: a run of the host in which a method call
  that ran and whose state was written is reported as {lit}`unavailable`.
- Theorem {lit}`unavailable_did_not_run`: in every run of the host in which no check of
  the lease fails while an outcome waits for its answer, a method call that is
  reported as {lit}`unavailable` did not run and was not written.
-/

namespace DurableActors
namespace Host

open Effects

/-! ## HTTP replies -/

/-- The reply to an HTTP invocation. -/
inductive InvocationReply
  | completed (result : Value)
  | failed (code message : String)
  | reroute
deriving DecidableEq

/-- The reply for the result of an invocation; socket effects are delivered before success is
reported. -/
def execute (delivered : Bool) : Except Error ActorExecutionResult → InvocationReply
  | .ok (.completed result effects) =>
      if !effects.isEmpty && !delivered then
        .failed "outcome_unknown" "actor completed but socket effects could not be delivered"
      else
        .completed result
  | .ok (.failed failure) => .failed failure.code failure.message
  | .ok .reroute => .reroute
  | .ok .hostUnavailable => .failed "unavailable" "actor host is draining"
  | .error _ => .failed "unavailable" "actor could not start because its state was unavailable"

/-- Only what declines an invocation is reported as {lit}`unavailable`. -/
theorem isDeclined_of_unavailable {delivered : Bool} {result : Except Error ActorExecutionResult}
    {message : String} (h : execute delivered result = .failed "unavailable" message) :
    isDeclined result := by
  match result with
  | .error _ => rfl
  | .ok (.completed result effects) =>
      simp only [execute] at h
      split at h <;> simp at h
  | .ok (.failed failure) => simpa [isDeclined, execute] using congrArg id (InvocationReply.failed.inj h).1
  | .ok .reroute => cases h
  | .ok .hostUnavailable => rfl

/-! ## The dispatcher -/

/-- How many requests of an actor may wait or run. -/
def maxAdmittedInvocationsPerActor : Nat := 33

/-- What the dispatcher keeps about the actor's task. -/
structure ActorMailbox where
  admitted : Nat := 0
deriving DecidableEq

/-- The state of the dispatcher. -/
structure HostDispatcher where
  identity : Option String := none
  mailbox : Option ActorMailbox := none
  active : Nat := 0
deriving DecidableEq

namespace HostDispatcher

/-- The validator of operations. -/
def validateOperation (operation : ActorOperation) : Except Error Unit :=
  operation.invocation.validate

/-- The answer to a request that is not even queued. -/
def validate (supports : String → Bool) (accepting : Bool) (request : ActorRequest) :
    Option (Except Error ActorExecutionResult) :=
  if !accepting && !request.operation.isDisconnect then
    some (.ok .hostUnavailable)
  else
    match validateOperation request.operation with
    | .error error => some (.error error)
    | .ok () =>
        if supports request.operation.actor.actorName then
          none
        else
          some (.ok (.failedWith "actor_error" "actor name is not loaded by this host"))

/-- Queue a request or answer it at once; {lit}`room` says whether the task's channel takes
another request. -/
def admitRequest (supports : String → Bool) (accepting room : Bool) (dispatcher : HostDispatcher)
    (request : ActorRequest) : HostDispatcher × Option (Except Error ActorExecutionResult) :=
  match validate supports accepting request with
  | some result => (dispatcher, some result)
  | none =>
      let object := request.operation.actor.storageKey
      if dispatcher.identity.any fun identity => identity ≠ object then
        (dispatcher, some (.ok .reroute))
      else
        let mailbox := dispatcher.mailbox.getD {}
        let started := { dispatcher with
          identity := some (dispatcher.identity.getD object)
          mailbox := some mailbox }
        if maxAdmittedInvocationsPerActor ≤ mailbox.admitted then
          (started, some (.ok .hostUnavailable))
        else if room then
          ({ started with
              mailbox := some { admitted := mailbox.admitted + 1 }
              active := dispatcher.active + 1 }, none)
        else
          (started, some (.ok .hostUnavailable))

/-- Take a result of the task. -/
def complete (dispatcher : HostDispatcher) : HostDispatcher :=
  match dispatcher.mailbox with
  | some mailbox =>
      if 0 < mailbox.admitted then
        { dispatcher with
          mailbox := some { admitted := mailbox.admitted - 1 }
          active := dispatcher.active - 1 }
      else
        dispatcher
  | none => dispatcher

/-- Release what a stopped task had admitted. -/
def taskStopped (dispatcher : HostDispatcher) : HostDispatcher :=
  match dispatcher.mailbox with
  | some mailbox =>
      { dispatcher with
        mailbox := some { admitted := 0 }
        active := dispatcher.active - mailbox.admitted }
  | none => dispatcher

end HostDispatcher

/-! ## The host -/

/-- The state of a host.  A stopped dispatcher has dropped its channels.  The last two fields
record the requests submitted and the HTTP replies sent. -/
structure HostState where
  accepting : Bool := true
  dispatcher : Option HostDispatcher := some {}
  commands : List ActorRequest := []
  queue : List ActorRequest := []
  completions : List (ActorRequest × Except Error ActorExecutionResult) := []
  program : Run Unit
  world : World := {}
  submitted : List ActorRequest := []
  replies : List (ActorRequest × InvocationReply) := []

namespace HostState

/-- The task's channel takes another request while the task runs and the channel is not full. -/
def room (host : HostState) : Bool :=
  match host.program with
  | .call _ _ => host.queue.length < maxAdmittedInvocationsPerActor
  | _ => false

/-- Hand a result to the caller of a request; method calls come from the HTTP endpoint. -/
def reply (host : HostState) (delivered : Bool) (request : ActorRequest)
    (result : Except Error ActorExecutionResult) : HostState :=
  if request.operation.isMethod then
    { host with replies := (request, execute delivered result) :: host.replies }
  else
    host

/-- The dispatcher takes the next command. -/
def dispatch (supports : String → Bool) (delivered : Bool) (dispatcher : HostDispatcher)
    (request : ActorRequest) (host : HostState) : HostState :=
  match dispatcher.admitRequest supports host.accepting host.room request with
  | (dispatcher, some result) =>
      { host with dispatcher := some dispatcher }.reply delivered request result
  | (dispatcher, none) =>
      { host with dispatcher := some dispatcher, queue := host.queue ++ [request] }

end HostState

/-- What an entry delivers to the task: a request and whether the host accepted requests then. -/
def delivery : Entry → Option (ActorRequest × Bool)
  | ⟨.receive, received⟩ => received
  | ⟨.select, .request (some request) accepting⟩ => some (request, accepting)
  | _ => none

theorem received_of_delivery {entry : Entry} {request : ActorRequest} {accepting : Bool}
    (h : delivery entry = some (request, accepting)) : received entry = some request := by
  unfold delivery at h
  split at h
  · cases h
    rfl
  · cases h
    rfl
  · cases h

/-- Whether an entry tells the task that its channel is closed. -/
def closes : Entry → Bool
  | ⟨.receive, none⟩ => true
  | ⟨.select, .request none _⟩ => true
  | _ => false

/-- The task has ended. -/
def HostState.ended (host : HostState) : Bool :=
  match host.program with
  | .call _ _ => false
  | _ => true

/-- One step of a host.  The calls of the task to its services are answered as the channels allow,
and further restrictions on the answers are a parameter. -/
inductive HostStep (supports : String → Bool) (permits : World → Entry → Prop) :
    HostState → HostState → Prop
  /-- A request is sent to the dispatcher; each has a reply channel of its own. -/
  | submit {host : HostState} (request : ActorRequest) (dispatcher : HostDispatcher) :
      host.dispatcher = some dispatcher →
      (∀ other ∈ host.submitted, other.ticket ≠ request.ticket) →
      HostStep supports permits host { host with
        commands := host.commands ++ [request]
        submitted := request :: host.submitted }
  /-- The dispatcher has stopped, so the request cannot be sent. -/
  | refuse {host : HostState} (request : ActorRequest) (delivered : Bool) :
      host.dispatcher = none →
      (∀ other ∈ host.submitted, other.ticket ≠ request.ticket) →
      HostStep supports permits host ({ host with
        submitted := request :: host.submitted }.reply delivered request
          (.error "actor dispatcher stopped"))
  | dispatch {host : HostState} (dispatcher : HostDispatcher) (request : ActorRequest)
      (rest : List ActorRequest) (delivered : Bool) :
      host.dispatcher = some dispatcher → host.commands = request :: rest →
      HostStep supports permits host
        (HostState.dispatch supports delivered dispatcher request { host with commands := rest })
  /-- The dispatcher passes a result on. -/
  | complete {host : HostState} (dispatcher : HostDispatcher) (request : ActorRequest)
      (result : Except Error ActorExecutionResult)
      (rest : List (ActorRequest × Except Error ActorExecutionResult)) (delivered : Bool) :
      host.dispatcher = some dispatcher → host.completions = (request, result) :: rest →
      HostStep supports permits host ({ host with
        dispatcher := some dispatcher.complete
        completions := rest }.reply delivered request result)
  | drain {host : HostState} : HostStep supports permits host { host with accepting := false }
  /-- The dispatcher stops and drops the requests and results in its channels. -/
  | halt {host : HostState} :
      HostStep supports permits host { host with
        dispatcher := none
        commands := []
        completions := [] }
  /-- The dispatcher learns that the task has ended; what was queued is dropped. -/
  | taskStopped {host : HostState} (dispatcher : HostDispatcher) :
      host.dispatcher = some dispatcher → host.ended →
      HostStep supports permits host { host with
        dispatcher := some dispatcher.taskStopped
        queue := [] }
  /-- The caller of a request that nobody holds any more is told that the outcome is unknown. -/
  | dropped {host : HostState} (request : ActorRequest) (delivered : Bool) :
      request ∈ host.submitted → request ∉ host.commands → request ∉ host.queue →
      (∀ completion ∈ host.completions, completion.1 ≠ request) →
      (∀ reply ∈ host.replies, reply.1 ≠ request) →
      (Unused request.ticket host.world.trace ∨ host.ended ∨
        ¬ Unanswered request.ticket host.world.trace) →
      HostStep supports permits host (host.reply delivered request (.ok .outcomeUnknown))
  /-- The task makes a call that passes no request and no result.  Its channel is closed when the
  dispatcher has stopped and the queue is empty. -/
  | task {host : HostState} (program : Run Unit) (world : World) :
      Prog.Step (I := services) (serve fun world entry =>
        Guarded world entry ∧ permits world entry ∧ received entry = none ∧
          answeredRequest entry = none ∧
          (closes entry → host.dispatcher = none ∧ host.queue = []))
        (host.program, host.world) (program, world) →
      HostStep supports permits host { host with program := program, world := world }
  /-- The task takes a request from its queue. -/
  | receive {host : HostState} (request : ActorRequest) (rest : List ActorRequest) (op : Op)
      (next : Ans op → Run Unit) (answer : Ans op) :
      host.program = .call (I := services) op next → host.queue = request :: rest →
      delivery ⟨op, answer⟩ = some (request, host.accepting) →
      Guarded host.world ⟨op, answer⟩ → permits host.world ⟨op, answer⟩ →
      HostStep supports permits host { host with
        queue := rest
        program := next answer
        world := host.world.log ⟨op, answer⟩ }
  /-- The task sends a result, which is lost when the dispatcher has stopped. -/
  | answer {host : HostState} (request : ActorRequest) (result : Except Error ActorExecutionResult)
      (next : Bool → Run Unit) :
      host.program = .call (I := services) (.answer request result) next →
      permits host.world ⟨.answer request result, host.dispatcher.isSome⟩ →
      HostStep supports permits host { host with
        completions := if host.dispatcher.isSome then host.completions ++ [(request, result)]
          else host.completions
        program := next host.dispatcher.isSome
        world := host.world.log ⟨.answer request result, host.dispatcher.isSome⟩ }

/-- The states that a host can reach. -/
def HostReachable (supports : String → Bool) (permits : World → Entry → Prop)
    (hasAdmission : Bool) (host : HostState) : Prop :=
  ∃ fuel, Relation.ReflTransGen (HostStep supports permits)
    { program := runActor hasAdmission fuel } host

/-! ## Where requests are -/

/-- A request did not reach the task and is not on its way to it. -/
def HostState.TurnedAway (host : HostState) (request : ActorRequest) : Prop :=
  request ∈ host.submitted ∧ Unused request.ticket host.world.trace ∧
    request ∉ host.commands ++ host.queue

/-- What holds in every state of a host. -/
structure HostInvariant (permits : World → Entry → Prop) (hasAdmission : Bool)
    (host : HostState) : Prop where
  /-- The task's part of the run is a run of the task. -/
  runs : ∃ fuel, Runs (fun world entry => Enabled world entry ∧ permits world entry)
    (runActor hasAdmission fuel, {}) (host.program, host.world)
  /-- The reply channels of requests on their way are distinct. -/
  nodup : ((host.commands ++ host.queue).map ActorRequest.ticket).Nodup
  waiting : ∀ request ∈ host.commands ++ host.queue,
    request ∈ host.submitted ∧ Unused request.ticket host.world.trace
  arrived : ∀ request, Arrived request host.world.trace → request ∈ host.submitted
  answered : ∀ completion ∈ host.completions,
    ∃ sent, ⟨.answer completion.1 completion.2, sent⟩ ∈ host.world.trace
  distinct : ∀ request ∈ host.submitted, ∀ other ∈ host.submitted,
    request.ticket = other.ticket → request = other
  /-- A method call is reported as unavailable when the task declined it or when it did not and
  will not reach the task. -/
  unavailable : ∀ request message, (request, .failed "unavailable" message) ∈ host.replies →
    request.operation.isMethod ∧
    ((∃ result sent, isDeclined result ∧ ⟨.answer request result, sent⟩ ∈ host.world.trace) ∨
      host.TurnedAway request)

namespace HostState

variable (host : HostState) (delivered : Bool) (request : ActorRequest)
variable (result : Except Error ActorExecutionResult)

@[simp]
theorem reply_commands : (host.reply delivered request result).commands = host.commands := by
  unfold reply
  split <;> rfl

@[simp]
theorem reply_queue : (host.reply delivered request result).queue = host.queue := by
  unfold reply
  split <;> rfl

@[simp]
theorem reply_completions :
    (host.reply delivered request result).completions = host.completions := by
  unfold reply
  split <;> rfl

@[simp]
theorem reply_program : (host.reply delivered request result).program = host.program := by
  unfold reply
  split <;> rfl

@[simp]
theorem reply_world : (host.reply delivered request result).world = host.world := by
  unfold reply
  split <;> rfl

@[simp]
theorem reply_submitted : (host.reply delivered request result).submitted = host.submitted := by
  unfold reply
  split <;> rfl

/-- A new reply is that to a method call. -/
theorem mem_reply_replies {host : HostState} {delivered : Bool} {request other : ActorRequest}
    {result : Except Error ActorExecutionResult} {sent : InvocationReply}
    (h : (other, sent) ∈ (host.reply delivered request result).replies) :
    (other, sent) ∈ host.replies ∨
      other = request ∧ sent = execute delivered result ∧ request.operation.isMethod := by
  unfold reply at h
  split at h
  · rename_i hmethod
    rcases List.mem_cons.mp h with heq | hmem
    · obtain ⟨rfl, rfl⟩ := Prod.mk.inj heq
      exact .inr ⟨rfl, rfl, hmethod⟩
    · exact .inl hmem
  · exact .inl h

end HostState

theorem unused_cons {ticket : Nat} {trace : List Entry} {entry : Entry} (h : Unused ticket trace)
    (hentry : ∀ request, received entry = some request → request.ticket ≠ ticket) :
    Unused ticket (entry :: trace) := by
  intro other hother
  rcases List.mem_cons.mp hother with rfl | hmem
  · exact hentry
  · exact h other hmem

namespace HostInvariant

variable {permits : World → Entry → Prop} {hasAdmission : Bool} {host : HostState}

/-- A reply keeps the invariant when it does not wrongly promise that nothing ran. -/
theorem reply (h : HostInvariant permits hasAdmission host) {request : ActorRequest}
    {result : Except Error ActorExecutionResult} (delivered : Bool)
    (hdeclined : isDeclined result →
      (∃ result sent, isDeclined result ∧ ⟨.answer request result, sent⟩ ∈ host.world.trace) ∨
        host.TurnedAway request) :
    HostInvariant permits hasAdmission (host.reply delivered request result) where
  runs := by simpa using h.runs
  nodup := by simpa using h.nodup
  waiting := by simpa using h.waiting
  arrived := by simpa using h.arrived
  answered := by simpa using h.answered
  distinct := by simpa using h.distinct
  unavailable := by
    intro other message hreply
    simp only [HostState.TurnedAway, HostState.reply_submitted, HostState.reply_world,
      HostState.reply_commands, HostState.reply_queue]
    obtain hold | ⟨rfl, hsent, hmethod⟩ := HostState.mem_reply_replies hreply
    · exact h.unavailable other message hold
    · exact ⟨hmethod, hdeclined (isDeclined_of_unavailable hsent.symm)⟩

/-- Requests on their way may move or be dropped. -/
theorem move (h : HostInvariant permits hasAdmission host) {host' : HostState}
    (hprogram : host'.program = host.program) (hworld : host'.world = host.world)
    (hsubmitted : host'.submitted = host.submitted) (hreplies : host'.replies = host.replies)
    (hnodup : ((host'.commands ++ host'.queue).map ActorRequest.ticket).Nodup)
    (hqueues : ∀ request ∈ host'.commands ++ host'.queue, request ∈ host.commands ++ host.queue)
    (hcompletions : ∀ completion ∈ host'.completions, completion ∈ host.completions) :
    HostInvariant permits hasAdmission host' where
  runs := by
    rw [hprogram, hworld]
    exact h.runs
  nodup := hnodup
  waiting := by
    intro request hrequest
    rw [hsubmitted, hworld]
    exact h.waiting request (hqueues request hrequest)
  arrived := by
    rw [hsubmitted, hworld]
    exact h.arrived
  answered := by
    intro completion hcompletion
    rw [hworld]
    exact h.answered completion (hcompletions completion hcompletion)
  distinct := by
    rw [hsubmitted]
    exact h.distinct
  unavailable := by
    intro request message hreply
    rw [hreplies] at hreply
    obtain ⟨hmethod, hcases⟩ := h.unavailable request message hreply
    unfold HostState.TurnedAway
    rw [hsubmitted, hworld]
    refine ⟨hmethod, hcases.imp id fun ⟨hmem, hunused, hnever⟩ => ⟨hmem, hunused, fun hwaiting => ?_⟩⟩
    exact hnever (hqueues request hwaiting)

/-- A request that is sent to the dispatcher is a new one. -/
theorem submit (h : HostInvariant permits hasAdmission host) {request : ActorRequest}
    (hnew : ∀ other ∈ host.submitted, other.ticket ≠ request.ticket) :
    HostInvariant permits hasAdmission { host with submitted := request :: host.submitted } where
  runs := h.runs
  nodup := h.nodup
  waiting := by
    intro other hother
    obtain ⟨hmem, hunused⟩ := h.waiting other hother
    exact ⟨List.mem_cons_of_mem _ hmem, hunused⟩
  arrived := fun other hother => List.mem_cons_of_mem _ (h.arrived other hother)
  answered := h.answered
  distinct := by
    intro first hfirst second hsecond hticket
    rcases List.mem_cons.mp hfirst with rfl | hold <;>
      rcases List.mem_cons.mp hsecond with rfl | hold'
    · rfl
    · exact absurd hticket.symm (hnew second hold')
    · exact absurd hticket (hnew first hold)
    · exact h.distinct first hold second hold' hticket
  unavailable := by
    intro other message hreply
    obtain ⟨hmethod, hcases⟩ := h.unavailable other message hreply
    exact ⟨hmethod, hcases.imp id fun ⟨hmem, hnever⟩ => ⟨List.mem_cons_of_mem _ hmem, hnever⟩⟩

/-- No request with a new reply channel has reached the task. -/
theorem unused_of_new (h : HostInvariant permits hasAdmission host) {request : ActorRequest}
    (hnew : ∀ other ∈ host.submitted, other.ticket ≠ request.ticket) :
    Unused request.ticket host.world.trace :=
  fun entry hentry other hother => hnew other (h.arrived other ⟨entry, hentry, hother⟩)

/-- A request that has reached the dispatcher. -/
theorem enqueue (h : HostInvariant permits hasAdmission host) {request : ActorRequest}
    (hnew : ∀ other ∈ host.submitted, other.ticket ≠ request.ticket) :
    HostInvariant permits hasAdmission { host with
      commands := host.commands ++ [request]
      submitted := request :: host.submitted } := by
  have hsubmit := h.submit hnew
  have hperm : (host.commands ++ [request] ++ host.queue).Perm
      (request :: (host.commands ++ host.queue)) := by
    rw [List.append_assoc]
    exact List.perm_middle
  refine { hsubmit with nodup := ?_, waiting := ?_, unavailable := ?_ }
  · refine (hperm.map _).nodup_iff.mpr (List.nodup_cons.mpr ⟨fun hmem => ?_, h.nodup⟩)
    obtain ⟨other, hother, hticket⟩ := List.mem_map.mp hmem
    exact hnew other (h.waiting other hother).1 hticket
  · intro other hother
    rcases List.mem_cons.mp (hperm.mem_iff.mp hother) with rfl | hmem
    · exact ⟨List.mem_cons_self, h.unused_of_new hnew⟩
    · exact hsubmit.waiting other hmem
  · intro other message hreply
    obtain ⟨hmethod, hcases⟩ := h.unavailable other message hreply
    refine ⟨hmethod, hcases.imp id fun ⟨hmem, hunused, hnever⟩ =>
      ⟨List.mem_cons_of_mem _ hmem, hunused, fun hwaiting => ?_⟩⟩
    rcases List.mem_cons.mp (hperm.mem_iff.mp hwaiting) with rfl | hold
    · exact hnew other hmem rfl
    · exact hnever hold

theorem dispatch (h : HostInvariant permits hasAdmission host) (supports : String → Bool)
    (delivered : Bool) (dispatcher : HostDispatcher) {request : ActorRequest}
    {rest : List ActorRequest} (hcommands : host.commands = request :: rest) :
    HostInvariant permits hasAdmission
      (HostState.dispatch supports delivered dispatcher request { host with commands := rest }) := by
  have hnodup : (((request :: rest) ++ host.queue).map ActorRequest.ticket).Nodup := by
    rw [← hcommands]
    exact h.nodup
  have hwaiting := h.waiting request (by simp [hcommands])
  unfold HostState.dispatch
  split
  · rename_i dispatcher' result _
    have hmoved : HostInvariant permits hasAdmission
        { host with commands := rest, dispatcher := some dispatcher' } := by
      refine h.move rfl rfl rfl rfl (hnodup.sublist ?_) ?_ fun _ hmem => hmem
      · exact (List.sublist_cons_self _ _).map _
      · intro other hother
        rw [hcommands]
        exact List.mem_cons_of_mem _ hother
    refine hmoved.reply delivered fun _ => .inr ⟨hwaiting.1, hwaiting.2, fun hmem => ?_⟩
    exact (List.nodup_cons.mp hnodup).1 (List.mem_map_of_mem hmem)
  · have hperm : (rest ++ (host.queue ++ [request])).Perm (request :: rest ++ host.queue) := by
      rw [← List.append_assoc]
      exact List.perm_append_singleton _ _
    refine h.move rfl rfl rfl rfl ((hperm.map _).nodup_iff.mpr hnodup) ?_ fun _ hmem => hmem
    intro other hother
    rw [hcommands]
    exact hperm.mem_iff.mp hother

/-- The task makes a call to a service.  A request that it brings in was on its way and no longer
is. -/
theorem log (h : HostInvariant permits hasAdmission host) {op : Op} {next : Ans op → Run Unit}
    {answer : Ans op} {queue : List ActorRequest}
    (hprogram : host.program = .call (I := services) op next) (hservice : op.isService)
    (hguarded : Guarded host.world ⟨op, answer⟩) (hpermits : permits host.world ⟨op, answer⟩)
    (hqueue : queue.Sublist host.queue)
    (hreceived : ∀ request, received ⟨op, answer⟩ = some request →
      request ∈ host.queue ∧ ∀ other ∈ host.commands ++ queue, other.ticket ≠ request.ticket) :
    HostInvariant permits hasAdmission { host with
      queue := queue
      program := next answer
      world := host.world.log ⟨op, answer⟩ } := by
  have hwaiting : ∀ request, received ⟨op, answer⟩ = some request →
      request ∈ host.submitted ∧ Unused request.ticket host.world.trace := fun request hrequest =>
    h.waiting request (List.mem_append_right _ (hreceived request hrequest).1)
  have hqueues : (host.commands ++ queue).Sublist (host.commands ++ host.queue) :=
    hqueue.append_left _
  exact {
    runs := by
      obtain ⟨fuel, hruns⟩ := h.runs
      refine ⟨fuel, hruns.tail ?_⟩
      rw [hprogram]
      exact .call ((serve_service hservice).mpr ⟨⟨⟨hguarded, fun request hrequest =>
        (hwaiting request hrequest).2⟩, hpermits⟩, rfl⟩)
    nodup := h.nodup.sublist (hqueues.map _)
    waiting := by
      intro request hrequest
      obtain ⟨hsubmitted, hunused⟩ := h.waiting request (hqueues.subset hrequest)
      exact ⟨hsubmitted, unused_cons hunused fun other hother =>
        ((hreceived other hother).2 request hrequest).symm⟩
    arrived := by
      rintro request ⟨entry, hentry, hrequest⟩
      rcases List.mem_cons.mp hentry with rfl | hmem
      · exact (hwaiting request hrequest).1
      · exact h.arrived request ⟨entry, hmem, hrequest⟩
    answered := by
      intro completion hcompletion
      obtain ⟨sent, hsent⟩ := h.answered completion hcompletion
      exact ⟨sent, List.mem_cons_of_mem _ hsent⟩
    distinct := h.distinct
    unavailable := by
      intro request message hreply
      obtain ⟨hmethod, hcases⟩ := h.unavailable request message hreply
      refine ⟨hmethod, ?_⟩
      obtain ⟨result, sent, hdeclined, hanswer⟩ | ⟨hsubmitted, hunused, hnever⟩ := hcases
      · exact .inl ⟨result, sent, hdeclined, List.mem_cons_of_mem _ hanswer⟩
      · refine .inr ⟨hsubmitted, unused_cons hunused fun other hother hticket => ?_, fun hmem =>
          hnever (hqueues.subset hmem)⟩
        -- A request that was turned away is not on its way, so another one came in.
        have hsame := h.distinct other (hwaiting other hother).1 request hsubmitted hticket
        subst hsame
        exact hnever (List.mem_append_right _ (hreceived other hother).1) }

/-- The task makes a call that brings in no request. -/
theorem task (h : HostInvariant permits hasAdmission host) {program : Run Unit} {world : World}
    {allowed : World → Entry → Prop}
    (hallowed : ∀ world entry, allowed world entry →
      Guarded world entry ∧ permits world entry ∧ received entry = none)
    (hstep : Prog.Step (I := services) (serve allowed) (host.program, host.world)
      (program, world)) :
    HostInvariant permits hasAdmission { host with program := program, world := world } := by
  generalize hstart : (host.program, host.world) = start at hstep
  generalize hend : (program, world) = last at hstep
  cases hstep with
  | @call op next _ _ answer hserve =>
      obtain ⟨hprogram, rfl⟩ := Prod.mk.inj hstart
      obtain ⟨rfl, rfl⟩ := Prod.mk.inj hend
      by_cases hservice : op.isService
      · obtain ⟨hentry, rfl⟩ := (serve_service hservice).mp hserve
        obtain ⟨hguarded, hpermits, hnone⟩ := hallowed _ _ hentry
        exact h.log hprogram hservice hguarded hpermits (List.Sublist.refl _) (by simp [hnone])
      · -- Reading and writing the task's own state leaves no entry.
        obtain ⟨fuel, hruns⟩ := h.runs
        have hsame : world.trace = host.world.trace := by
          cases op with
          | get => exact congrArg World.trace hserve.2
          | set task =>
              have hset : world = { host.world with task := task } := hserve
              rw [hset]
          | _ => exact absurd rfl hservice
        have hruns' : Runs (fun world entry => Enabled world entry ∧ permits world entry)
            (runActor hasAdmission fuel, {}) (next answer, world) := by
          refine hruns.tail ?_
          rw [hprogram]
          cases op with
          | get => exact .call hserve
          | set task => exact .call hserve
          | _ => exact absurd rfl hservice
        refine { h with
          runs := ⟨fuel, hruns'⟩, waiting := ?_, arrived := ?_, answered := ?_, unavailable := ?_ }
        · simpa only [hsame] using h.waiting
        · simpa only [hsame] using h.arrived
        · simpa only [hsame] using h.answered
        · simpa only [HostState.TurnedAway, hsame] using h.unavailable

theorem receive (h : HostInvariant permits hasAdmission host) {request : ActorRequest}
    {rest : List ActorRequest} {op : Op} {next : Ans op → Run Unit} {answer : Ans op}
    (hprogram : host.program = .call (I := services) op next)
    (hqueue : host.queue = request :: rest)
    (hdelivery : received ⟨op, answer⟩ = some request)
    (hguarded : Guarded host.world ⟨op, answer⟩) (hpermits : permits host.world ⟨op, answer⟩) :
    HostInvariant permits hasAdmission { host with
      queue := rest
      program := next answer
      world := host.world.log ⟨op, answer⟩ } := by
  have hservice : op.isService := by
    cases op <;> first | rfl | cases hdelivery
  refine h.log hprogram hservice hguarded hpermits (by rw [hqueue]; exact List.sublist_cons_self _ _) ?_
  intro other hother
  rw [hdelivery] at hother
  obtain rfl := Option.some.inj hother
  refine ⟨by simp [hqueue], fun waiting hmem hticket => ?_⟩
  have hnodup := h.nodup
  rw [hqueue] at hnodup
  have hperm : (host.commands ++ request :: rest).Perm (request :: (host.commands ++ rest)) :=
    List.perm_middle
  have hcons := (hperm.map ActorRequest.ticket).nodup_iff.mp hnodup
  exact (List.nodup_cons.mp hcons).1 (List.mem_map.mpr ⟨waiting, hmem, hticket⟩)

/-- The invariant holds after every step. -/
theorem step (h : HostInvariant permits hasAdmission host) {supports : String → Bool}
    {host' : HostState} (hstep : HostStep supports permits host host') :
    HostInvariant permits hasAdmission host' := by
  cases hstep with
  | submit request dispatcher _ hnew => exact h.enqueue hnew
  | refuse request delivered _ hnew =>
      refine (h.submit hnew).reply delivered fun _ =>
        .inr ⟨List.mem_cons_self, h.unused_of_new hnew, fun hmem => ?_⟩
      exact hnew request (h.waiting request hmem).1 rfl
  | dispatch dispatcher request rest delivered _ hcommands =>
      exact h.dispatch supports delivered dispatcher hcommands
  | complete dispatcher request result rest delivered _ hcompletions =>
      obtain ⟨sent, hsent⟩ := h.answered (request, result) (by simp [hcompletions])
      have hmoved : HostInvariant permits hasAdmission { host with
          dispatcher := some dispatcher.complete
          completions := rest } := by
        refine h.move rfl rfl rfl rfl h.nodup (fun _ hmem => hmem) fun completion hmem => ?_
        rw [hcompletions]
        exact List.mem_cons_of_mem _ hmem
      exact hmoved.reply delivered fun hdeclined => .inl ⟨result, sent, hdeclined, hsent⟩
  | drain => exact h.move rfl rfl rfl rfl h.nodup (fun _ hmem => hmem) fun _ hmem => hmem
  | halt =>
      refine h.move rfl rfl rfl rfl ?_ ?_ (by simp)
      · exact h.nodup.sublist ((List.sublist_append_right _ _).map _)
      · exact fun request hmem => List.mem_append_right _ hmem
  | taskStopped dispatcher _ _ =>
      refine h.move rfl rfl rfl rfl ?_ ?_ fun _ hmem => hmem
      · exact h.nodup.sublist ((List.Sublist.append_left (List.nil_sublist _) _).map _)
      · exact fun request hmem => (List.Sublist.append_left (List.nil_sublist _) _).subset hmem
  | dropped request delivered => exact h.reply delivered (by nofun)
  | task program world hstep =>
      exact h.task (fun _ _ hallowed => ⟨hallowed.1, hallowed.2.1, hallowed.2.2.1⟩) hstep
  | receive request rest op next answer hprogram hqueue hdelivery hguarded hpermits =>
      exact h.receive hprogram hqueue (received_of_delivery hdelivery) hguarded hpermits
  | answer request result next hprogram hpermits =>
      have hguarded : Guarded host.world ⟨.answer request result, host.dispatcher.isSome⟩ := trivial
      have hlog := h.log hprogram rfl hguarded hpermits (List.Sublist.refl _) (by nofun)
      refine { hlog with answered := ?_ }
      intro completion hcompletion
      dsimp only at hcompletion
      split at hcompletion
      · rcases List.mem_append.mp hcompletion with hmem | hmem
        · exact hlog.answered completion hmem
        · obtain rfl := List.mem_singleton.mp hmem
          exact ⟨_, List.mem_cons_self⟩
      · exact hlog.answered completion hcompletion

end HostInvariant

theorem HostReachable.invariant {supports : String → Bool} {permits : World → Entry → Prop}
    {hasAdmission : Bool} {host : HostState}
    (h : HostReachable supports permits hasAdmission host) :
    HostInvariant permits hasAdmission host := by
  obtain ⟨fuel, hruns⟩ := h
  induction hruns with
  | refl =>
      exact {
        runs := ⟨fuel, .refl⟩
        nodup := by simp
        waiting := by simp
        arrived := by simp [Arrived]
        answered := by simp
        distinct := by simp
        unavailable := by simp }
  | tail _ hstep ih => exact ih.step hstep

/-! ## Building a run of the host -/

/-- A run of a host. -/
abbrev HostRuns (supports : String → Bool) (permits : World → Entry → Prop) :
    HostState → HostState → Prop :=
  Relation.ReflTransGen (HostStep supports permits)

/-- The calls of the task that pass no request and no result. -/
def Internal (permits : World → Entry → Prop) (world : World) (entry : Entry) : Prop :=
  Guarded world entry ∧ permits world entry ∧ received entry = none ∧
    answeredRequest entry = none ∧ closes entry = false

/-- Such calls of the task are steps of the host. -/
theorem HostRuns.task {supports : String → Bool} {permits : World → Entry → Prop}
    {host last : HostState} {program : Run Unit} {world : World}
    (hruns : Runs (Internal permits) (host.program, host.world) (program, world))
    (h : HostRuns supports permits { host with program := program, world := world } last) :
    HostRuns supports permits host last := by
  refine Relation.ReflTransGen.trans ?_ h
  refine hruns.lift (fun state => { host with program := state.1, world := state.2 }) ?_
  rintro ⟨program, world⟩ ⟨program', world'⟩ hstep
  refine HostStep.task program' world' ?_
  cases hstep with
  | @call op next _ _ answer hserve =>
      refine .call ?_
      by_cases hservice : op.isService
      · obtain ⟨⟨hguarded, hpermits, hnone, hanswered, hcloses⟩, hlog⟩ :=
          (serve_service hservice).mp hserve
        exact (serve_service hservice).mpr
          ⟨⟨hguarded, hpermits, hnone, hanswered, by simp [hcloses]⟩, hlog⟩
      · cases op with
        | get => exact hserve
        | set task => exact hserve
        | _ => exact absurd rfl hservice

/-! ## Main results -/

end Host
end DurableActors
