import DurableActors.Host.Discipline
import DurableActors.Sdk.Supervisor

/-!
# The actor task and its executor

The host's task talks to the supervisor in the JavaScript process through a driver.
The driver passes commands and replies on in order; it asks for a resident instance
when it believes that there is one and sends the state when there is none.  The
task's own hydrations and evictions wait for their replies, executions run beside
the task, and the dispatcher may evict an idle actor at any time.

Sizes of messages are a parameter.  Permissions to interleave, socket output and
lookups of connections are not modelled here: the task may be given permission
whenever it waits for one.
-/

namespace DurableActors
namespace Host

open Effects Sdk

/-! ## Commands of the task -/

/-- Who waits for a reply: an execution, which keeps its request, the task itself, or the
dispatcher. -/
inductive Caller
  | execution (id : Nat) (request : ActorRequest)
  | hydration
  | eviction
  | idle
deriving DecidableEq

/-- The execution that waits for a reply. -/
def Caller.executionId : Caller → Option Nat
  | .execution id _ => some id
  | _ => none

/-- The command that executes an operation. -/
def executionCommand : ActorOperation → WorkerCommand
  | .socket invocation => .websocketEvent invocation
  | operation => .invoke operation.invocation

/-- What the mailbox makes of the reply to an execution. -/
def executionOutcome (operation : ActorOperation) (reply : Except Error ExecutorReply) :
    Except Error ActorMethodOutcome := do
  match operation with
  | .socket _ => return (← (← reply).socketOutcome).toMethodOutcome
  | _ => (← reply).methodOutcome

/-- The most commands that may wait for a reply at the driver. -/
def maxPendingExecutorCommands : Nat := 64

/-- The lengths of messages, as the serializers write them. -/
structure Sizes where
  command : Caller → ExecutorCommand → Nat
  reply : Caller → ExecutorReply → Nat

/-! ## The system -/

/-- The task, the driver, the supervisor and the messages between them.  The task has
{lit}`requested` a command when it waits for the reply to one of its own.  A reply is
{lit}`answered` when it has been handed to whoever waits for it, who has not yet taken it. -/
structure ExecutorSystem where
  program : Run Unit
  world : World := {}
  requested : Bool := false
  channel : List (Caller × ExecutorCommand) := []
  resident : Bool := false
  pending : List (Caller × CommandEnvelope) := []
  wire : List (Caller × ExecutorCommand) := []
  supervisor : ActorWorkerSupervisor Caller := {}
  replies : List (Caller × ExecutorReply) := []
  answered : List (Caller × Except Error ExecutorReply) := []

namespace ExecutorSystem

variable (sizes : Sizes)

/-- Hand a reply to its caller; the dispatcher only logs the reply to its evictions. -/
def give (system : ExecutorSystem) (caller : Caller) (reply : Except Error ExecutorReply) :
    ExecutorSystem :=
  if caller = .idle then system
  else { system with answered := system.answered ++ [(caller, reply)] }

/-- The driver sends a command to a worker. -/
def enqueue (system : ExecutorSystem) (caller : Caller) (envelope : CommandEnvelope) :
    ExecutorSystem :=
  let sent := { envelope with
    state := if envelope.residentOnly then none else some (envelope.state.getD .null) }
  if sizes.command caller (.execute sent) ≤ maxMessageBytes then
    { system with
      pending := system.pending ++ [(caller, envelope)]
      wire := system.wire ++ [(caller, .execute sent)] }
  else
    system.give caller (.ok (.failed "resource_exhausted"
      s!"actor executor command exceeds {maxMessageBytes} bytes"))

/-- The driver takes a command.  It forgets that the instance is resident until the next reply. -/
def handleCommand (system : ExecutorSystem) (caller : Caller) (command : ExecutorCommand) :
    ExecutorSystem :=
  match command with
  | .evict _ => { system with resident := false, wire := system.wire ++ [(caller, command)] }
  | .execute envelope =>
      { system with resident := false }.enqueue sizes caller
        { envelope with residentOnly := system.resident && !envelope.command.isHydrate }

/-- The driver takes a reply.  A command that needs the state after all is sent once more. -/
def deliver (system : ExecutorSystem) (caller : Caller) (reply : ExecutorReply) : ExecutorSystem :=
  let envelope := system.pending.lookup caller
  let system := { system with pending := system.pending.filter fun entry => ¬ entry.1 = caller }
  if reply = .stateRequired then
    match envelope.filter CommandEnvelope.residentOnly with
    | some envelope => system.enqueue sizes caller { envelope with residentOnly := false }
    | none => system.give caller (.error "actor executor refused explicit hydration")
  else
    { system with resident := system.resident || reply.isResident }.give caller (.ok reply)

/-- The session passes on what the supervisor sends. -/
def send (system : ExecutorSystem)
    (result : ActorWorkerSupervisor Caller × List (Caller × ExecutorReply)) : ExecutorSystem :=
  { system with supervisor := result.1, replies := system.replies ++ result.2 }

/-- The system with another state of the resident's worker. -/
def withWorker (system : ExecutorSystem) (base : Nat) (worker : ActorWorker Caller) :
    ExecutorSystem :=
  { system with supervisor := { system.supervisor with
    resident := some { sequenceBase := base, worker := some worker } } }

end ExecutorSystem

/-- Whether a call of the task is answered without the executor. -/
def isLocal : Entry → Bool
  | ⟨.start _ _ _, _⟩ | ⟨.hydrate _ _, _⟩ | ⟨.evict _, _⟩ | ⟨.select, .executed _ _ _⟩ => false
  | _ => true

/-- The steps that a condition may speak about: the session passes on a reply of a worker, the
mailbox takes a reply that came after some others, the class's constructor gives a new instance,
and the customer's code changes an instance. -/
inductive Action
  | pass (caller : Caller) (reply : ExecutorReply)
  | take (earlier : List (Caller × Except Error ExecutorReply))
  | construct (fresh : Except Error Properties)
  | change (worker : ActorWorker Caller) (object : Nat) (properties : Properties)
  | other

/-- One step of the system. -/
inductive ExecutorStep (definition : ActorDefinition) (sizes : Sizes) :
    ExecutorSystem → Action → ExecutorSystem → Prop
  /-- The task makes a call that does not concern the executor. -/
  | task {system : ExecutorSystem} (program : Run Unit) (world : World) :
      Prog.Step (I := services) (serve fun world entry => Enabled world entry ∧ isLocal entry)
        (system.program, system.world) (program, world) →
      ExecutorStep definition sizes system .other { system with program, world }
  | start {system : ExecutorSystem} (id : Nat) (request : ActorRequest) (state : Option Value)
      (next : Unit → Run Unit) :
      system.program = .call (I := services) (.start id request state) next →
      ExecutorStep definition sizes system .other { system with
        program := next ()
        world := system.world.log ⟨.start id request state, ()⟩
        channel := system.channel ++ [(.execution id request, .execute {
          command := executionCommand request.operation, state, residentOnly := false })] }
  | requestHydration {system : ExecutorSystem} (actor : ActorKey) (state : Option Value)
      (next : Except Error Unit → Run Unit) :
      system.program = .call (I := services) (.hydrate actor state) next →
      system.requested = false →
      ExecutorStep definition sizes system .other { system with
        requested := true
        channel := system.channel ++ [(.hydration, .execute {
          command := .hydrate actor, state, residentOnly := false })] }
  | hydrated {system : ExecutorSystem} (actor : ActorKey) (state : Option Value)
      (next : Except Error Unit → Run Unit)
      (earlier : List (Caller × Except Error ExecutorReply)) (reply : Except Error ExecutorReply)
      (later : List (Caller × Except Error ExecutorReply)) :
      system.program = .call (I := services) (.hydrate actor state) next →
      system.requested = true →
      system.answered = earlier ++ (.hydration, reply) :: later →
      ExecutorStep definition sizes system .other { system with
        requested := false
        answered := earlier ++ later
        program := next (reply >>= ExecutorReply.hydration)
        world := system.world.log ⟨.hydrate actor state, reply >>= ExecutorReply.hydration⟩ }
  | requestEviction {system : ExecutorSystem} (actor : ActorKey)
      (next : Except Error Unit → Run Unit) :
      system.program = .call (I := services) (.evict actor) next →
      system.requested = false →
      ExecutorStep definition sizes system .other { system with
        requested := true
        channel := system.channel ++ [(.eviction, .evict actor)] }
  | evicted {system : ExecutorSystem} (actor : ActorKey) (next : Except Error Unit → Run Unit)
      (earlier : List (Caller × Except Error ExecutorReply)) (reply : Except Error ExecutorReply)
      (later : List (Caller × Except Error ExecutorReply)) :
      system.program = .call (I := services) (.evict actor) next →
      system.requested = true →
      system.answered = earlier ++ (.eviction, reply) :: later →
      ExecutorStep definition sizes system .other { system with
        requested := false
        answered := earlier ++ later
        program := next (reply >>= ExecutorReply.eviction)
        world := system.world.log ⟨.evict actor, reply >>= ExecutorReply.eviction⟩ }
  /-- The mailbox takes the outcome of an execution. -/
  | take {system : ExecutorSystem} (id : Nat) (request : ActorRequest)
      (next : Wakeup → Run Unit) (earlier : List (Caller × Except Error ExecutorReply))
      (reply : Except Error ExecutorReply) (later : List (Caller × Except Error ExecutorReply)) :
      system.program = .call (I := services) .select next →
      system.answered = earlier ++ (.execution id request, reply) :: later →
      (id, request) ∈ system.world.task.running →
      ExecutorStep definition sizes system (.take earlier) { system with
        answered := earlier ++ later
        program := next (.executed id request (executionOutcome request.operation reply))
        world := system.world.log
          ⟨.select, .executed id request (executionOutcome request.operation reply)⟩ }
  /-- The dispatcher evicts an idle actor. -/
  | evictIdle {system : ExecutorSystem} (actor : ActorKey) :
      ExecutorStep definition sizes system .other { system with
        channel := system.channel ++ [(.idle, .evict actor)] }
  | handleCommand {system : ExecutorSystem} (caller : Caller) (command : ExecutorCommand)
      (rest : List (Caller × ExecutorCommand)) :
      system.channel = (caller, command) :: rest →
      system.pending.length < maxPendingExecutorCommands →
      ExecutorStep definition sizes system .other
        ({ system with channel := rest }.handleCommand sizes caller command)
  | deliver {system : ExecutorSystem} (caller : Caller) (reply : ExecutorReply)
      (rest : List (Caller × ExecutorReply)) :
      system.replies = (caller, reply) :: rest →
      ExecutorStep definition sizes system .other
        ({ system with replies := rest }.deliver sizes caller reply)
  /-- The supervisor takes a command. -/
  | handle {system : ExecutorSystem} (caller : Caller) (command : ExecutorCommand)
      (rest : List (Caller × ExecutorCommand)) :
      system.wire = (caller, command) :: rest →
      ExecutorStep definition sizes system .other ({ system with wire := rest }.send
        (system.supervisor.handle definition caller command))
  | startOperation {system : ExecutorSystem} (base : Nat) (worker : ActorWorker Caller)
      (earlier : List (Operation Caller)) (operation : Operation Caller)
      (later : List (Operation Caller)) (fresh : Except Error Properties) :
      system.supervisor.resident = some { sequenceBase := base, worker := some worker } →
      worker.operations = earlier ++ operation :: later → operation.running = none →
      ActorWorker.mayStart definition earlier operation →
      ExecutorStep definition sizes system (.construct fresh)
        (system.withWorker base (worker.start definition fresh earlier operation later))
  | finishOperation {system : ExecutorSystem} (base : Nat) (worker : ActorWorker Caller)
      (earlier : List (Operation Caller)) (operation : Operation Caller)
      (later : List (Operation Caller)) (invocation : Invocation)
      (fresh : Except Error Properties) (outcome : Outcome) :
      system.supervisor.resident = some { sequenceBase := base, worker := some worker } →
      worker.operations = earlier ++ operation :: later → operation.running = some invocation →
      ExecutorStep definition sizes system (.construct fresh) (system.withWorker base
        (worker.finish definition fresh earlier operation later invocation outcome))
  /-- The customer's code changes an instance. -/
  | touch {system : ExecutorSystem} (base : Nat) (worker : ActorWorker Caller) (object : Nat)
      (properties : Properties) :
      system.supervisor.resident = some { sequenceBase := base, worker := some worker } →
      ExecutorStep definition sizes system (.change worker object properties)
        (system.withWorker base (worker.touch object properties))
  /-- The supervisor takes a reply of the worker and the session passes it on. -/
  | receive {system : ExecutorSystem} (base : Nat) (worker : ActorWorker Caller) (caller : Caller)
      (message : ExecutorReply) (rest : List (Caller × ExecutorReply)) :
      system.supervisor.resident = some { sequenceBase := base, worker := some worker } →
      worker.outbox = (caller, message) :: rest →
      ExecutorStep definition sizes system
        (.pass caller (system.supervisor.number base message).2)
        (system.send (system.supervisor.receive sizes.reply base worker caller message rest))
  | crash {system : ExecutorSystem} (base : Nat) (worker : ActorWorker Caller) (error : Error) :
      system.supervisor.resident = some { sequenceBase := base, worker := some worker } →
      ExecutorStep definition sizes system .other
        (system.send (system.supervisor.crash base worker error))

/-- A run of the system in which every step meets the condition. -/
abbrev Leads (definition : ActorDefinition) (sizes : Sizes)
    (meets : ExecutorSystem → Action → Prop) : ExecutorSystem → ExecutorSystem → Prop :=
  Relation.ReflTransGen fun before after =>
    ∃ action, ExecutorStep definition sizes before action after ∧ meets before action

/-- The states that the system can reach when every step meets the condition. -/
def ExecutorReachable (definition : ActorDefinition) (sizes : Sizes)
    (meets : ExecutorSystem → Action → Prop) (system : ExecutorSystem) : Prop :=
  ∃ fuel, Leads definition sizes meets { program := runActor true fuel } system

/-! ## Building a run -/

namespace Leads

variable {definition : ActorDefinition} {sizes : Sizes}
variable {meets : ExecutorSystem → Action → Prop} {system last : ExecutorSystem}

/-- A run goes on with a step. -/
theorem step {action : Action} {system' : ExecutorSystem}
    (hstep : ExecutorStep definition sizes system action system') (hmeets : meets system action)
    (h : Leads definition sizes meets system' last) : Leads definition sizes meets system last :=
  .head ⟨action, hstep, hmeets⟩ h

/-- The task makes calls that do not concern the executor. -/
theorem task (hother : ∀ system, meets system .other) (program : Run Unit) (world : World)
    (hruns : Runs (fun world entry => Enabled world entry ∧ isLocal entry)
      (system.program, system.world) (program, world))
    (h : Leads definition sizes meets { system with program, world } last) :
    Leads definition sizes meets system last :=
  (hruns.lift (fun state => { system with program := state.1, world := state.2 })
    fun _ after hstep => ⟨.other, .task after.1 after.2 hstep, hother _⟩).trans h

end Leads

end Host
end DurableActors
