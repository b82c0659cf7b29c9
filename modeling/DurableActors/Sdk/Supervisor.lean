import DurableActors.Sdk.ActorRuntime

/-!
# Workers, their supervisor and the session

The functions of {lit}`worker-supervisor.ts` and of {lit}`actor-host.ts` between a
command of the host and its reply.  The supervisor runs the actor in a worker,
which is replaced when it fails or is evicted.  A worker counts its completions
from one, so the supervisor adds the number that the replies before it reached.

A reply of a worker is passed on through the resident, the supervisor and the
session in one step: the promises in between are settled before the next message
of the worker is taken.  Commands are paired with their callers, so everything
is generic in the type of callers.
-/

namespace DurableActors
namespace Sdk

/-- The most bytes that a message of the session may have. -/
def maxMessageBytes : Nat := 32 * 1024 * 1024

/-! ## Workers -/

/-- A command inside a worker; it waits for its turn until its method runs. -/
structure Operation (γ : Type) where
  caller : γ
  envelope : CommandEnvelope
  running : Option Invocation := none

/-- A worker: its runtime, its commands in the order in which they came, and its replies that have
not been taken. -/
structure ActorWorker (γ : Type) where
  runtime : ActorRuntime := {}
  operations : List (Operation γ) := []
  outbox : List (γ × ExecutorReply) := []
  terminalError : Option Error := none

namespace ActorWorker

variable {γ : Type} (definition : ActorDefinition)

/-- Whether a command lets later ones run beside it. -/
def isReentrant (operation : Operation γ) : Bool :=
  match operation.envelope.command.method with
  | none => true
  | some method => definition.reentrantMethods.contains method

/-- A command waits for the commands before it that are not reentrant; hydration does not wait. -/
def mayStart (earlier : List (Operation γ)) (operation : Operation γ) : Bool :=
  operation.envelope.command.isHydrate || earlier.all (isReentrant definition)

/-- A command whose turn has come is started. -/
def start (fresh : Except Error Properties) (worker : ActorWorker γ)
    (earlier : List (Operation γ)) (operation : Operation γ) (later : List (Operation γ)) :
    ActorWorker γ :=
  match worker.runtime.start definition fresh operation.envelope with
  | (runtime, .inl reply) => { worker with
      runtime
      operations := earlier ++ later
      outbox := worker.outbox ++ [(operation.caller, reply)] }
  | (runtime, .inr invocation) => { worker with
      runtime
      operations := earlier ++ { operation with running := some invocation } :: later }

/-- The method of a command ends. -/
def finish (fresh : Except Error Properties) (worker : ActorWorker γ)
    (earlier : List (Operation γ)) (operation : Operation γ) (later : List (Operation γ))
    (invocation : Invocation) (outcome : Outcome) : ActorWorker γ :=
  match worker.runtime.finish definition fresh operation.envelope.command invocation outcome with
  | (runtime, reply) => { worker with
      runtime
      operations := earlier ++ later
      outbox := worker.outbox ++ [(operation.caller, reply)] }

/-- The customer's code changes an instance. -/
def touch (worker : ActorWorker γ) (object : Nat) (properties : Properties) : ActorWorker γ :=
  { worker with
    runtime := { worker.runtime with objects := worker.runtime.objects.set object properties } }

/-- Who waits for the worker. -/
def callers (worker : ActorWorker γ) : List γ :=
  worker.outbox.map Prod.fst ++ worker.operations.map Operation.caller

/-- The replies to those who waited for a worker that is gone. -/
def terminated (callers : List γ) : List (γ × ExecutorReply) :=
  callers.map fun caller =>
    (caller, .failed "actor_worker_terminated" "resident actor was terminated during invocation")

/-- A command is posted. -/
def post (worker : ActorWorker γ) (caller : γ) (envelope : CommandEnvelope) : ActorWorker γ :=
  { worker with operations := worker.operations ++ [{ caller, envelope }] }

end ActorWorker

/-! ## The supervisor -/

/-- The actor's place in the process.  The base of its numbers stays when its worker is
replaced. -/
structure ResidentActorWorker (γ : Type) where
  sequenceBase : Nat
  worker : Option (ActorWorker γ) := none

/-- The state of the supervisor. -/
structure ActorWorkerSupervisor (γ : Type) where
  resident : Option (ResidentActorWorker γ) := none
  identity : Option ActorKey := none
  lastSequence : Nat := 0

/-- The failures that a worker survives. -/
def survives : ExecutorReply → Bool
  | .failed code _ =>
      ["actor_method_failed", "actor_socket_failed", "method_not_found",
        "method_not_callable"].contains code
  | _ => true

namespace ActorWorkerSupervisor

variable {γ : Type} (definition : ActorDefinition)

/-- Drop the actor and its worker. -/
def evict (supervisor : ActorWorkerSupervisor γ) :
    ActorWorkerSupervisor γ × List (γ × ExecutorReply) :=
  ({ supervisor with resident := none },
    match supervisor.resident.bind ResidentActorWorker.worker with
    | some worker => ActorWorker.terminated worker.callers
    | none => [])

/-- Post a command to the resident's worker, which is created when there is none. -/
def executeResident (supervisor : ActorWorkerSupervisor γ) (resident : ResidentActorWorker γ)
    (caller : γ) (envelope : CommandEnvelope) :
    ActorWorkerSupervisor γ × List (γ × ExecutorReply) :=
  if resident.worker.isNone && envelope.residentOnly then
    ({ supervisor with resident := some resident }, [(caller, .stateRequired)])
  else
    let worker := resident.worker.getD {}
    match worker.terminalError with
    | some error =>
        ({ supervisor with resident := some { resident with worker := none } },
          [(caller, .failed "actor_worker_failed" error)])
    | none =>
        ({ supervisor with
          resident := some { resident with worker := some (worker.post caller envelope) } }, [])

/-- Execute a command on the resident, which is created when there is none. -/
def execute (supervisor : ActorWorkerSupervisor γ) (caller : γ) (envelope : CommandEnvelope) :
    ActorWorkerSupervisor γ × List (γ × ExecutorReply) :=
  if envelope.command.actor.actorName ≠ definition.actorName then
    (supervisor, [(caller, .failed "actor_name_not_found"
      s!"actor name {envelope.command.actor.actorName} is not loaded in this customer process")])
  else
    match supervisor.resident with
    | some resident => supervisor.executeResident resident caller envelope
    | none =>
        if envelope.residentOnly then
          (supervisor, [(caller, .stateRequired)])
        else
          supervisor.executeResident { sequenceBase := supervisor.lastSequence } caller envelope

/-- Take a command of the host. -/
def handle (supervisor : ActorWorkerSupervisor γ) (caller : γ) (command : ExecutorCommand) :
    ActorWorkerSupervisor γ × List (γ × ExecutorReply) :=
  if supervisor.identity.any fun identity => identity ≠ command.actor then
    (supervisor, [(caller, .failed "actor_identity_mismatch"
      "sandbox is permanently assigned to another actor")])
  else
    match command with
    | .evict _ =>
        let (supervisor, terminated) := supervisor.evict
        (supervisor, (caller, .evicted) :: terminated)
    | .execute envelope =>
        { supervisor with identity := some command.actor }.execute definition caller envelope

/-- The session sends a reply, or evicts the actor when the reply is too large; {lit}`replyBytes`
is the length of the message that the serializer writes. -/
def reply (replyBytes : γ → ExecutorReply → Nat) (supervisor : ActorWorkerSupervisor γ) (caller : γ)
    (reply : ExecutorReply) : ActorWorkerSupervisor γ × List (γ × ExecutorReply) :=
  if replyBytes caller reply ≤ maxMessageBytes - 1 then
    (supervisor, [(caller, reply)])
  else
    let (supervisor, terminated) := supervisor.evict
    (supervisor, (caller, .failed "resource_exhausted"
      s!"actor session response exceeds {maxMessageBytes} bytes") :: terminated)

/-- Number a completion after all that came before its worker. -/
def number (supervisor : ActorWorkerSupervisor γ) (base : Nat) (reply : ExecutorReply) :
    ActorWorkerSupervisor γ × ExecutorReply :=
  match reply.sequence with
  | some sequence =>
      ({ supervisor with lastSequence := max supervisor.lastSequence (base + sequence) },
        reply.withSequence (base + sequence))
  | none => (supervisor, reply)

/-- Pass on the first reply of a worker's outbox. -/
def receive (replyBytes : γ → ExecutorReply → Nat) (supervisor : ActorWorkerSupervisor γ)
    (base : Nat) (worker : ActorWorker γ) (caller : γ) (message : ExecutorReply)
    (rest : List (γ × ExecutorReply)) : ActorWorkerSupervisor γ × List (γ × ExecutorReply) :=
  let worker := { worker with outbox := rest }
  if survives message then
    let supervisor := { supervisor with
      resident := some { sequenceBase := base, worker := some worker } }
    let (supervisor, message) := supervisor.number base message
    supervisor.reply replyBytes caller message
  else
    let supervisor := { supervisor with resident := some { sequenceBase := base, worker := none } }
    let (supervisor, sent) := supervisor.reply replyBytes caller message
    (supervisor, sent ++ ActorWorker.terminated worker.callers)

/-- The worker stops by itself.  When nobody waits for it this is noticed with the next command. -/
def crash (supervisor : ActorWorkerSupervisor γ) (base : Nat) (worker : ActorWorker γ)
    (error : Error) : ActorWorkerSupervisor γ × List (γ × ExecutorReply) :=
  match worker.callers with
  | [] =>
      ({ supervisor with resident := some {
          sequenceBase := base
          worker := some { worker with terminalError := some error } } }, [])
  | caller :: others =>
      ({ supervisor with resident := some { sequenceBase := base, worker := none } },
        (caller, .failed "actor_worker_failed" error) :: ActorWorker.terminated others)

end ActorWorkerSupervisor

end Sdk
end DurableActors
