import DurableActors.Effects.Program
import DurableActors.Storage.Snapshot

/-!
# The actor task and its collaborators

One task of the host serves one actor.  It owns an {lit}`ActorRuntime` with the
cached state of the actor and, in the admission loop, the bookkeeping of a
{lit}`Mailbox`.  Storage, the executor, the socket publisher, the clock and the
channel of requests are services: the task calls them and goes on with whatever
they answer.

This module holds the data of the task and the interface of its services.
-/

namespace DurableActors
namespace Host

open Effects

/-! ## Requests -/

/-- What a caller submits to the actor. -/
inductive ActorOperation
  | activate (actor : ActorKey)
  | method (invocation : ActorInvocation)
  | socket (invocation : ActorSocketInvocation)
deriving DecidableEq

namespace ActorOperation

/-- The actor that an operation is addressed to. -/
def actor : ActorOperation → ActorKey
  | activate actor => actor
  | method invocation => invocation.actor
  | socket invocation => invocation.actor

/-- The invocation under which an operation is validated, logged and persisted. -/
def invocation : ActorOperation → ActorInvocation
  | activate actor =>
      { requestId := "activate", actor := actor, method := "activate", args := [] }
  | method invocation => invocation
  | socket invocation =>
      { requestId := invocation.requestId, actor := invocation.actor,
        method := invocation.event.name, args := [] }

/-- Whether the operation ends a connection; a draining host still serves these. -/
def isDisconnect : ActorOperation → Bool
  | socket invocation => invocation.event.isDisconnect
  | _ => false

/-- Whether the operation is a method call; only these are replayed. -/
def isMethod : ActorOperation → Bool
  | method _ => true
  | _ => false

/-- Whether the operation only activates the actor. -/
def isActivate : ActorOperation → Bool
  | activate _ => true
  | _ => false

end ActorOperation

/-- The origin that a commit records. -/
structure CommitOrigin where
  connectionId : Option String := none
  interleaved : Bool := false
deriving DecidableEq

/-- The origin of an operation's commits. -/
def ActorOperation.commitOrigin : ActorOperation → CommitOrigin
  | .socket invocation => { connectionId := some invocation.event.connectionId }
  | _ => {}

/-- A request in the mailbox.  The ticket stands for the reply channel, which no two requests
share. -/
structure ActorRequest where
  ticket : Nat
  operation : ActorOperation
  ownerEpoch : Nat
deriving DecidableEq

/-! ## The runtime's state -/

/-- A commit whose write has not been finished. -/
structure PendingStateCommit where
  snapshot : StateSnapshot
  state : Value
  ticket : WritePlan
  durable : Bool
deriving DecidableEq

/-- The actor state that the runtime keeps between invocations. -/
structure CachedActorState where
  ownerEpoch : Nat
  stateVersion : Nat
  state : Option Value
  lastRequestId : Option String
  lastResult : Option Value
  nextWrite : Option WritePlan
  pending : Option PendingStateCommit
deriving DecidableEq

namespace CachedActorState

/-- The state of an actor that was never written. -/
def new (ownerEpoch : Nat) : CachedActorState where
  ownerEpoch := ownerEpoch
  stateVersion := 0
  state := none
  lastRequestId := none
  lastResult := none
  nextWrite := none
  pending := none

/-- The state that loaded bytes hold; no bytes stand for an empty object. -/
def fromLoaded (ownerEpoch stateVersion : Nat) (loaded : Option StateSnapshot) :
    Except Error CachedActorState := do
  let some bytes := loaded | throw "decode actor state snapshot"
  let snapshot ← StateSnapshot.decode bytes
  if snapshot.stateVersion ≠ stateVersion then
    throw "actor snapshot version does not match its state head"
  if ¬ snapshot.ownerEpoch ≤ ownerEpoch then
    throw "actor snapshot belongs to a newer owner epoch"
  return {
    ownerEpoch
    stateVersion
    state := some snapshot.state
    lastRequestId := some snapshot.requestId
    lastResult := some snapshot.result
    nextWrite := none
    pending := none }

/-- The recorded result of a request that was the last one committed. -/
def replay (cached : CachedActorState) (requestId : String) : Option Value :=
  if cached.lastRequestId = some requestId then cached.lastResult else none

end CachedActorState

/-- What taking over an actor gives. -/
structure ActorActivation where
  ownerEpoch : Nat
  stateVersion : Nat
  state : Option StateSnapshot
deriving DecidableEq

/-- An invocation that is ready to run, or that needs no run. -/
inductive PreparedInvocation
  | execute (state : Option Value)
  | completed (result : ActorExecutionResult)
deriving DecidableEq

/-! ## The task's state -/

/-- The state of a task: the runtime's fields and those of the admission mailbox. -/
structure Task where
  cachedState : Option CachedActorState := none
  activation : Option ActorActivation := none
  running : List (Nat × ActorRequest) := []
  ready : List (Nat × Nat × ActorRequest × ActorInterleavedOutcome) := []
  nextInvocation : Nat := 0
  blockedOn : Option Nat := none
  interleaved : Bool := false
  nextSequence : Nat := 1
  isOpen : Bool := true
deriving DecidableEq

/-! ## Services -/

/-- What wakes the admission loop. -/
inductive Wakeup
  | executed (id : Nat) (request : ActorRequest) (result : Except Error ActorMethodOutcome)
  | permission (granted : Bool)
  | request (request : Option ActorRequest) (accepting : Bool)
  | idle

/-- Marks in a run that stand for no call of the source; they name the outcome that the calls in
between work on. -/
inductive Mark
  | commitBegins (request : ActorRequest) (outcome : ActorInterleavedOutcome)
  | commitEnds (sequence : Nat) (succeeded : Bool)
deriving DecidableEq

/-- The calls a task makes. -/
inductive Op
  | get
  | set (task : Task)
  | mark (mark : Mark)
  | ensureAuthority
  | acquireActor (actor : ActorKey)
  | loadActorState (actor : ActorKey) (ownerEpoch : Nat)
  | prepareStateWrite (actor : ActorKey) (ownerEpoch expectedVersion : Nat)
  | unixMillis
  | writeSnapshot (ticket : WritePlan) (bytes : StateSnapshot)
  | invoke (request : ActorRequest) (state : Option Value)
  | handleSocket (request : ActorRequest) (state : Option Value)
  | start (id : Nat) (request : ActorRequest) (state : Option Value)
  | evict (actor : ActorKey)
  | hydrate (actor : ActorKey) (state : Option Value)
  | publish (actor : ActorKey) (effects : List ActorSocketEffect)
  | receive
  | select
  | observeAdmission
  | answer (request : ActorRequest) (result : Except Error ActorExecutionResult)

/-- The answers of each call. -/
@[reducible]
def Ans : Op → Type
  | .get => Task
  | .set _ => Unit
  | .mark _ => Unit
  | .ensureAuthority => Except Error Unit
  | .acquireActor _ => Except Error ActorActivation
  | .loadActorState _ _ => Except Error (Nat × Option StateSnapshot)
  | .prepareStateWrite _ _ _ => Except Error WritePlan
  | .unixMillis => Except Error Nat
  | .writeSnapshot _ _ => Except Error StateWrite
  | .invoke _ _ => Except Error ActorMethodOutcome
  | .handleSocket _ _ => Except Error ActorSocketOutcome
  | .start _ _ _ => Unit
  | .evict _ => Except Error Unit
  | .hydrate _ _ => Except Error Unit
  | .publish _ _ => Except Error Unit
  | .receive => Option (ActorRequest × Bool)
  | .select => Wakeup
  | .observeAdmission => Unit
  | .answer _ _ => Bool

/-- The interface of the task's services. -/
abbrev services : Interface := ⟨Op, Ans⟩

/-- A program of the task. -/
abbrev Run (α : Type) := Prog services Error α

/-- Read the task's state. -/
def getTask : Run Task := .call (I := services) .get .done

/-- Replace the task's state. -/
def setTask (task : Task) : Run Unit := .call (I := services) (.set task) .done

/-- Change the task's state. -/
def modifyTask (change : Task → Task) : Run Unit := do
  let task ← getTask
  setTask (change task)

/-- Leave a mark in the run. -/
def leaveMark (mark : Mark) : Run Unit := .call (I := services) (.mark mark) .done

/-- Fail unless the host's lease is confirmed and live. -/
def ensureAuthority : Run Unit := .call (I := services) .ensureAuthority Prog.lift

/-- Take over the actor. -/
def acquireActor (actor : ActorKey) : Run ActorActivation :=
  .call (I := services) (.acquireActor actor) Prog.lift

/-- Load the version and bytes of the actor's latest state. -/
def loadActorState (actor : ActorKey) (ownerEpoch : Nat) : Run (Nat × Option StateSnapshot) :=
  .call (I := services) (.loadActorState actor ownerEpoch) Prog.lift

/-- Get a plan to write the version after the expected one. -/
def prepareStateWrite (actor : ActorKey) (ownerEpoch expectedVersion : Nat) : Run WritePlan :=
  .call (I := services) (.prepareStateWrite actor ownerEpoch expectedVersion) Prog.lift

/-- The wall clock. -/
def unixMillis : Run Nat := .call (I := services) .unixMillis Prog.lift

/-- Make a snapshot durable. -/
def writeSnapshot (ticket : WritePlan) (bytes : StateSnapshot) : Run StateWrite :=
  .call (I := services) (.writeSnapshot ticket bytes) Prog.lift

/-- Deliver state messages to connections. -/
def publish (actor : ActorKey) (effects : List ActorSocketEffect) : Run Unit :=
  .call (I := services) (.publish actor effects) Prog.lift

/-- Give the executor the state of a fresh activation. -/
def hydrate (actor : ActorKey) (state : Option Value) : Run Unit :=
  .call (I := services) (.hydrate actor state) Prog.lift

/-- Drop the actor's instance in the executor; a failure is only logged. -/
def evict (actor : ActorKey) : Run Unit := .call (I := services) (.evict actor) fun _ => .done ()

/-- Run a method and wait for its outcome. -/
def invokeShared (request : ActorRequest) (state : Option Value) :
    Run (Except Error ActorMethodOutcome) :=
  .call (I := services) (.invoke request state) .done

/-- Run a socket handler and wait for its outcome. -/
def handleSocketShared (request : ActorRequest) (state : Option Value) :
    Run (Except Error ActorSocketOutcome) :=
  .call (I := services) (.handleSocket request state) .done

/-- Hand an operation to the executor without waiting for it. -/
def startExecution (id : Nat) (request : ActorRequest) (state : Option Value) : Run Unit :=
  .call (I := services) (.start id request state) .done

/-- Wait for the next request of the serial loop. -/
def receive : Run (Option (ActorRequest × Bool)) := .call (I := services) .receive .done

/-- Wait for the next event of the admission loop. -/
def select : Run Wakeup := .call (I := services) .select .done

/-- Mark the permissions granted so far as seen. -/
def observeAdmission : Run Unit := .call (I := services) .observeAdmission .done

/-- Send a result to the caller; false means that the dispatcher is gone. -/
def answer (request : ActorRequest) (result : Except Error ActorExecutionResult) : Run Bool :=
  .call (I := services) (.answer request result) .done

end Host
end DurableActors
