import DurableActors.Actor.Protocol

/-!
# Commands to the executor and its replies

The host and the customer's JavaScript process exchange commands and replies over
one socket.  This module has their types and what the host makes of a reply.  The
message IDs that pair a reply with its command are left out: a command is paired
with whoever waits for its reply.
-/

namespace DurableActors

/-! ## Commands -/

/-- A command that an actor worker executes. -/
inductive WorkerCommand
  | hydrate (actor : ActorKey)
  | invoke (invocation : ActorInvocation)
  | websocketEvent (invocation : ActorSocketInvocation)
deriving DecidableEq

namespace WorkerCommand

/-- The actor that a command is addressed to. -/
def actor : WorkerCommand → ActorKey
  | hydrate actor => actor
  | invoke invocation => invocation.actor
  | websocketEvent invocation => invocation.actor

/-- Whether the command only prepares the actor. -/
def isHydrate : WorkerCommand → Bool
  | hydrate _ => true
  | _ => false

/-- The customer's method that a command calls. -/
def method : WorkerCommand → Option String
  | hydrate _ => none
  | invoke invocation => some invocation.method
  | websocketEvent invocation => some invocation.event.name

end WorkerCommand

/-- A command with the actor's state.  A command for a resident actor comes without state. -/
structure CommandEnvelope where
  command : WorkerCommand
  state : Option Value
  residentOnly : Bool
deriving DecidableEq

/-- A command of the host. -/
inductive ExecutorCommand
  | evict (actor : ActorKey)
  | execute (envelope : CommandEnvelope)
deriving DecidableEq

/-- The actor that a command is addressed to. -/
def ExecutorCommand.actor : ExecutorCommand → ActorKey
  | evict actor => actor
  | execute envelope => envelope.command.actor

/-! ## Replies -/

/-- A reply of the executor.  The classes with reentrant methods number their completions. -/
inductive ExecutorReply
  | hydrated
  | stateRequired
  | invoked (result state : Value) (sequence : Option Nat) (effects : List ActorSocketEffect)
  | websocketHandled (state : Value) (sequence : Option Nat) (effects : List ActorSocketEffect)
  | failed (code message : String)
  | evicted
deriving DecidableEq

namespace ExecutorReply

/-- The number of a completion. -/
def sequence : ExecutorReply → Option Nat
  | invoked _ _ sequence _ => sequence
  | websocketHandled _ sequence _ => sequence
  | _ => none

/-- The reply with another number. -/
def withSequence (number : Nat) : ExecutorReply → ExecutorReply
  | invoked result state _ effects => invoked result state (some number) effects
  | websocketHandled state _ effects => websocketHandled state (some number) effects
  | reply => reply

/-- Whether the reply says that the actor's instance is resident. -/
def isResident : ExecutorReply → Bool
  | hydrated | invoked _ _ _ _ | websocketHandled _ _ _ => true
  | _ => false

/-! ## What the host makes of a reply -/

/-- The reply to a method call. -/
def methodOutcome : ExecutorReply → Except Error ActorMethodOutcome
  | invoked result state (some sequence) effects =>
      .ok (.interleaved { sequence, result, state, effects })
  | invoked result state none effects => .ok (.completed result state effects)
  | failed code message => .ok (.failed { code, message })
  | hydrated | evicted | stateRequired =>
      .error "actor executor returned eviction reply to invocation"
  | websocketHandled _ _ _ => .error "actor executor returned socket reply to invocation"

/-- The reply to a socket event. -/
def socketOutcome : ExecutorReply → Except Error ActorSocketOutcome
  | websocketHandled state (some sequence) effects =>
      .ok (.interleaved { sequence, result := .null, state, effects })
  | websocketHandled state none effects => .ok (.handled state effects)
  | failed code message => .ok (.failed { code, message })
  | hydrated | invoked _ _ _ _ | evicted | stateRequired =>
      .error "actor executor returned the wrong reply to socket event"

/-- The reply to a hydration. -/
def hydration : ExecutorReply → Except Error Unit
  | hydrated => .ok ()
  | failed code message => .error s!"actor hydration failed ({code}): {message}"
  | _ => .error "unexpected actor hydration reply"

/-- The reply to an eviction. -/
def eviction : ExecutorReply → Except Error Unit
  | evicted => .ok ()
  | failed code message => .error s!"actor executor rejected eviction ({code}): {message}"
  | hydrated | invoked _ _ _ _ => .error "actor executor returned the wrong reply to eviction"
  | websocketHandled _ _ _ | stateRequired =>
      .error "actor executor returned socket reply to eviction"

end ExecutorReply

/-- The mailbox treats a socket event like a method call without a result. -/
def ActorSocketOutcome.toMethodOutcome : ActorSocketOutcome → ActorMethodOutcome
  | interleaved outcome => .interleaved outcome
  | handled state effects => .completed .null state effects
  | failed failure => .failed failure

end DurableActors
