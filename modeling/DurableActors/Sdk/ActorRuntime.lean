import DurableActors.Actor.Executor

/-!
# The runtime inside an actor worker

The functions of {lit}`sdk/src/host/actor-runtime.ts`.  A worker keeps the actor's
instance between invocations, compares its persisted fields before and after each
one, and numbers the completions of a class with reentrant methods.

An invocation runs the customer's code between two parts of the runtime's own code.
The parts are the functions {lit}`start` and {lit}`finish`; what the customer's code
does in between, to the instance or as its outcome, is up to it.
-/

namespace DurableActors
namespace Sdk

/-! ## Actor classes -/

/-- A declared field of an actor class. -/
structure ActorFieldSchema where
  name : String
  persisted : Bool
  isPrivate : Bool := false
  visibility : Bool := false
  emittable : Bool := false
deriving DecidableEq

/-- An actor class. -/
structure ActorDefinition where
  actorName : String
  methods : List String
  fields : List ActorFieldSchema
  reentrantMethods : List String := []
deriving DecidableEq

namespace ActorDefinition

/-- A class with reentrant methods lets invocations interleave. -/
def interleaved (definition : ActorDefinition) : Bool := !definition.reentrantMethods.isEmpty

/-- Whether the field of this name is persisted. -/
def isPersisted (definition : ActorDefinition) (name : String) : Bool :=
  definition.fields.any fun field => field.persisted && field.name == name

/-- The fields that are shown to connections. -/
def emittableFields (definition : ActorDefinition) : List ActorFieldSchema :=
  definition.fields.filter fun field =>
    field.emittable && !field.visibility && !field.isPrivate && field.persisted

/-- Whether the field of this name is shown to connections. -/
def isEmittable (definition : ActorDefinition) (name : String) : Bool :=
  definition.emittableFields.any fun field => field.name == name

end ActorDefinition

/-! ## Instances -/

/-- An own property of an instance: a JSON value, a value that JSON leaves out, a value that cannot
be serialized, or an accessor. -/
inductive Property
  | json (text : String)
  | omitted
  | unserializable
  | accessor
deriving DecidableEq

/-- The own properties of an instance, in key order. -/
abbrev Properties := List (String × Property)

/-- Every own property is a data property of a declared field. -/
def validateActorState (definition : ActorDefinition) (properties : Properties) :
    Except Error Unit :=
  properties.forM fun property => do
    if !definition.fields.any fun field => !field.isPrivate && field.name == property.1 then
      throw s!"actor field {definition.actorName}.{property.1} must declare @Persisted or @Ephemeral"
    if property.2 = .accessor then
      throw s!"actor field {definition.actorName}.{property.1} must be a data property"

/-- The JSON copy of the given properties. -/
def cloneJsonObject (label : String) : Properties → Except Error JsonObject
  | [] => .ok []
  | (name, .json text) :: rest => do return (name, text) :: (← cloneJsonObject label rest)
  | (_, .omitted) :: rest => cloneJsonObject label rest
  | (_, .unserializable) :: _ | (_, .accessor) :: _ => .error s!"{label} must be JSON serializable"

/-- The persisted fields of an instance. -/
def snapshotActorState (definition : ActorDefinition) (properties : Properties) :
    Except Error JsonObject := do
  validateActorState definition properties
  cloneJsonObject "actor state" (properties.filter fun property => definition.isPersisted property.1)

/-- Define one property. -/
def defineProperty (name text : String) : Properties → Properties
  | [] => [(name, .json text)]
  | (other, property) :: rest =>
      if other = name then (name, .json text) :: rest
      else if name < other then (name, .json text) :: (other, property) :: rest
      else (other, property) :: defineProperty name text rest

/-- An instance with the persisted fields of a saved state. -/
def hydrateActorState (definition : ActorDefinition) (properties : Properties)
    (state : JsonObject) : Except Error Properties := do
  validateActorState definition properties
  return (state.filter fun field => definition.isPersisted field.1).foldl
    (fun properties field => defineProperty field.1 field.2 properties) properties

/-! ## Effects of a change of state -/

/-- The update for a change of the fields shown to connections. -/
def stateUpdates (definition : ActorDefinition) (before after : JsonObject)
    (except : Option String) : List ActorSocketEffect :=
  let changed := definition.emittableFields.filter fun field =>
    before.lookup field.name ≠ after.lookup field.name
  if changed.isEmpty then
    []
  else
    [.stateUpdate
      (.object (after.filter fun entry => changed.any fun field => field.name == entry.1))
      ((changed.filter fun field => (after.lookup field.name).isNone).map ActorFieldSchema.name)
      except.toList none]

/-- Whether the effects reject a connection. -/
def connectionWasRejected (connectionId : String) (effects : List ActorSocketEffect) : Bool :=
  effects.any fun effect =>
    match effect with
    | .reject rejected _ _ => rejected == connectionId
    | _ => false

/-- A connection that is accepted receives the fields shown to connections. -/
def socketEffects (definition : ActorDefinition) (event : ActorSocketEvent) (state : JsonObject)
    (effects : List ActorSocketEffect) : List ActorSocketEffect :=
  match event with
  | .connect connection =>
      if connectionWasRejected connection.id effects || definition.emittableFields.isEmpty then
        effects
      else
        effects ++ [.stateSnapshot connection.id
          (.object (state.filter fun entry => definition.isEmittable entry.1)) none]
  | _ => effects

/-! ## The runtime -/

/-- The state of a worker's runtime.  Instances are objects: the one in use is replaced, and an
invocation goes on with the one it started with. -/
structure ActorRuntime where
  objects : List Properties := []
  current : Option Nat := none
  identity : Option ActorKey := none
  sequence : Nat := 0
  lastCompletedState : Option JsonObject := none
  fatal : Option Error := none
deriving DecidableEq

/-- An invocation whose method runs: the instance it runs on and the state before it. -/
structure Invocation where
  object : Nat
  before : JsonObject
deriving DecidableEq

/-- How the customer's method ends: with an error, or with its value's JSON copy and the effects
that it left to the reply. -/
inductive Outcome
  | threw (message : String)
  | returned (value : Except Error Value) (effects : List ActorSocketEffect)

namespace ActorRuntime

variable (definition : ActorDefinition)

/-- The own properties of an instance. -/
def properties (runtime : ActorRuntime) (object : Nat) : Properties :=
  runtime.objects.getD object []

/-- Saved state is an object. -/
def persistedState : Value → Except Error JsonObject
  | .object fields => .ok fields
  | .text _ => .error "persisted actor state must be a JSON object"

/-- Construct an instance with saved state; {lit}`fresh` is what the class's constructor gives. -/
def createInstance (fresh : Except Error Properties) (actor : ActorKey) (state : Value)
    (runtime : ActorRuntime) : Except Error ActorRuntime := do
  let created ← fresh
  validateActorState definition created
  let restored ←
    if state = .null then pure created
    else hydrateActorState definition created (← persistedState state)
  let lastCompletedState ←
    if definition.interleaved then some <$> snapshotActorState definition restored
    else pure runtime.lastCompletedState
  return { runtime with
    objects := runtime.objects ++ [restored]
    current := some runtime.objects.length
    identity := some actor
    lastCompletedState }

/-- Find or construct the instance, or reply at once. -/
def prepare (fresh : Except Error Properties) (runtime : ActorRuntime)
    (envelope : CommandEnvelope) : Except Error (ExecutorReply ⊕ ActorRuntime × Nat) :=
  let identity := envelope.command.actor
  if identity.actorName ≠ definition.actorName then
    .ok (.inl (.failed "actor_name_not_found"
      s!"actor name {identity.actorName} is not loaded in this customer process"))
  else if runtime.identity.any fun resident => resident ≠ identity then
    .ok (.inl (.failed "actor_identity_mismatch"
      "resident actor Worker received an invocation for a different actor"))
  else
    match runtime.current with
    | some object => .ok (.inr (runtime, object))
    | none =>
        if envelope.residentOnly then
          .ok (.inl .stateRequired)
        else
          match envelope.state with
          | none =>
              .ok (.inl (.failed "invalid_actor_state"
                "actor hydration requires an explicit state or null"))
          | some state => do
              let created ← createInstance definition fresh identity state runtime
              return .inr (created, runtime.objects.length)

/-- The reply for an error of the runtime itself. -/
def invalidState (error : Error) : ExecutorReply := .failed "invalid_actor_state" error

/-- An error of the runtime itself drops the instance; an interleaved actor cannot go on. -/
def failWith (runtime : ActorRuntime) (error : Error) : ActorRuntime × ExecutorReply :=
  ({ runtime with
    current := none
    identity := none
    fatal := if definition.interleaved then some error else runtime.fatal }, invalidState error)

/-- Whether a property hides the method of its name by a value that is no function. -/
def hidesMethod (properties : Properties) (method : String) : Bool :=
  match properties.lookup method with
  | some (.json _) => true
  | _ => false

/-- Take the state before the method. -/
def enter (runtime : ActorRuntime) (object : Nat) : ActorRuntime × (ExecutorReply ⊕ Invocation) :=
  match snapshotActorState definition (runtime.properties object) with
  | .ok before => (runtime, .inr { object, before })
  | .error error =>
      let (runtime, failure) := runtime.failWith definition error
      (runtime, .inl failure)

/-- The part of an execution before the customer's method. -/
def start (fresh : Except Error Properties) (runtime : ActorRuntime) (envelope : CommandEnvelope) :
    ActorRuntime × (ExecutorReply ⊕ Invocation) :=
  match runtime.fatal with
  | some error => (runtime, .inl (invalidState error))
  | none =>
      match runtime.prepare definition fresh envelope with
      | .error error =>
          let (runtime, failure) := runtime.failWith definition error
          (runtime, .inl failure)
      | .ok (.inl reply) => (runtime, .inl reply)
      | .ok (.inr (runtime, object)) =>
          match envelope.command with
          | .hydrate _ => (runtime, .inl .hydrated)
          | .invoke invocation =>
              if !definition.methods.contains invocation.method then
                (runtime, .inl (.failed "method_not_found"
                  s!"actor method {definition.actorName}.{invocation.method} was not found"))
              else if hidesMethod (runtime.properties object) invocation.method then
                (runtime, .inl (.failed "method_not_callable"
                  s!"actor method {definition.actorName}.{invocation.method} is not callable"))
              else
                runtime.enter definition object
          | .websocketEvent _ => runtime.enter definition object

/-- The number of the next completion, for a class with reentrant methods. -/
def completionOrder (runtime : ActorRuntime) : ActorRuntime × Option Nat :=
  if definition.interleaved then
    ({ runtime with sequence := runtime.sequence + 1 }, some (runtime.sequence + 1))
  else
    (runtime, none)

/-- The update for the change since the last completion. -/
def stateUpdates (runtime : ActorRuntime) (before state : JsonObject) (except : Option String) :
    ActorRuntime × List ActorSocketEffect :=
  if definition.interleaved then
    ({ runtime with lastCompletedState := some state },
      Sdk.stateUpdates definition (runtime.lastCompletedState.getD before) state except)
  else
    (runtime, Sdk.stateUpdates definition before state except)

/-- The connection that a state update leaves out: the one that receives a snapshot. -/
def exceptConnection : WorkerCommand → Option String
  | .websocketEvent invocation =>
      match invocation.event with
      | .connect connection => some connection.id
      | _ => none
  | _ => none

/-- The reply to a method that left the given state. -/
def completion (runtime : ActorRuntime) (command : WorkerCommand) (before state : JsonObject)
    (result : Value) (operationEffects : List ActorSocketEffect) : ActorRuntime × ExecutorReply :=
  let (updated, updates) := runtime.stateUpdates definition before state (exceptConnection command)
  let effects := operationEffects ++ updates
  let (completed, sequence) := updated.completionOrder definition
  match command with
  | .websocketEvent event =>
      (completed, .websocketHandled (.object state) sequence
        (socketEffects definition event.event state effects))
  | _ => (completed, .invoked result (.object state) sequence effects)

/-- The reply to a method that ended without an error. -/
def complete (runtime : ActorRuntime) (command : WorkerCommand) (invocation : Invocation)
    (outcome : Outcome) : Except Error (ActorRuntime × ExecutorReply) :=
  match outcome with
  | .threw message => .error message
  | .returned value operationEffects => do
      let result ← if command matches .invoke _ then value else pure .null
      let state ← snapshotActorState definition (runtime.properties invocation.object)
      return runtime.completion definition command invocation.before state result operationEffects

/-- The code of the failure for a method that ended with an error. -/
def failureCode : WorkerCommand → String
  | .websocketEvent _ => "actor_socket_failed"
  | _ => "actor_method_failed"

/-- The part of an execution after the customer's method.  An error takes the instance back to the
state before, unless other invocations may have changed it meanwhile. -/
def finish (fresh : Except Error Properties) (runtime : ActorRuntime) (command : WorkerCommand)
    (invocation : Invocation) (outcome : Outcome) : ActorRuntime × ExecutorReply :=
  match runtime.complete definition command invocation outcome with
  | .ok completed => completed
  | .error message =>
      if definition.interleaved then
        (runtime, .failed (failureCode command) message)
      else
        match createInstance definition fresh command.actor (.object invocation.before) runtime with
        | .ok runtime => (runtime, .failed (failureCode command) message)
        | .error error => runtime.failWith definition error

end ActorRuntime

end Sdk
end DurableActors
