import DurableActors.Host.Task

/-!
# The actor runtime

The functions of {lit}`host/actor_runtime.rs`.  A function that the source gives
a mutable reference to the cached state returns that state next to its result,
because the state changes survive an error.  Logging and timing are left out.
-/

namespace DurableActors
namespace Host

open Effects

/-- The bound of the source's unsigned counters. -/
def u64Bound : Nat := 2 ^ 64

/-- How long a write ticket has to live to be used. -/
def stateWriteTicketSafetyMs : Nat := 5000

/-! ## Commits -/

/-- The ticket that a pending commit is written with: its own, or a renewed one when its own is
about to expire. -/
def pendingTicket (invocation : ActorInvocation) (cached : CachedActorState)
    (pending : PendingStateCommit) : Run WritePlan :=
  if pending.durable then
    return pending.ticket
  else do
    let now ← unixMillis
    if pending.ticket.expiresAtMs ≤ now + stateWriteTicketSafetyMs then
      let renewed ← prepareStateWrite invocation.actor cached.ownerEpoch cached.stateVersion
      Prog.ensure (renewed.stream = pending.ticket.stream ∧
        renewed.objectName = pending.ticket.objectName) "pending writer has been fenced"
      return renewed
    else
      return pending.ticket

/-- The write of a pending commit, unless it was made durable before. -/
def writePending (pending : PendingStateCommit) : Run Unit :=
  if pending.durable then
    return ()
  else do
    let bytes ← Prog.lift pending.snapshot.encode
    let _ ← writeSnapshot pending.ticket bytes
    return ()

/-- The cached state after its pending commit became durable. -/
def CachedActorState.committed (cached : CachedActorState) (pending : PendingStateCommit) :
    CachedActorState :=
  { cached with
    stateVersion := pending.snapshot.stateVersion
    state := some pending.state
    lastRequestId := some pending.snapshot.requestId
    lastResult := some pending.snapshot.result
    nextWrite := some { pending.ticket with
      stateVersion := pending.snapshot.stateVersion + 1
      objectName := pending.ticket.stream.object (pending.snapshot.stateVersion + 1) }
    pending := none }

/-- Make the pending commit durable and apply it. -/
def finishPendingCommit (invocation : ActorInvocation) (cached : CachedActorState) :
    Run (Except Error Unit × CachedActorState) := do
  let some pending := cached.pending | return (.ok (), cached)
  match ← (pendingTicket invocation cached pending).attempt with
  | .error error => return (.error error, cached)
  | .ok ticket =>
      let pending := { pending with ticket := ticket }
      match ← (writePending pending).attempt with
      | .error error => return (.error error, { cached with pending := some pending })
      | .ok () =>
          let pending := { pending with durable := true }
          if pending.snapshot.stateVersion + 1 < u64Bound then
            return (.ok (), cached.committed pending)
          else
            return (.error "state version overflow", { cached with pending := some pending })

/-- The ticket for the next version: the one kept from the last commit while it is valid. -/
def writeTicket (invocation : ActorInvocation) (ownerEpoch nextVersion : Nat)
    (cached : CachedActorState) : Run WritePlan := do
  match cached.nextWrite with
  | some ticket =>
      if ticket.stateVersion = nextVersion then
        let now ← unixMillis
        if now + stateWriteTicketSafetyMs < ticket.expiresAtMs then
          return ticket
        else
          prepareStateWrite invocation.actor ownerEpoch cached.stateVersion
      else
        prepareStateWrite invocation.actor ownerEpoch cached.stateVersion
  | none => prepareStateWrite invocation.actor ownerEpoch cached.stateVersion

/-- The pending commit of a new state version. -/
def newPending (invocation : ActorInvocation) (ownerEpoch nextVersion : Nat)
    (cached : CachedActorState) (result nextState : Value) (origin : CommitOrigin) :
    Run PendingStateCommit := do
  let ticket ← writeTicket invocation ownerEpoch nextVersion cached
  Prog.ensure (ticket.stateVersion = nextVersion) "state write ticket has the wrong version"
  Prog.ensure (ticket.stream.ownerEpoch = ownerEpoch)
    "write capability belongs to another owner epoch"
  let snapshot ← Prog.lift
    (StateSnapshot.new nextVersion ownerEpoch invocation.requestId nextState result)
  let now ← unixMillis
  let snapshot := { snapshot with
    attribution := some {
      operation := invocation.method
      connectionId := origin.connectionId
      committedAtMs := now
      interleaved := origin.interleaved } }
  let _ ← Prog.lift snapshot.encode
  return { snapshot := snapshot, state := nextState, ticket := ticket, durable := false }

/-- Commit a new state: install it as pending, write it, and apply it. -/
def publishResult (invocation : ActorInvocation) (ownerEpoch : Nat) (cached : CachedActorState)
    (result nextState : Value) (origin : CommitOrigin) :
    Run (Except Error ActorExecutionResult × CachedActorState) := do
  let nextVersion := cached.stateVersion + 1
  if ¬ nextVersion < u64Bound then
    return (.error "actor state version overflow", cached)
  match ← (newPending invocation ownerEpoch nextVersion cached result nextState origin).attempt with
  | .error error => return (.error error, { cached with nextWrite := none })
  | .ok pending =>
      let cached := { cached with nextWrite := none, pending := some pending }
      match ← (writeSnapshot pending.ticket pending.snapshot).attempt with
      | .error error => return (.error error, cached)
      | .ok _ =>
          let cached := { cached with pending := some { pending with durable := true } }
          let (finished, cached) ← finishPendingCommit invocation cached
          return (finished.map fun _ => .completed result [], cached)

/-! ## Preparing and completing invocations -/

/-- Whether an effect is a state message, which the runtime delivers itself. -/
def isAutomatic : ActorSocketEffect → Bool
  | .stateSnapshot _ _ _ | .stateUpdate _ _ _ _ => true
  | _ => false

/-- A state message stamped with the version it shows. -/
def stampVersion (stateVersion : Nat) : ActorSocketEffect → ActorSocketEffect
  | .stateSnapshot connectionId state _ => .stateSnapshot connectionId state (some stateVersion)
  | .stateUpdate changes removed exceptConnectionIds _ =>
      .stateUpdate changes removed exceptConnectionIds (some stateVersion)
  | effect => effect

/-- Check the lease, deliver the state messages and report success. -/
def completeWithState (actor : ActorKey) (stateVersion : Nat) (result : Value)
    (effects : List ActorSocketEffect) : Run ActorExecutionResult := do
  ensureAuthority
  let automatic := (effects.filter isAutomatic).map (stampVersion stateVersion)
  let effects := effects.filter fun effect => !isAutomatic effect
  if automatic.isEmpty then
    return .completed result effects
  else
    match ← (publish actor automatic).attempt with
    | .error _ => return .outcomeUnknown
    | .ok () => return .completed result effects

/-- The cached state of this epoch, or the stored state. -/
def takeOrLoadState (actor : ActorKey) (ownerEpoch : Nat) : Run CachedActorState := do
  let task ← getTask
  setTask { task with cachedState := none }
  match task.cachedState.filter fun cached => cached.ownerEpoch = ownerEpoch with
  | some cached => return cached
  | none =>
      let (stateVersion, loaded) ← loadActorState actor ownerEpoch
      if stateVersion = 0 then
        Prog.ensure (loaded = none) "uninitialized actor has state"
        return CachedActorState.new ownerEpoch
      else
        Prog.lift (CachedActorState.fromLoaded ownerEpoch stateVersion loaded)

/-- Put the cached state back. -/
def putCached (cached : CachedActorState) : Run Unit :=
  modifyTask fun task => { task with cachedState := some cached }

/-- Finish a pending commit and decide whether the invocation has to run. -/
def prepareInvocation (invocation : ActorInvocation) (ownerEpoch : Nat) (replay : Bool) :
    Run PreparedInvocation := do
  ensureAuthority
  let cached ← takeOrLoadState invocation.actor ownerEpoch
  let (finished, cached) ← finishPendingCommit invocation cached
  putCached cached
  match finished with
  | .error _ => return .completed .outcomeUnknown
  | .ok () =>
      match if replay then cached.replay invocation.requestId else none with
      | some result => return .completed (.completed result [])
      | none => return .execute cached.state

/-- The result of a method, or the failure to report for it. -/
def methodResult (actor : ActorKey) (outcome : Except Error ActorMethodOutcome) :
    Run (Except ActorExecutionResult (Value × Value × List ActorSocketEffect)) :=
  match outcome with
  | .ok (.interleaved _) =>
      return .error (.failedWith "actor_error" "unexpected interleaved result")
  | .ok (.completed result state effects) =>
      match validateSocketEffects effects with
      | .ok () => return .ok (result, state, effects)
      | .error error => do
          evict actor
          return .error (.failedWith "actor_error"
            s!"actor returned invalid socket effects: {error}")
  | .ok (.failed failure) => do
      if ¬ (failure.code = "actor_method_failed" ∨ failure.code = "actor_socket_failed") then
        evict actor
      let code :=
        if failure.code = "resource_exhausted" then "resource_exhausted" else "actor_error"
      return .error (.failedWith code failure.message)
  | .error error => do
      evict actor
      return .error (.failedWith "actor_error" s!"actor executor failed: {error}")

/-- Commit and report the outcome of a method. -/
def finishMethod (invocation : ActorInvocation) (ownerEpoch : Nat)
    (executed : Except ActorExecutionResult (Value × Value × List ActorSocketEffect))
    (origin : CommitOrigin) : Run ActorExecutionResult :=
  match executed with
  | .error failure => return failure
  | .ok (result, nextState, effects) => do
      let task ← getTask
      setTask { task with cachedState := none }
      let cached ← Prog.context task.cachedState "actor invocation has no state"
      if cached.state = some nextState then
        putCached cached
        completeWithState invocation.actor cached.stateVersion result effects
      else
        let (published, cached) ←
          publishResult invocation ownerEpoch cached result nextState origin
        if published.isOk = false then
          evict invocation.actor
        putCached cached
        match published with
        | .ok (.completed result _) =>
            completeWithState invocation.actor cached.stateVersion result effects
        | .ok other => return other
        | .error _ => return .outcomeUnknown

/-- Commit and report an outcome that the executor returned on its own. -/
def finishSerial (invocation : ActorInvocation) (ownerEpoch : Nat)
    (outcome : Except Error ActorMethodOutcome) (origin : CommitOrigin) :
    Run ActorExecutionResult := do
  let executed ← methodResult invocation.actor outcome
  finishMethod invocation ownerEpoch executed origin

/-- Commit and report an outcome of an interleaved execution. -/
def commitInterleaved (invocation : ActorInvocation) (ownerEpoch : Nat)
    (outcome : ActorInterleavedOutcome) (origin : CommitOrigin) : Run ActorExecutionResult := do
  ensureAuthority
  Prog.lift (validateSocketEffects outcome.effects)
  let origin := { origin with interleaved := true }
  let task ← getTask
  setTask { task with cachedState := none }
  let cached ← Prog.context task.cachedState "interleaved activation has no state"
  Prog.ensure (cached.ownerEpoch = ownerEpoch) "interleaved ownership changed"
  if cached.state = some outcome.state then
    putCached cached
    completeWithState invocation.actor cached.stateVersion outcome.result outcome.effects
  else
    let (publication, cached) ←
      publishResult invocation ownerEpoch cached outcome.result outcome.state origin
    putCached cached
    let _ ← Prog.lift publication
    completeWithState invocation.actor cached.stateVersion outcome.result outcome.effects

/-! ## Activation -/

/-- Take over the actor once, load its state and hydrate the executor. -/
def activateActor (actor : ActorKey) : Run ActorActivation := do
  ensureAuthority
  let task ← getTask
  match task.activation with
  | some activation => return activation
  | none =>
      let activation ← acquireActor actor
      let mut cachedActivation := activation
      if task.cachedState.isNone then
        if activation.stateVersion = 0 then
          putCached (CachedActorState.new activation.ownerEpoch)
        else
          let bytes ← Prog.context activation.state "activation has no recovered state"
          cachedActivation := { activation with state := none }
          let cached ← Prog.lift (CachedActorState.fromLoaded activation.ownerEpoch
            activation.stateVersion (some bytes))
          putCached cached
      let task ← getTask
      hydrate actor (task.cachedState.bind CachedActorState.state)
      ensureAuthority
      modifyTask fun task => { task with activation := some cachedActivation }
      return cachedActivation

/-! ## The serial entry points -/

/-- Run a method and commit its outcome. -/
def invokeActorOnce (request : ActorRequest) (invocation : ActorInvocation) (ownerEpoch : Nat) :
    Run ActorExecutionResult := do
  match ← prepareInvocation invocation ownerEpoch true with
  | .completed result => return result
  | .execute state =>
      let outcome ← invokeShared request state
      let executed ← methodResult invocation.actor outcome
      finishMethod invocation ownerEpoch executed {}

/-- Run a method between two checks of the lease. -/
def invokeActor (request : ActorRequest) (invocation : ActorInvocation) (ownerEpoch : Nat) :
    Run ActorExecutionResult := do
  ensureAuthority
  let outcome ← (invokeActorOnce request invocation ownerEpoch).attempt
  ensureAuthority
  Prog.lift outcome

/-- The state and effects of a socket handler, or the failure to report for it. -/
def executeSocketEvent (request : ActorRequest) (actor : ActorKey) (state : Option Value) :
    Run (Except ActorExecutionResult (Value × List ActorSocketEffect)) := do
  match ← handleSocketShared request state with
  | .ok (.interleaved _) =>
      return .error (.failedWith "actor_error" "unexpected interleaved result")
  | .ok (.handled state effects) =>
      match validateSocketEffects effects with
      | .ok () => return .ok (state, effects)
      | .error error =>
          evict actor
          return .error (.failedWith "actor_error"
            s!"actor returned invalid socket effects: {error}")
  | .ok (.failed failure) =>
      let code :=
        if failure.code = "resource_exhausted" then "resource_exhausted" else "actor_error"
      return .error (.failedWith code failure.message)
  | .error error =>
      return .error (.failedWith "actor_error" s!"actor executor failed: {error}")

/-- Run a socket handler and commit its outcome. -/
def handleSocketEventOnce (request : ActorRequest) (invocation : ActorSocketInvocation)
    (ownerEpoch : Nat) : Run ActorExecutionResult := do
  let persistence := (ActorOperation.socket invocation).invocation
  let cached ← takeOrLoadState invocation.actor ownerEpoch
  let (finished, cached) ← finishPendingCommit persistence cached
  match finished with
  | .error _ =>
      putCached cached
      return .outcomeUnknown
  | .ok () =>
      match ← executeSocketEvent request invocation.actor cached.state with
      | .error result =>
          putCached cached
          return result
      | .ok (nextState, effects) =>
          if cached.state = some nextState then
            putCached cached
            completeWithState invocation.actor cached.stateVersion .null effects
          else
            let (published, cached) ← publishResult persistence ownerEpoch cached .null nextState
              (ActorOperation.socket invocation).commitOrigin
            if published.isOk = false then
              evict invocation.actor
            putCached cached
            match published with
            | .ok (.completed _ _) =>
                completeWithState invocation.actor cached.stateVersion .null effects
            | .ok other => return other
            | .error _ => return .outcomeUnknown

/-- Run a socket handler between two checks of the lease. -/
def handleSocketEvent (request : ActorRequest) (invocation : ActorSocketInvocation)
    (ownerEpoch : Nat) : Run ActorExecutionResult := do
  ensureAuthority
  let outcome ← (handleSocketEventOnce request invocation ownerEpoch).attempt
  ensureAuthority
  Prog.lift outcome

end Host
end DurableActors
