import DurableActors.Host.Runtime

/-!
# The two loops of the actor task

{lit}`run_actor` serves requests one at a time when the executor has no admission
channel, and otherwise leaves them to the admission {lit}`Mailbox`, which lets the
executor interleave invocations.  A loop gets a bound on its number of rounds;
every finite part of a run is a run with a large enough bound.
-/

namespace DurableActors
namespace Host

open Effects

/-! ## The admission mailbox -/

/-- Send a result to the caller, whether or not anybody waits for it. -/
def finish (request : ActorRequest) (result : Except Error ActorExecutionResult) : Run Unit := do
  let _ ← answer request result
  return ()

/-- Give up: drop the instance, report doubt and end the task. -/
def stop (request : ActorRequest) : Run Bool := do
  evict request.operation.actor
  finish request (.ok .outcomeUnknown)
  return false

/-- Let the next request in when the invocation that held it back is done. -/
def release (id : Nat) : Run Unit :=
  modifyTask fun task =>
    if task.blockedOn = some id then { task with blockedOn := none } else task

/-- Activate the actor; the task ends when that fails. -/
def activate (request : ActorRequest) (actor : ActorKey) : Run Bool := do
  let result ← (activateActor actor).attempt
  finish request (.ok (.completed .null []))
  return result.isOk

/-- Prepare a request and hand it to the executor. -/
def admitRequest (request : ActorRequest) (accepting : Bool) : Run Bool := do
  if !accepting && !request.operation.isDisconnect then
    finish request (.ok .hostUnavailable)
    return true
  else
    match request.operation with
    | .activate actor => activate request actor
    | operation =>
        match ← (prepareInvocation operation.invocation request.ownerEpoch
            operation.isMethod).attempt with
        | .ok (.completed result) =>
            finish request (.ok result)
            return true
        | .error _ => stop request
        | .ok (.execute state) =>
            let task ← getTask
            let id := task.nextInvocation + 1
            setTask { task with
              nextInvocation := id
              blockedOn := some id
              running := task.running ++ [(id, request)] }
            startExecution id request state
            return true

/-- Commit the outcomes that are next in sequence, for at most the given number of rounds; the
number of outcomes that are ready is enough. -/
def commitReady : Nat → Run Bool
  | 0 => return true
  | fuel + 1 => do
      let task ← getTask
      match task.ready.find? fun entry => entry.1 = task.nextSequence with
      | none => return true
      | some (_, id, request, outcome) =>
          setTask { task with
            ready := task.ready.filter fun entry => ¬ entry.1 = task.nextSequence }
          leaveMark (.commitBegins request outcome)
          match ← (commitInterleaved request.operation.invocation request.ownerEpoch outcome
              request.operation.commitOrigin).attempt with
          | .ok (.completed result effects) =>
              leaveMark (.commitEnds outcome.sequence true)
              modifyTask fun task => { task with nextSequence := task.nextSequence + 1 }
              finish request (.ok (.completed result effects))
              release id
              commitReady fuel
          | _ =>
              leaveMark (.commitEnds outcome.sequence false)
              stop request

/-- The failures that an interleaved actor survives. -/
def isBenignFailure (failure : ActorInvocationFailure) : Bool :=
  failure.code = "actor_method_failed" || failure.code = "actor_socket_failed" ||
    failure.code = "method_not_found" || failure.code = "method_not_callable"

/-- Take the outcome of an execution that is no interleaved one. -/
def executedAlone (id : Nat) (request : ActorRequest)
    (result : Except Error ActorMethodOutcome) : Run Bool := do
  let task ← getTask
  if task.interleaved then
    match result with
    | .ok (.failed failure) =>
        if isBenignFailure failure then
          finish request (.ok (.failedWith "actor_error" failure.message))
          release id
          return true
        else
          stop request
    | _ => stop request
  else
    let result ← (finishSerial request.operation.invocation request.ownerEpoch result
      request.operation.commitOrigin).attempt
    finish request result
    release id
    return true

/-- Take the outcome of an execution. -/
def executed (id : Nat) (request : ActorRequest) (result : Except Error ActorMethodOutcome) :
    Run Bool := do
  match result with
  | .ok (.interleaved outcome) =>
      modifyTask fun task => { task with interleaved := true }
      let task ← getTask
      if outcome.sequence < task.nextSequence ∨
          task.ready.any (fun entry => entry.1 = outcome.sequence) then
        stop request
      else
        setTask { task with ready := (outcome.sequence, id, request, outcome) :: task.ready }
        commitReady (task.ready.length + 1)
  | result => executedAlone id request result

/-- The loop of the admission mailbox. -/
def admissionLoop : Nat → Run Unit
  | 0 => return ()
  | fuel + 1 => do
      match ← select with
      | .executed id request result =>
          modifyTask fun task =>
            { task with running := task.running.filter fun entry => ¬ entry.1 = id }
          if ← executed id request result then admissionLoop fuel else return ()
      | .permission granted =>
          if granted then
            modifyTask fun task => { task with interleaved := true, blockedOn := none }
            admissionLoop fuel
          else
            return ()
      | .request (some request) accepting =>
          observeAdmission
          if ← admitRequest request accepting then admissionLoop fuel else return ()
      | .request none _ =>
          modifyTask fun task => { task with isOpen := false }
          admissionLoop fuel
      | .idle => return ()

/-! ## The serial loop -/

/-- Serve one request to the end. -/
def serveRequest (request : ActorRequest) (accepting : Bool) :
    Run (Except Error ActorExecutionResult) := do
  if !accepting && !request.operation.isDisconnect then
    return .ok .hostUnavailable
  else
    match request.operation with
    | .activate actor =>
        let _ ← ((activateActor actor).attempt : Run _)
        return .ok (.completed .null [])
    | .method invocation => (invokeActor request invocation request.ownerEpoch).attempt
    | .socket invocation => (handleSocketEvent request invocation request.ownerEpoch).attempt

/-- The loop of the serial task. -/
def serialLoop : Nat → Run Unit
  | 0 => return ()
  | fuel + 1 => do
      match ← receive with
      | none => return ()
      | some (request, accepting) =>
          let result ← serveRequest request accepting
          if ← answer request result then serialLoop fuel else return ()

/-- The actor task: with an admission channel requests may be interleaved. -/
def runActor (hasAdmission : Bool) (fuel : Nat) : Run Unit :=
  if hasAdmission then admissionLoop fuel else serialLoop fuel

end Host
end DurableActors
