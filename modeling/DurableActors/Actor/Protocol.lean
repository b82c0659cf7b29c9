import Mathlib

/-!
# The data that passes between hosts, actors and callers

The types of {lit}`actor/protocol.rs`, {lit}`actor/executor_connection.rs` and
{lit}`state_log.rs` that the runtime reads or returns, with the validators that
guard them.

A JSON value is kept as deep as the host looks into it: an object exposes its
field names and the canonical JSON text of each field, and every other value is
its canonical JSON text.  Errors are the texts of the source.
-/

namespace DurableActors

/-- The text of an error. -/
abbrev Error := String

/-- A JSON object: field names with the JSON texts of their values, in key order. -/
abbrev JsonObject := List (String × String)

/-- A JSON value: an object with its fields, or the JSON text of any other value. -/
inductive Value
  | text (json : String)
  | object (fields : JsonObject)
deriving DecidableEq

/-- The bytes of a character inside a JSON string. -/
def jsonCharBytes (c : Char) : Nat :=
  if c ∈ ['"', '\\', '\n', '\r', '\t', Char.ofNat 8, Char.ofNat 12] then 2
  else if c.toNat < 32 then 6
  else c.utf8Size

/-- The bytes of a JSON string with its quotes. -/
def jsonStringBytes (text : String) : Nat :=
  2 + (text.toList.map jsonCharBytes).sum

namespace Value

/-- The JSON value {lit}`null`. -/
def null : Value := text "null"

/-- Whether the value is a JSON object. -/
def isObject : Value → Bool
  | text _ => false
  | object _ => true

/-- The number of bytes of the canonical encoding. -/
def encodedBytes : Value → Nat
  | text json => json.utf8ByteSize
  | object fields =>
      2 + (fields.length - 1) +
        (fields.map fun field => jsonStringBytes field.1 + 1 + field.2.utf8ByteSize).sum

end Value

/-! ## Actors and invocations -/

/-- The identity of one actor instance. -/
structure ActorKey where
  projectId : String
  actorName : String
  actorId : String
deriving DecidableEq

/-- One call of an actor's method.  The request ID is a correlation ID for the caller's
attempt. -/
structure ActorInvocation where
  requestId : String
  actor : ActorKey
  method : String
  args : List Value
deriving DecidableEq

/-- The check behind every validated name. -/
def validateComponent (name value : String) (maxBytes : Nat) : Except Error Unit :=
  if value.isEmpty then
    .error s!"{name} must not be empty"
  else if maxBytes < value.utf8ByteSize then
    .error s!"{name} must be at most {maxBytes} bytes"
  else if !value.toList.all (fun c => c.isAlphanum || c == '-' || c == '_' || c == '.') then
    .error s!"{name} may contain only ASCII letters, digits, '.', '-', and '_'"
  else
    .ok ()

/-- A validated name is not empty, is short enough, and has only the listed characters. -/
theorem validateComponent_ok {name value : String} {maxBytes : Nat}
    (h : validateComponent name value maxBytes = .ok ()) :
    value ≠ "" ∧ value.utf8ByteSize ≤ maxBytes ∧
      ∀ c ∈ value.toList, c.isAlphanum ∨ c = '-' ∨ c = '_' ∨ c = '.' := by
  unfold validateComponent at h
  split at h
  · cases h
  split at h
  · cases h
  split at h
  · cases h
  rename_i hempty hsize hall
  refine ⟨fun heq => hempty (by simp [heq]), Nat.le_of_not_lt hsize, fun c hc => ?_⟩
  simp only [Bool.not_eq_true', Bool.not_eq_false] at hall
  simpa [or_assoc] using List.all_eq_true.mp hall c hc

namespace ActorKey

/-- Stable, readable identity used for coordination records. -/
def storageKey (actor : ActorKey) : String :=
  s!"object.v4.{actor.projectId}:{actor.actorName}:{actor.actorId}"

/-- The validator of storage keys. -/
def validateStorageKey (key : String) : Except Error Unit :=
  if key.isEmpty then
    .error "actor storage key must not be empty"
  else if 255 < key.utf8ByteSize then
    .error "actor storage key must be at most 255 bytes"
  else if key = "." ∨ key = ".." then
    .error "actor storage key must not be a relative path component"
  else if key.toList.any (fun c => c == '/' || c == '\\' || c.toNat < 32 ||
      (127 ≤ c.toNat && c.toNat < 160)) then
    .error "actor storage key must not contain path separators or control characters"
  else
    .ok ()

/-- The validator of actor identities. -/
def validate (actor : ActorKey) : Except Error Unit := do
  validateComponent "project ID" actor.projectId 64
  validateComponent "actor name" actor.actorName 48
  validateComponent "actor ID" actor.actorId 128
  validateStorageKey actor.storageKey

end ActorKey

/-- The validator of invocations. -/
def ActorInvocation.validate (invocation : ActorInvocation) : Except Error Unit := do
  if invocation.requestId.isEmpty then
    throw "request ID must not be empty"
  if 255 < invocation.requestId.utf8ByteSize then
    throw "request ID must be at most 255 bytes"
  invocation.actor.validate
  validateComponent "actor method" invocation.method 128

/-! ## Socket events and effects -/

/-- A browser connection as actor code sees it. -/
structure ActorSocketConnection where
  id : String
  metadata : Value
  tags : List String
deriving DecidableEq

/-- A message on a socket; binary data is base64. -/
inductive ActorSocketMessage
  | text (data : String)
  | binary (data : String)
deriving DecidableEq

/-- What happens on a connection. -/
inductive ActorSocketEvent
  | connect (connection : ActorSocketConnection)
  | message (connectionId : String) (message : ActorSocketMessage)
  | disconnect (connection : ActorSocketConnection) (code : Nat) (reason : String)
      (wasClean : Bool)
deriving DecidableEq

namespace ActorSocketEvent

/-- The connection an event is about. -/
def connectionId : ActorSocketEvent → String
  | connect connection => connection.id
  | message connectionId _ => connectionId
  | disconnect connection _ _ _ => connection.id

/-- The handler that an event calls. -/
def name : ActorSocketEvent → String
  | connect _ => "onConnect"
  | message _ _ => "onMessage"
  | disconnect _ _ _ _ => "onDisconnect"

/-- Whether the event ends a connection. -/
def isDisconnect : ActorSocketEvent → Bool
  | disconnect _ _ _ _ => true
  | _ => false

end ActorSocketEvent

/-- A socket event with the connection list that the handler is given. -/
structure ActorSocketInvocation where
  requestId : String
  actor : ActorKey
  event : ActorSocketEvent
  connections : List ActorSocketConnection
deriving DecidableEq

/-- How the tags of a broadcast select connections. -/
inductive ActorSocketTagMatch
  | all
  | any
deriving DecidableEq

/-- What an actor execution asks the host to do with sockets. -/
inductive ActorSocketEffect
  | stateSnapshot (connectionId : String) (state : Value) (version : Option Nat)
  | stateUpdate (changes : Value) (removed : List String) (exceptConnectionIds : List String)
      (version : Option Nat)
  | send (connectionId : String) (message : ActorSocketMessage)
  | broadcast (message : ActorSocketMessage) (exceptConnectionIds : List String)
      (tags : List String) (tagMatch : ActorSocketTagMatch)
  | close (connectionId : String) (code : Nat) (reason : String)
  | reject (connectionId : String) (code : Nat) (reason : String)
  | setMetadata (connectionId : String) (metadata : Value)
  | setTags (connectionId : String) (tags : List String)
deriving DecidableEq

/-- The most bytes a socket message may have. -/
def maxSocketMessageBytes : Nat := 16 * 1024 * 1024

/-- The length of the bytes that padded standard base64 stands for; none when it is malformed. -/
def base64DecodedLength (data : String) : Option Nat :=
  let symbols := data.toList
  let body := symbols.reverse.dropWhile (· == '=') |>.reverse
  let padding := symbols.length - body.length
  let isSymbol (c : Char) : Bool := c.isAlphanum || c == '+' || c == '/'
  -- With padding, the last symbol may only use the bits that belong to the last byte.
  let canonical : Bool :=
    match padding, body.getLast? with
    | 0, _ => true
    | 1, some c => "AEIMQUYcgkosw048".toList.contains c
    | 2, some c => "AQgw".toList.contains c
    | _, _ => false
  if symbols.length % 4 = 0 ∧ padding ≤ 2 ∧ body.all isSymbol ∧ canonical then
    some (symbols.length / 4 * 3 - padding)
  else
    none

/-- The validator of connection IDs. -/
def validateConnectionId (connectionId : String) : Except Error Unit := do
  if connectionId.isEmpty then
    throw "socket connection ID is empty"
  if 128 < connectionId.utf8ByteSize then
    throw "socket connection ID exceeds 128 bytes"

/-- The validator of public state. -/
def validatePublicState (state : Value) : Except Error Unit := do
  if !state.isObject then
    throw "public state must be a JSON object"
  if maxSocketMessageBytes - 256 < state.encodedBytes then
    throw "public state exceeds message limit"

/-- The validator of socket messages. -/
def validateSocketMessage : ActorSocketMessage → Except Error Unit
  | .text data =>
      if maxSocketMessageBytes < data.utf8ByteSize then
        .error s!"socket message exceeds {maxSocketMessageBytes} bytes"
      else
        .ok ()
  | .binary data =>
      if (maxSocketMessageBytes + 2) / 3 * 4 < data.utf8ByteSize then
        .error s!"socket message exceeds {maxSocketMessageBytes} decoded bytes"
      else
        match base64DecodedLength data with
        | none => .error "socket binary message is not valid base64"
        | some length =>
            if maxSocketMessageBytes < length then
              .error s!"socket message exceeds {maxSocketMessageBytes} decoded bytes"
            else
              .ok ()

/-- The validator of connection tags. -/
def validateSocketTags (tags : List String) : Except Error Unit := do
  if 128 < tags.length then
    throw "socket tags exceed 128 entries"
  tags.forM fun tag => do
    if tag.isEmpty then
      throw "socket tag is empty"
    if 256 < tag.length then
      throw "socket tag exceeds 256 characters"
  if 8 * 1024 < (tags.map String.utf8ByteSize).sum then
    throw "socket tags exceed 8192 bytes"

/-- The validator of close frames. -/
def validateClose (code : Nat) (reason : String) : Except Error Unit := do
  if ¬ (code = 1000 ∨ (3000 ≤ code ∧ code ≤ 4999)) then
    throw "socket close code must be 1000 or between 3000 and 4999"
  if 123 < reason.utf8ByteSize then
    throw "socket close reason exceeds 123 bytes"

/-- The bytes of a list of JSON strings. -/
def encodedStringsBytes (texts : List String) : Nat :=
  2 + (texts.length - 1) + (texts.map jsonStringBytes).sum

/-- The bytes of an encoded state update: its tag, its fields and the optional members. -/
def stateUpdateBytes (changes : Value) (removed exceptConnectionIds : List String)
    (version : Option Nat) : Nat :=
  "\x7b\"type\":\"state_update\",\"changes\":,\"removed\":\x7d".utf8ByteSize + changes.encodedBytes +
    encodedStringsBytes removed +
    (if exceptConnectionIds.isEmpty then 0
      else ",\"except_connection_ids\":".utf8ByteSize + encodedStringsBytes exceptConnectionIds) +
    (match version with
      | none => 0
      | some version => ",\"version\":".utf8ByteSize + (toString version).utf8ByteSize)

/-- The validator of one socket effect. -/
def validateSocketEffect : ActorSocketEffect → Except Error Unit
  | .stateSnapshot connectionId state _ => do
      validateConnectionId connectionId
      validatePublicState state
  | .stateUpdate changes removed exceptConnectionIds version => do
      validatePublicState changes
      match changes with
      | .object fields =>
          if removed.any fun field => fields.any fun entry => entry.1 == field then
            throw "state field is both changed and removed"
      | .text _ => pure ()
      if maxSocketMessageBytes < stateUpdateBytes changes removed exceptConnectionIds version then
        throw "state update exceeds message limit"
      exceptConnectionIds.forM validateConnectionId
  | .send connectionId message => do
      validateConnectionId connectionId
      validateSocketMessage message
  | .broadcast message exceptConnectionIds tags _ => do
      if 128 < exceptConnectionIds.length then
        throw "socket broadcast exclusions exceed 128 entries"
      exceptConnectionIds.forM validateConnectionId
      validateSocketTags tags
      validateSocketMessage message
  | .close connectionId code reason | .reject connectionId code reason => do
      validateConnectionId connectionId
      validateClose code reason
  | .setMetadata connectionId metadata => do
      validateConnectionId connectionId
      if 64 * 1024 < metadata.encodedBytes then
        throw "socket metadata exceeds 65536 bytes"
  | .setTags connectionId tags => do
      validateConnectionId connectionId
      validateSocketTags tags

/-- The validator of the effects of one execution. -/
def validateSocketEffects (effects : List ActorSocketEffect) : Except Error Unit :=
  effects.forM validateSocketEffect

/-! ## Outcomes and results -/

/-- A failure that is reported to the caller. -/
structure ActorInvocationFailure where
  code : String
  message : String
deriving DecidableEq

/-- The failure for an execution whose publication is in doubt. -/
def ActorInvocationFailure.outcomeUnknownAfterExecution : ActorInvocationFailure where
  code := "outcome_unknown"
  message :=
    "actor execution completed, but its durable publication outcome could not be confirmed"

/-- What the host answers to a submitted operation. -/
inductive ActorExecutionResult
  | completed (result : Value) (effects : List ActorSocketEffect)
  | failed (failure : ActorInvocationFailure)
  | reroute
  | hostUnavailable
deriving DecidableEq

namespace ActorExecutionResult

/-- Whether the result reports success. -/
def isCompleted : ActorExecutionResult → Bool
  | completed _ _ => true
  | _ => false

/-- A failure with a code and a message. -/
def failedWith (code message : String) : ActorExecutionResult :=
  failed ⟨code, message⟩

/-- The result for an execution whose publication is in doubt. -/
def outcomeUnknown : ActorExecutionResult :=
  failed ActorInvocationFailure.outcomeUnknownAfterExecution

@[simp]
theorem isCompleted_failedWith (code message : String) :
    (failedWith code message).isCompleted = false := rfl

@[simp]
theorem isCompleted_outcomeUnknown : outcomeUnknown.isCompleted = false := rfl

end ActorExecutionResult

/-- An outcome of an actor that runs invocations interleaved. -/
structure ActorInterleavedOutcome where
  sequence : Nat
  result : Value
  state : Value
  effects : List ActorSocketEffect
deriving DecidableEq

/-- An outcome of a method call; socket events report theirs in the same form. -/
inductive ActorMethodOutcome
  | interleaved (outcome : ActorInterleavedOutcome)
  | completed (result state : Value) (effects : List ActorSocketEffect)
  | failed (failure : ActorInvocationFailure)
deriving DecidableEq

/-- An outcome of a socket handler. -/
inductive ActorSocketOutcome
  | interleaved (outcome : ActorInterleavedOutcome)
  | handled (state : Value) (effects : List ActorSocketEffect)
  | failed (failure : ActorInvocationFailure)
deriving DecidableEq

end DurableActors
