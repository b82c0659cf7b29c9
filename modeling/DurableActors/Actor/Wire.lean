import DurableActors.Data.Json
import DurableActors.Actor.Protocol
import DurableActors.Storage.Numbers

/-!
# Commands on the wire

The messages that the host encodes in {lit}`actor/executor_connection.rs`, and the schemas
of {lit}`sdk/src/host/protocol.ts` and {lit}`sdk/src/actor/socketProtocol.ts` with which the
JavaScript side reads them.

A message is its JSON document: the host's text of it is read by {lit}`JSON.parse` as the
same document with every number replaced by the nearest double.  How many bytes a
number's text has is a parameter on both sides.
-/

namespace DurableActors
namespace Wire

open Numbers Json

/-! ## Messages -/

/-- A connection as it is sent. -/
structure Connection (ν : Type) where
  id : String
  metadata : Json ν
  tags : List String

inductive Event (ν : Type)
  | connect (connection : Connection ν)
  | message (connectionId : String) (content : ActorSocketMessage)
  | disconnect (connection : Connection ν) (code : Nat) (reason : String) (wasClean : Bool)

/-- {lit}`ExecutorCommand`. -/
inductive Command (ν : Type)
  | hydrate (actor : ActorKey)
  | invoke (requestId : String) (actor : ActorKey) (method : String) (args : List (Json ν))
  | websocketEvent (requestId : String) (actor : ActorKey) (event : Event ν)
      (connections : List (Connection ν))
  | evict (actor : ActorKey)

/-- {lit}`ExecutorCommandEnvelope`. -/
structure Envelope (ν : Type) where
  command : Command ν
  state : Option (Json ν)
  residentOnly : Bool

/-- {lit}`ActorExecutorServerMessage`. -/
inductive ServerMessage (ν : Type)
  | socketConnections (messageId : Nat) (connections : List (Connection ν)) (error : Option String)
  | socketEffectsPublished (messageId : Nat) (error : Option String)
  | attached (supportsResidency : Bool) (protocol : Nat)
  | command (messageId : Nat) (command : Envelope ν)

section Map

variable {ν μ : Type} (f : ν → μ)

def Connection.map (connection : Connection ν) : Connection μ :=
  { connection with metadata := connection.metadata.map f }

def Event.map : Event ν → Event μ
  | .connect connection => .connect (connection.map f)
  | .message connectionId content => .message connectionId content
  | .disconnect connection code reason wasClean =>
      .disconnect (connection.map f) code reason wasClean

def Command.map : Command ν → Command μ
  | .hydrate actor => .hydrate actor
  | .invoke requestId actor method args => .invoke requestId actor method (args.map (Json.map f))
  | .websocketEvent requestId actor event connections =>
      .websocketEvent requestId actor (event.map f) (connections.map (Connection.map f))
  | .evict actor => .evict actor

def Envelope.map (envelope : Envelope ν) : Envelope μ where
  command := envelope.command.map f
  state := envelope.state.map (Json.map f)
  residentOnly := envelope.residentOnly

def ServerMessage.map : ServerMessage ν → ServerMessage μ
  | .socketConnections messageId connections error =>
      .socketConnections messageId (connections.map (Connection.map f)) error
  | .socketEffectsPublished messageId error => .socketEffectsPublished messageId error
  | .attached supportsResidency protocol => .attached supportsResidency protocol
  | .command messageId envelope => .command messageId (envelope.map f)

end Map

/-! ## Numbers on both sides -/

/-- The double zero. -/
def zero : Double where
  negative := false
  units := 0
  exact := Dvd.intro 0 rfl
  finite := by decide +kernel

/-- {lit}`JSON.parse` of a number that the host printed.  A host's integer has 64 bits, so it is never
too large for a double. -/
def receive : Number → Double
  | .integer negative magnitude =>
      (toDouble negative (Decimal.mk magnitude 0).nearest).getD zero
  | .float value => value

/-- The sign and the exact size of a number. -/
def hostValue : Number → Bool × Nat
  | .integer negative magnitude => (negative, magnitude * one)
  | .float value => (value.negative, value.units)

def jsValue (x : Double) : Bool × Nat := (x.negative, x.units)

/-! ## Encoding -/

section Encode

/-- A natural number in a message. -/
def natural (n : Nat) : Json Number := .number (.integer false n)

def encodeKey {ν : Type} (actor : ActorKey) : Json ν :=
  .object [("project_id", .string actor.projectId), ("actor_name", .string actor.actorName),
    ("actor_id", .string actor.actorId)]

def Connection.encode (connection : Connection Number) : Json Number :=
  .object [("id", .string connection.id), ("metadata", connection.metadata),
    ("tags", .array (connection.tags.map .string))]

def encodeMessage {ν : Type} : ActorSocketMessage → Json ν
  | .text data => .object [("type", .string "text"), ("data", .string data)]
  | .binary data => .object [("type", .string "binary"), ("data", .string data)]

def Event.encode : Event Number → Json Number
  | .connect connection =>
      .object [("type", .string "connect"), ("connection", connection.encode)]
  | .message connectionId content =>
      .object [("type", .string "message"), ("connection_id", .string connectionId),
        ("message", encodeMessage content)]
  | .disconnect connection code reason wasClean =>
      .object [("type", .string "disconnect"), ("connection", connection.encode),
        ("code", natural code), ("reason", .string reason), ("was_clean", .boolean wasClean)]

def Command.fields : Command Number → List (String × Json Number)
  | .hydrate actor => [("type", .string "hydrate"), ("actor", encodeKey actor)]
  | .invoke requestId actor method args =>
      [("type", .string "invoke"), ("request_id", .string requestId), ("actor", encodeKey actor),
        ("method", .string method), ("args", .array args)]
  | .websocketEvent requestId actor event connections =>
      [("type", .string "websocket_event"), ("request_id", .string requestId),
        ("actor", encodeKey actor), ("event", event.encode),
        ("connections", .array (connections.map Connection.encode))]
  | .evict actor => [("type", .string "evict"), ("actor", encodeKey actor)]

/-- A field that is left out when there is nothing to send. -/
def skipNone (name : String) : Option (Json Number) → List (String × Json Number)
  | none => []
  | some value => [(name, value)]

def Envelope.encode (envelope : Envelope Number) : Json Number :=
  .object (envelope.command.fields ++ skipNone "state" envelope.state ++
    [("resident_only", .boolean envelope.residentOnly)])

def ServerMessage.encode : ServerMessage Number → Json Number
  | .socketConnections messageId connections error =>
      .object ([("type", .string "socket_connections"), ("message_id", natural messageId),
        ("connections", .array (connections.map Connection.encode))] ++
          skipNone "error" (error.map .string))
  | .socketEffectsPublished messageId error =>
      .object ([("type", .string "socket_effects_published"), ("message_id", natural messageId)] ++
        skipNone "error" (error.map .string))
  | .attached supportsResidency protocol =>
      .object [("type", .string "attached"), ("supports_residency", .boolean supportsResidency),
        ("protocol", natural protocol)]
  | .command messageId envelope =>
      .object [("type", .string "command"), ("message_id", natural messageId),
        ("command", envelope.encode)]

/-- The most bytes of a message with its newline. -/
def maxActorExecutorMessageBytes : Nat := 32 * 1024 * 1024

/-- {lit}`encode_server_message`, given the bytes of the host's texts of numbers. -/
def encodeServerMessage (numberBytes : Number → Nat) (message : ServerMessage Number) :
    Except Error (Json Number) :=
  if maxActorExecutorMessageBytes < message.encode.bytes numberBytes jsonStringBytes + 1 then
    .error s!"actor executor command exceeds {maxActorExecutorMessageBytes} bytes"
  else .ok message.encode

end Encode

/-! ## Schemas -/

section Parse

/-- The length of a JavaScript string. -/
def utf16Length (text : String) : Nat :=
  (text.toList.map fun c => if c.toNat < 65536 then 1 else 2).sum

/-- The characters of a component. -/
def isComponentChar (c : Char) : Bool := c.isAlphanum || c == '-' || c == '_' || c == '.'

def isComponent (text : String) : Bool := !text.isEmpty && text.toList.all isComponentChar

def actorComponentSchema (document : Json Double) : Option String :=
  refine (fun text => isComponent text) document.asString

def projectIdSchema (document : Json Double) : Option String :=
  refine (fun text => utf16Length text ≤ 64 ∧ text ≠ "." ∧ text ≠ "..")
    (actorComponentSchema document)

/-- A strict object: no other fields. -/
def actorIdentitySchema (document : Json Double) : Option ActorKey := do
  let fields ← document.asObject
  guard (fields.all fun field => ["project_id", "actor_name", "actor_id"].contains field.1)
  let projectId ← field fields "project_id" projectIdSchema
  let actorName ← field fields "actor_name" actorComponentSchema
  let actorId ← field fields "actor_id" actorComponentSchema
  return { projectId, actorName, actorId }

/-- Every JSON value is accepted; a record leaves out the field {lit}`__proto__`. -/
def jsonValueSchema (document : Json Double) : Option (Json Double) :=
  some (document.prune "__proto__")

/-- {lit}`Number.MAX_SAFE_INTEGER`. -/
@[irreducible] def maxSafeInteger : Nat := 2 ^ 53 - 1

/-- An integer that JavaScript counts exactly. -/
def naturalSchema : Json Double → Option Nat
  | .number x =>
      if (x.negative = true → x.units = 0) ∧ one ∣ x.units ∧ x.units / one ≤ maxSafeInteger then
        some (x.units / one)
      else none
  | _ => none

def socketConnectionIdSchema (document : Json Double) : Option String :=
  refine (fun text => utf16Length text ≤ 128) (actorComponentSchema document)

/-- Given the bytes of JavaScript's texts of numbers. -/
def socketMetadataSchema (numberBytes : Double → Nat) (document : Json Double) :
    Option (Json Double) :=
  refine (fun value => value.bytes numberBytes jsonStringBytes ≤ 64 * 1024)
    (jsonValueSchema document)

def socketTagSchema (document : Json Double) : Option String :=
  refine (fun tag => 1 ≤ utf16Length tag ∧ utf16Length tag ≤ 256) document.asString

def socketTagsSchema (document : Json Double) : Option (List String) :=
  refine (fun tags => tags.length ≤ 128 ∧ (tags.map String.utf8ByteSize).sum ≤ 8 * 1024)
    (document.asArray socketTagSchema)

def socketConnectionSchema (numberBytes : Double → Nat) (document : Json Double) :
    Option (Connection Double) := do
  let fields ← document.asObject
  let id ← field fields "id" socketConnectionIdSchema
  let metadata ← field fields "metadata" (socketMetadataSchema numberBytes)
  let tags ← field fields "tags" socketTagsSchema
  return { id, metadata, tags }

/-- The symbols before the padding of a base64 text. -/
def base64Body (data : String) : List Char :=
  (data.toList.reverse.dropWhile (· == '=')).reverse

/-- Groups of four symbols, the last one padded. -/
def isBase64 (data : String) : Bool :=
  data.length % 4 == 0 && data.length - (base64Body data).length ≤ 2 &&
    (base64Body data).all fun c => c.isAlphanum || c == '+' || c == '/'

def socketTextSchema (document : Json Double) : Option String :=
  refine (fun data => data.utf8ByteSize ≤ maxSocketMessageBytes) document.asString

def socketBinarySchema (document : Json Double) : Option String :=
  refine (fun data => isBase64 data ∧ (base64Body data).length * 3 / 4 ≤ maxSocketMessageBytes)
    document.asString

def socketMessageSchema (document : Json Double) : Option ActorSocketMessage := do
  let fields ← document.asObject
  let type ← field fields "type" asString
  if type = "text" then return .text (← field fields "data" socketTextSchema)
  else if type = "binary" then return .binary (← field fields "data" socketBinarySchema)
  else none

section

variable (numberBytes : Double → Nat)

def socketEventSchema (document : Json Double) : Option (Event Double) := do
  let fields ← document.asObject
  let type ← field fields "type" asString
  if type = "connect" then
    return .connect (← field fields "connection" (socketConnectionSchema numberBytes))
  else if type = "message" then
    let connectionId ← field fields "connection_id" actorComponentSchema
    let message ← field fields "message" socketMessageSchema
    return .message connectionId message
  else if type = "disconnect" then
    let connection ← field fields "connection" (socketConnectionSchema numberBytes)
    let code ← field fields "code" fun value => refine (fun code => code ≤ 65535) (naturalSchema value)
    let reason ← field fields "reason" asString
    let wasClean ← field fields "was_clean" asBoolean
    return .disconnect connection code reason wasClean
  else none

/-- The command of one type, from its fields. -/
def commandSchema (type : String) (fields : List (String × Json Double)) :
    Option (Command Double) := do
  if type = "invoke" then
    let requestId ← field fields "request_id" actorComponentSchema
    let actor ← field fields "actor" actorIdentitySchema
    let method ← field fields "method" actorComponentSchema
    let args ← field fields "args" (asArray jsonValueSchema)
    return .invoke requestId actor method args
  else if type = "websocket_event" then
    let requestId ← field fields "request_id" actorComponentSchema
    let actor ← field fields "actor" actorIdentitySchema
    let event ← field fields "event" (socketEventSchema numberBytes)
    let connections ← field fields "connections" (asArray (socketConnectionSchema numberBytes))
    return .websocketEvent requestId actor event connections
  else if type = "evict" then
    return .evict (← field fields "actor" actorIdentitySchema)
  else if type = "hydrate" then
    return .hydrate (← field fields "actor" actorIdentitySchema)
  else none

/-- An eviction has neither a state nor the flag; elsewhere a missing flag is false. -/
def executorCommandSchema (document : Json Double) : Option (Envelope Double) := do
  let fields ← document.asObject
  let type ← field fields "type" asString
  let command ← commandSchema numberBytes type fields
  if type = "evict" then return { command, state := none, residentOnly := false }
  let state ← optionalField fields "state" jsonValueSchema
  let residentOnly ← optionalField fields "resident_only" asBoolean
  return { command, state, residentOnly := residentOnly.getD false }

/-- {lit}`parseActorSessionServerMessage` after {lit}`JSON.parse`. -/
def parseActorSessionServerMessage (document : Json Double) : Option (ServerMessage Double) := do
  let fields ← document.asObject
  let type ← field fields "type" asString
  if type = "attached" then
    let protocol ← field fields "protocol" fun value => refine (fun n => n = 18) (naturalSchema value)
    let supportsResidency ← optionalField fields "supports_residency" asBoolean
    return .attached (supportsResidency.getD false) protocol
  else if type = "socket_connections" then
    let messageId ← field fields "message_id" naturalSchema
    let connections ← field fields "connections" (asArray (socketConnectionSchema numberBytes))
    let error ← optionalField fields "error" asString
    return .socketConnections messageId connections error
  else if type = "socket_effects_published" then
    let messageId ← field fields "message_id" naturalSchema
    let error ← optionalField fields "error" asString
    return .socketEffectsPublished messageId error
  else if type = "command" then
    let messageId ← field fields "message_id" naturalSchema
    let command ← field fields "command" (executorCommandSchema numberBytes)
    return .command messageId command
  else none

end

end Parse

end Wire
end DurableActors
