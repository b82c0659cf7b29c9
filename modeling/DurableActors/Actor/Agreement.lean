import DurableActors.Actor.Wire

/-!
# What the JavaScript side accepts

The commands that the host can send are those whose parts its own validators accepted:
invocations of the HTTP endpoint, and socket events and connection lists built from
tickets and socket effects.  This module says which of them the JavaScript side reads
as the host meant them.

Main results:

- Theorem {lit}`accepted_of_reachable`: the connections of the registry passed the validators.
- Theorem {lit}`javascript_accepts_iff`: a command is read as it was sent exactly when it is
  portable.
- Theorem {lit}`javascript_rejects_request_id`: a request ID with a blank is rejected.
-/

namespace DurableActors
namespace Wire

open Numbers Json

/-! ## The registry of connections -/

/-- {lit}`validate_socket_metadata`, given the bytes of the host's texts of numbers. -/
def validateSocketMetadata (numberBytes : Number → Nat) (metadata : Json Number) :
    Except Error Unit :=
  if 64 * 1024 < metadata.bytes numberBytes jsonStringBytes then
    .error "socket metadata exceeds 65536 bytes"
  else .ok ()

/-- A registered socket of an actor. -/
structure RegisteredSocket where
  connection : Connection Number
  isOpen : Bool

abbrev Registry := List RegisteredSocket

namespace Registry

def insert (registry : Registry) (connection : Connection Number) : Registry :=
  if 128 ≤ registry.length then registry else registry ++ [{ connection, isOpen := false }]

/-- Change the socket with the given connection. -/
def update (registry : Registry) (connectionId : String)
    (change : RegisteredSocket → RegisteredSocket) : Registry :=
  registry.map fun socket => if socket.connection.id = connectionId then change socket else socket

def setMetadata (registry : Registry) (connectionId : String) (metadata : Json Number) : Registry :=
  registry.update connectionId fun socket =>
    { socket with connection := { socket.connection with metadata } }

def setTags (registry : Registry) (connectionId : String) (tags : List String) : Registry :=
  registry.update connectionId fun socket =>
    { socket with connection := { socket.connection with tags } }

def activate (registry : Registry) (connectionId : String) : Registry :=
  registry.update connectionId fun socket => { socket with isOpen := true }

def remove (registry : Registry) (connectionId : String) : Registry :=
  registry.filter fun socket => socket.connection.id ≠ connectionId

def find (registry : Registry) (connectionId : String) : Option (Connection Number) :=
  (registry.find? fun socket => socket.connection.id = connectionId).map
    RegisteredSocket.connection

def connections (registry : Registry) : List (Connection Number) :=
  (registry.filter RegisteredSocket.isOpen).map RegisteredSocket.connection

/-- The event and the connection list that a handler gets. -/
def prepareEvent (registry : Registry) : Event Number → Event Number × List (Connection Number)
  | .connect connection => (.connect connection, registry.connections ++ [connection])
  | .message connectionId content => (.message connectionId content, registry.connections)
  | .disconnect connection code reason wasClean =>
      (.disconnect ((registry.find connection.id).getD connection) code reason wasClean,
        (registry.remove connection.id).connections)

end Registry

/-- A version 4 UUID in its usual text. -/
def IsUuid (text : String) : Prop :=
  text.length = 36 ∧ text.toList.all fun c => c.isDigit || c == '-' || ('a' ≤ c && c ≤ 'f')

instance (text : String) : Decidable (IsUuid text) := by unfold IsUuid; infer_instance

section Sendable

variable (hostBytes : Number → Nat)

/-- What the validators say about a connection. -/
structure Accepted (connection : Connection Number) : Prop where
  id : IsUuid connection.id
  metadata : validateSocketMetadata hostBytes connection.metadata = .ok ()
  tags : validateSocketTags connection.tags = .ok ()

/-- The registries that accepted tickets and accepted socket effects build.  The other effects do not
change connections. -/
inductive ReachableRegistry : Registry → Prop
  | empty : ReachableRegistry []
  | connect {registry id metadata} : ReachableRegistry registry → IsUuid id →
      validateSocketMetadata hostBytes metadata = .ok () →
      ReachableRegistry (registry.insert { id, metadata, tags := [] })
  | setMetadata {registry connectionId metadata} : ReachableRegistry registry →
      validateSocketMetadata hostBytes metadata = .ok () →
      ReachableRegistry (registry.setMetadata connectionId metadata)
  | setTags {registry connectionId tags} : ReachableRegistry registry →
      validateSocketTags tags = .ok () → ReachableRegistry (registry.setTags connectionId tags)
  | activate {registry connectionId} : ReachableRegistry registry →
      ReachableRegistry (registry.activate connectionId)
  | remove {registry connectionId} : ReachableRegistry registry →
      ReachableRegistry (registry.remove connectionId)

/-- The events of a session: its own connection, as the ticket gave it or as the registry had it when
it was removed, and text messages within the frame limit. -/
inductive SessionEvent : Event Number → Prop
  | connect {id metadata} : IsUuid id → validateSocketMetadata hostBytes metadata = .ok () →
      SessionEvent (.connect { id, metadata, tags := [] })
  | message {connectionId data} : IsUuid connectionId →
      data.utf8ByteSize ≤ maxSocketMessageBytes → SessionEvent (.message connectionId (.text data))
  | disconnect {connection registry code reason wasClean} : IsUuid connection.id →
      validateSocketMetadata hostBytes connection.metadata = .ok () → connection.tags = [] →
      ReachableRegistry hostBytes registry → code < 65536 →
      SessionEvent (.disconnect ((registry.find connection.id).getD connection) code reason wasClean)

/-- The messages that the host can send. -/
inductive Sendable : ServerMessage Number → Prop
  | attached : Sendable (.attached true 18)
  | published {messageId error} : Sendable (.socketEffectsPublished messageId error)
  | connections {messageId registry} : ReachableRegistry hostBytes registry →
      Sendable (.socketConnections messageId registry.connections none)
  | connectionsError {messageId error} : Sendable (.socketConnections messageId [] (some error))
  | invoke {messageId requestId actor method args state residentOnly} :
      ActorInvocation.validate { requestId, actor, method, args := [] } = .ok () →
      Sendable (.command messageId
        { command := .invoke requestId actor method args, state, residentOnly })
  | websocketEvent {messageId requestId actor event registry state residentOnly} :
      IsUuid requestId → actor.validate = .ok () → SessionEvent hostBytes event →
      ReachableRegistry hostBytes registry →
      Sendable (.command messageId
        { command := .websocketEvent requestId actor (registry.prepareEvent event).1
            (registry.prepareEvent event).2
          state, residentOnly })
  | hydrate {messageId actor state} : actor.validate = .ok () →
      Sendable (.command messageId { command := .hydrate actor, state, residentOnly := false })
  | evict {messageId actor} : actor.validate = .ok () →
      Sendable (.command messageId
        { command := .evict actor, state := none, residentOnly := false })

end Sendable

/-! ## What arrives unchanged -/

/-- The number is a double. -/
def Exact : Number → Prop
  | .integer _ magnitude =>
      Rounding.spacing 53 (magnitude * one) ∣ magnitude * one ∧ magnitude * one < infinite
  | .float _ => True

/-- The document's numbers are doubles, and it has no field that records leave out. -/
def PortableJson (document : Json Number) : Prop :=
  (∀ n ∈ document.numbers, Exact n) ∧ "__proto__" ∉ document.names

/-- The project ID is not a relative path component. -/
def PortableActor (actor : ActorKey) : Prop := actor.projectId ≠ "." ∧ actor.projectId ≠ ".."

section Portable

variable (jsBytes : Double → Nat)

/-- The metadata arrives, and fits in JavaScript's text of it; tags are short in UTF-16. -/
structure PortableConnection (connection : Connection Number) : Prop where
  metadata : PortableJson connection.metadata
  bytes : ((connection.metadata.map receive).prune "__proto__").bytes jsBytes jsonStringBytes ≤
    64 * 1024
  tags : ∀ tag ∈ connection.tags, utf16Length tag ≤ 256

def PortableEvent : Event Number → Prop
  | .connect connection | .disconnect connection _ _ _ => PortableConnection jsBytes connection
  | .message _ _ => True

def PortableCommand : Command Number → Prop
  | .hydrate actor | .evict actor => PortableActor actor
  | .invoke requestId actor _ args =>
      isComponent requestId ∧ PortableActor actor ∧ ∀ arg ∈ args, PortableJson arg
  | .websocketEvent _ actor event connections =>
      PortableActor actor ∧ PortableEvent jsBytes event ∧
        ∀ connection ∈ connections, PortableConnection jsBytes connection

/-- The message arrives as it was sent. -/
def Portable : ServerMessage Number → Prop
  | .attached _ _ => True
  | .socketEffectsPublished messageId _ => messageId ≤ maxSafeInteger
  | .socketConnections messageId connections _ =>
      messageId ≤ maxSafeInteger ∧ ∀ connection ∈ connections, PortableConnection jsBytes connection
  | .command messageId envelope =>
      messageId ≤ maxSafeInteger ∧ PortableCommand jsBytes envelope.command ∧
        ∀ state ∈ envelope.state, PortableJson state

end Portable

/-! ## Numbers and documents -/

theorem jsValue_receive (n : Number) : jsValue (receive n) = hostValue n ↔ Exact n := by
  cases n with
  | float x => simp [receive, jsValue, hostValue, Exact]
  | integer negative magnitude =>
      have hnearest := nearest_nonneg magnitude 0
      rw [pow_zero, mul_one] at hnearest
      simp only [receive, Exact]
      constructor
      · intro h
        cases hdouble : toDouble negative (Decimal.mk magnitude 0).nearest with
        | none =>
            simp only [hdouble, Option.getD_none, jsValue, hostValue, zero, Prod.mk.injEq] at h
            rw [← h.2]
            exact ⟨zero.exact, zero.finite⟩
        | some x =>
            simp only [hdouble, Option.getD_some, jsValue, hostValue, Prod.mk.injEq] at h
            rw [← h.2]
            exact ⟨x.exact, x.finite⟩
      · rintro ⟨hexact, hfinite⟩
        have hround := Rounding.round_of_dvd (b := 1) Nat.one_pos hexact
        rw [mul_one] at hround
        have hdouble : toDouble negative (Decimal.mk magnitude 0).nearest =
            some ⟨negative, magnitude * one, hexact, hfinite⟩ :=
          toDouble_eq_some.mpr ⟨rfl, (hnearest.trans hround).symm⟩
        rw [hdouble]
        rfl

theorem agrees_json (document : Json Number) :
    Agrees (jsonValueSchema (document.map receive)) (Json.map jsValue) (document.map hostValue) ↔
      PortableJson document := by
  rw [jsonValueSchema, agrees_some, prune_agrees_iff]
  simp only [jsValue_receive, PortableJson]

/-- Integers of at most 53 bits are doubles. -/
theorem exact_integer (negative : Bool) {n : Nat} (h : n ≤ maxSafeInteger) :
    Exact (.integer negative n) := by
  have hlt : n < 2 ^ 53 := by
    unfold maxSafeInteger at h
    omega
  constructor
  · obtain ⟨k, hone⟩ := one_eq_pow
    rw [hone]
    exact Rounding.spacing_dvd_of_lt (by decide) _ hlt
  · have hmax : 2 ^ 53 * one ≤ infinite := by decide +kernel
    exact lt_of_lt_of_le (Nat.mul_lt_mul_of_pos_right hlt one_pos) hmax

/-- Message IDs arrive up to the largest safe integer. -/
theorem agrees_natural (n : Nat) :
    Agrees (naturalSchema ((natural n).map receive)) id n ↔ n ≤ maxSafeInteger := by
  simp only [natural, Json.map, naturalSchema]
  constructor
  · rintro ⟨value, hvalue, hseen⟩
    split at hvalue
    · rename_i hsafe
      rw [← hseen, id, ← Option.some.inj hvalue]
      exact hsafe.2.2
    · cases hvalue
  · intro h
    have hvalue := (jsValue_receive _).mpr (exact_integer false h)
    simp only [jsValue, hostValue, Prod.mk.injEq] at hvalue
    have hdiv : n * one / one = n := Nat.mul_div_cancel _ one_pos
    rw [hvalue.1, hvalue.2, hdiv, if_pos ⟨by simp, Dvd.intro_left n rfl, h⟩]
    exact agrees_some.mpr rfl

theorem naturalSchema_natural {n : Nat} (h : n ≤ maxSafeInteger) :
    naturalSchema ((natural n).map receive) = some n := by
  obtain ⟨value, hvalue, rfl⟩ := (agrees_natural n).mpr h
  exact hvalue

/-! ## Texts -/

theorem validateComponent_eq_ok {name value : String} {maxBytes : Nat}
    (h : validateComponent name value maxBytes = .ok ()) :
    isComponent value ∧ value.utf8ByteSize ≤ maxBytes := by
  unfold validateComponent at h
  split_ifs at h with hempty hlong hchars
  refine ⟨?_, not_lt.mp hlong⟩
  have hall : value.toList.all isComponentChar = true := by
    cases hall : value.toList.all isComponentChar with
    | true => rfl
    | false => exact absurd (congrArg (!·) hall) hchars
  simp [isComponent, hall, hempty]

theorem utf16_le_utf8 (chars : List Char) :
    (chars.map fun c => if c.toNat < 65536 then 1 else 2).sum ≤ String.utf8Len chars := by
  induction chars with
  | nil => simp
  | cons c chars ih =>
      have hchar : (if c.toNat < 65536 then 1 else 2) ≤ c.utf8Size := by
        simp only [Char.utf8Size, Char.toNat, UInt32.le_iff_toNat_le]
        split_ifs <;> simp_all
        all_goals omega
      simp only [List.map_cons, List.sum_cons, String.utf8Len_cons]
      omega

/-- A string has no more UTF-16 units than bytes. -/
theorem utf16Length_le (text : String) : utf16Length text ≤ text.utf8ByteSize := by
  have h := utf16_le_utf8 text.toList
  rwa [← String.utf8ByteSize_ofList, String.ofList_toList] at h

theorem isComponentChar_of_uuid {c : Char}
    (h : c.isDigit || c == '-' || ('a' ≤ c && c ≤ 'f')) : isComponentChar c := by
  simp only [Bool.or_eq_true, Bool.and_eq_true, beq_iff_eq, decide_eq_true_eq] at h
  rcases h with (hdigit | rfl) | ⟨hlow, hhigh⟩
  · simp [isComponentChar, Char.isAlphanum, hdigit]
  · rfl
  · have hlower : c.isLower = true := by
      have hz : c ≤ 'z' := le_trans hhigh (by decide)
      simp [Char.isLower]
      exact ⟨hlow, hz⟩
    simp [isComponentChar, Char.isAlphanum, Char.isAlpha, hlower]

theorem IsUuid.isComponent {text : String} (h : IsUuid text) : isComponent text := by
  have hall : text.toList.all isComponentChar = true :=
    List.all_eq_true.mpr fun c hc => isComponentChar_of_uuid (List.all_eq_true.mp h.2 c hc)
  have hempty : text.isEmpty = false := by
    rw [Bool.eq_false_iff]
    intro hempty
    have hlength := h.1
    rw [String.isEmpty_iff.mp hempty] at hlength
    exact absurd hlength (by decide)
  simp [Wire.isComponent, hall, hempty]

theorem IsUuid.utf16Length_le {text : String} (h : IsUuid text) : utf16Length text ≤ 128 := by
  have hsum (chars : List Char) :
      (chars.map fun c => if c.toNat < 65536 then 1 else 2).sum ≤ 2 * chars.length := by
    induction chars with
    | nil => simp
    | cons c chars ih =>
        simp only [List.map_cons, List.sum_cons, List.length_cons]
        split <;> omega
  have hlength := hsum text.toList
  rw [String.length_toList, h.1] at hlength
  exact hlength.trans (by decide)

/-! ## Identities -/

theorem ActorKey.validate_eq_ok {actor : ActorKey} (h : actor.validate = .ok ()) :
    isComponent actor.projectId ∧ actor.projectId.utf8ByteSize ≤ 64 ∧
      isComponent actor.actorName ∧ isComponent actor.actorId := by
  unfold DurableActors.ActorKey.validate at h
  simp only [bind, Except.bind] at h
  cases hproject : validateComponent "project ID" actor.projectId 64 with
  | error message => simp [hproject] at h
  | ok =>
      cases hname : validateComponent "actor name" actor.actorName 48 with
      | error message => simp [hproject, hname] at h
      | ok =>
          cases hid : validateComponent "actor ID" actor.actorId 128 with
          | error message => simp [hproject, hname, hid] at h
          | ok =>
              have hproject := validateComponent_eq_ok hproject
              exact ⟨hproject.1, hproject.2, (validateComponent_eq_ok hname).1,
                (validateComponent_eq_ok hid).1⟩

theorem map_encodeKey (actor : ActorKey) : (encodeKey actor).map receive = encodeKey actor := by
  simp [encodeKey, Json.map, mapFields]

@[simp] theorem actorComponentSchema_string (text : String) :
    actorComponentSchema (.string text) = if isComponent text then some text else none := by
  simp [actorComponentSchema, asString]

/-- A validated identity is read unless its project is a relative path component. -/
theorem agrees_identity {actor : ActorKey} (h : actor.validate = .ok ()) :
    Agrees (actorIdentitySchema ((encodeKey actor).map receive)) id actor ↔
      PortableActor actor := by
  obtain ⟨hproject, hbytes, hname, hid⟩ := ActorKey.validate_eq_ok h
  have hlength : utf16Length actor.projectId ≤ 64 := (utf16Length_le _).trans hbytes
  rw [map_encodeKey]
  by_cases hportable : PortableActor actor
  · simp [actorIdentitySchema, encodeKey, asObject, projectIdSchema, hproject, hlength,
      hportable.1, hportable.2, hname, hid, hportable, Agrees, guard]
  · have hrelative : ¬ (utf16Length actor.projectId ≤ 64 ∧ actor.projectId ≠ "." ∧
        actor.projectId ≠ "..") := fun hsafe => hportable hsafe.2
    simp [actorIdentitySchema, encodeKey, asObject, projectIdSchema, hproject, hrelative,
      hportable, Agrees, guard]

/-! ## Connections -/

theorem map_strings (texts : List String) :
    mapItems receive (texts.map .string) = texts.map .string := by
  simp [mapItems_eq_map, Json.map]

/-- A loop of checks passes when every check does. -/
theorem forM_eq_ok {α : Type} {check : α → Except Error Unit} {items : List α} :
    items.forM check = .ok () ↔ ∀ item ∈ items, check item = .ok () := by
  rw [List.forM_eq_forM]
  induction items with
  | nil => simp [pure, Except.pure]
  | cons item items ih =>
      rw [List.forM_cons, List.forall_mem_cons, ← ih]
      cases hitem : check item with
      | error message => simp [bind, Except.bind]
      | ok => simp [bind, Except.bind]

theorem validateSocketTags_eq_ok {tags : List String} (h : validateSocketTags tags = .ok ()) :
    tags.length ≤ 128 ∧ (∀ tag ∈ tags, tag ≠ "") ∧
      (tags.map String.utf8ByteSize).sum ≤ 8 * 1024 := by
  unfold validateSocketTags at h
  simp only [bind, Except.bind, throw, throwThe, MonadExceptOf.throw, pure, Except.pure] at h
  split at h
  · cases h
  rename_i hlength
  split at h
  · cases h
  rename_i _ hloop
  have htags := forM_eq_ok.mp hloop
  split at h
  · cases h
  rename_i hbytes
  refine ⟨not_lt.mp hlength, fun tag htag hempty => ?_, not_lt.mp hbytes⟩
  have hcheck := htags tag htag
  simp [hempty] at hcheck

theorem utf16Length_pos {text : String} (h : text ≠ "") : 1 ≤ utf16Length text := by
  have hne : text.toList ≠ [] := fun hnil => h (String.toList_eq_nil_iff.mp hnil)
  obtain ⟨c, chars, hchars⟩ := List.exists_cons_of_ne_nil hne
  simp only [utf16Length, hchars, List.map_cons, List.sum_cons]
  split <;> omega

/-- Validated tags are read when they are short in UTF-16. -/
theorem agrees_tags {tags : List String} (h : validateSocketTags tags = .ok ()) :
    Agrees (socketTagsSchema (.array (tags.map .string))) id tags ↔
      ∀ tag ∈ tags, utf16Length tag ≤ 256 := by
  obtain ⟨hcount, hne, hbytes⟩ := validateSocketTags_eq_ok h
  have htag (tag : String) (htag : tag ∈ tags) :
      Agrees (socketTagSchema (.string tag)) id tag ↔ utf16Length tag ≤ 256 := by
    have hpos := utf16Length_pos (hne tag htag)
    by_cases hshort : utf16Length tag ≤ 256 <;>
      simp [socketTagSchema, asString, hpos, hshort, Agrees]
  have hitems := agrees_mapM socketTagSchema id .string id tags
  rw [List.map_id, List.map_id_fun] at hitems
  have hlist : Agrees ((tags.map .string).mapM socketTagSchema) id tags ↔
      ∀ tag ∈ tags, utf16Length tag ≤ 256 :=
    hitems.trans (forall₂_congr htag)
  rw [← hlist]
  constructor
  · rintro ⟨value, hvalue, hseen⟩
    exact ⟨value, (refine_eq_some.mp hvalue).1, hseen⟩
  · rintro ⟨value, hvalue, rfl⟩
    exact ⟨value, refine_eq_some.mpr ⟨hvalue, hcount, hbytes⟩, rfl⟩

/-- An accepted connection is read when it is portable. -/
theorem agrees_connection {hostBytes : Number → Nat} (jsBytes : Double → Nat)
    {connection : Connection Number} (h : Accepted hostBytes connection) :
    Agrees (socketConnectionSchema jsBytes (connection.encode.map receive))
        (Connection.map jsValue) (connection.map hostValue) ↔
      PortableConnection jsBytes connection := by
  have htags := agrees_tags h.tags
  have hjson := agrees_json connection.metadata
  have hid := h.id.isComponent
  have hidLength := h.id.utf16Length_le
  have hdocument : connection.encode.map receive = .object [("id", .string connection.id),
      ("metadata", connection.metadata.map receive),
      ("tags", .array (connection.tags.map .string))] := by
    simp [Connection.encode, Json.map, mapFields, map_strings]
  rw [hdocument]
  simp only [socketConnectionSchema, asObject, Option.bind_eq_bind, Option.bind_some,
    field_cons_self, field_cons_of_ne, ne_eq, String.reduceEq, not_false_eq_true,
    socketConnectionIdSchema, actorComponentSchema_string, hid, if_true, refine_some, hidLength,
    Agrees, Option.bind_eq_some_iff, Option.pure_def, Option.some.injEq]
  constructor
  · rintro ⟨_, ⟨metadata, hmetadata, tags, htagsRead, rfl⟩, hseen⟩
    simp only [Connection.map, Connection.mk.injEq, true_and] at hseen
    obtain ⟨hread, hbytes⟩ := refine_eq_some.mp hmetadata
    refine ⟨hjson.mp ⟨metadata, hread, hseen.1⟩, ?_, htags.mp ⟨tags, htagsRead, hseen.2⟩⟩
    cases hread
    exact hbytes
  · rintro ⟨hmetadata, hbytes, hshort⟩
    obtain ⟨metadata, hread, hsame⟩ := hjson.mpr hmetadata
    obtain ⟨tags, htagsRead, hsameTags⟩ := htags.mpr hshort
    refine ⟨_, ⟨metadata, refine_eq_some.mpr ⟨hread, ?_⟩, tags, htagsRead, rfl⟩, ?_⟩
    · cases hread
      exact hbytes
    · simpa [Connection.map, hsame] using hsameTags

theorem map_encode_connections (connections : List (Connection Number)) :
    mapItems receive (connections.map Connection.encode) =
      connections.map fun connection => connection.encode.map receive := by
  simp [mapItems_eq_map]

theorem agrees_connections {hostBytes : Number → Nat} (jsBytes : Double → Nat)
    {connections : List (Connection Number)}
    (h : ∀ connection ∈ connections, Accepted hostBytes connection) :
    Agrees (asArray (socketConnectionSchema jsBytes)
        (.array (mapItems receive (connections.map Connection.encode))))
        (List.map (Connection.map jsValue)) (connections.map (Connection.map hostValue)) ↔
      ∀ connection ∈ connections, PortableConnection jsBytes connection := by
  rw [map_encode_connections, asArray, agrees_mapM]
  exact forall₂_congr fun connection hmem => agrees_connection jsBytes (h connection hmem)

/-! ## Events -/

/-- What is known of an event that reaches a handler. -/
inductive AcceptedEvent (hostBytes : Number → Nat) : Event Number → Prop
  | connect {connection} : Accepted hostBytes connection →
      AcceptedEvent hostBytes (.connect connection)
  | message {connectionId data} : IsUuid connectionId → data.utf8ByteSize ≤ maxSocketMessageBytes →
      AcceptedEvent hostBytes (.message connectionId (.text data))
  | disconnect {connection code reason wasClean} : Accepted hostBytes connection → code < 65536 →
      AcceptedEvent hostBytes (.disconnect connection code reason wasClean)

theorem agrees_event {hostBytes : Number → Nat} (jsBytes : Double → Nat) {event : Event Number}
    (h : AcceptedEvent hostBytes event) :
    Agrees (socketEventSchema jsBytes (event.encode.map receive)) (Event.map jsValue)
        (event.map hostValue) ↔ PortableEvent jsBytes event := by
  cases h with
  | connect hconnection =>
      rw [PortableEvent, ← agrees_connection jsBytes hconnection]
      simp [socketEventSchema, Event.encode, Json.map, mapFields, asObject, asString, Agrees,
        Option.bind_eq_some_iff, Event.map]
  | message hid hbytes =>
      simp [socketEventSchema, Event.encode, Json.map, mapFields, asObject, asString, Agrees,
        PortableEvent, hid.isComponent, encodeMessage, socketMessageSchema, socketTextSchema,
        hbytes, Event.map]
  | disconnect hconnection hcode =>
      rw [PortableEvent, ← agrees_connection jsBytes hconnection]
      have hnatural := naturalSchema_natural (hcode.le.trans (by decide +kernel))
      simp [socketEventSchema, Event.encode, Json.map, mapFields, asObject, asString, asBoolean,
        Agrees, Option.bind_eq_some_iff, Event.map, hnatural, Nat.le_of_lt_succ hcode]

/-! ## Commands -/

/-- What the validators say about a command. -/
inductive AcceptedCommand (hostBytes : Number → Nat) : Command Number → Prop
  | hydrate {actor} : actor.validate = .ok () → AcceptedCommand hostBytes (.hydrate actor)
  | invoke {requestId actor method args} : actor.validate = .ok () → isComponent method →
      AcceptedCommand hostBytes (.invoke requestId actor method args)
  | websocketEvent {requestId actor event connections} : IsUuid requestId →
      actor.validate = .ok () → AcceptedEvent hostBytes event →
      (∀ connection ∈ connections, Accepted hostBytes connection) →
      AcceptedCommand hostBytes (.websocketEvent requestId actor event connections)
  | evict {actor} : actor.validate = .ok () → AcceptedCommand hostBytes (.evict actor)

theorem agrees_args (args : List (Json Number)) :
    Agrees (asArray jsonValueSchema (.array (mapItems receive args))) (List.map (Json.map jsValue))
        (args.map (Json.map hostValue)) ↔ ∀ arg ∈ args, PortableJson arg := by
  rw [mapItems_eq_map, asArray, agrees_mapM]
  exact forall₂_congr fun arg _ => agrees_json arg

/-- The command of an envelope is read from its own fields. -/
theorem agrees_command {hostBytes : Number → Nat} (jsBytes : Double → Nat)
    {command : Command Number} (h : AcceptedCommand hostBytes command)
    (others : List (String × Json Double)) :
    ∃ type fields, mapFields receive command.fields = ("type", .string type) :: fields ∧
      (type = "evict" ↔ ∃ actor, command = .evict actor) ∧
      (∀ other ∈ ["state", "resident_only"], ∀ field ∈ fields, field.1 ≠ other) ∧
      (Agrees (commandSchema jsBytes type (("type", .string type) :: (fields ++ others)))
        (Command.map jsValue) (command.map hostValue) ↔ PortableCommand jsBytes command) := by
  cases h with
  | hydrate hactor =>
      refine ⟨"hydrate", [("actor", (encodeKey _).map receive)], rfl, by simp, by simp, ?_⟩
      rw [PortableCommand, ← agrees_identity hactor]
      simp [commandSchema, Agrees, Option.bind_eq_some_iff, Command.map]
  | evict hactor =>
      refine ⟨"evict", [("actor", (encodeKey _).map receive)], rfl, by simp, by simp, ?_⟩
      rw [PortableCommand, ← agrees_identity hactor]
      simp [commandSchema, Agrees, Option.bind_eq_some_iff, Command.map]
  | @invoke requestId actor method args hactor hmethod =>
      refine ⟨"invoke", [("request_id", .string requestId), ("actor", (encodeKey actor).map receive),
        ("method", .string method), ("args", .array (mapItems receive args))], rfl, by simp,
        by simp, ?_⟩
      rw [PortableCommand, ← agrees_identity hactor, ← agrees_args]
      by_cases hid : isComponent requestId
      · simp [commandSchema, Agrees, Option.bind_eq_some_iff, Command.map, hmethod, hid]
      · simp [commandSchema, Agrees, hid]
  | @websocketEvent requestId actor event connections hid hactor hevent hconnections =>
      refine ⟨"websocket_event", [("request_id", .string requestId),
        ("actor", (encodeKey actor).map receive), ("event", event.encode.map receive),
        ("connections", .array (mapItems receive (connections.map Connection.encode)))], rfl, by simp,
        by simp, ?_⟩
      rw [PortableCommand, ← agrees_identity hactor, ← agrees_event jsBytes hevent,
        ← agrees_connections jsBytes hconnections]
      simp [commandSchema, Agrees, Option.bind_eq_some_iff, Command.map, hid.isComponent]
      constructor
      · rintro ⟨_, _, ⟨hidentity, hread, hreads⟩, hsame, hsames⟩
        exact ⟨hidentity, ⟨_, hread, hsame⟩, _, hreads, hsames⟩
      · rintro ⟨hidentity, ⟨_, hread, hsame⟩, _, hreads, hsames⟩
        exact ⟨_, _, ⟨hidentity, hread, hreads⟩, hsame, hsames⟩

/-- An optional state is read when it is portable. -/
theorem agrees_state (state : Option (Json Number)) (residentOnly : Bool) :
    Agrees (optionalField (mapFields receive (skipNone "state" state ++
        [("resident_only", .boolean residentOnly)])) "state" jsonValueSchema)
        (Option.map (Json.map jsValue)) (state.map (Json.map hostValue)) ↔
      ∀ document ∈ state, PortableJson document := by
  cases state with
  | none => simp [skipNone, mapFields, Agrees]
  | some document =>
      have hjson := agrees_json document
      simp only [jsonValueSchema, agrees_some] at hjson
      simp [skipNone, mapFields, Agrees, jsonValueSchema, hjson]

theorem optionalField_residentOnly (state : Option (Json Number)) (residentOnly : Bool) :
    optionalField (mapFields receive (skipNone "state" state ++
        [("resident_only", .boolean residentOnly)])) "resident_only" asBoolean =
      some (some residentOnly) := by
  cases state <;> simp [skipNone, mapFields, Json.map, asBoolean]

theorem agrees_envelope {hostBytes : Number → Nat} (jsBytes : Double → Nat)
    {envelope : Envelope Number} (h : AcceptedCommand hostBytes envelope.command)
    (hevict : ∀ actor, envelope.command = .evict actor →
      envelope.state = none ∧ envelope.residentOnly = false) :
    Agrees (executorCommandSchema jsBytes (envelope.encode.map receive)) (Envelope.map jsValue)
        (envelope.map hostValue) ↔
      PortableCommand jsBytes envelope.command ∧ ∀ state ∈ envelope.state, PortableJson state := by
  obtain ⟨command, state, residentOnly⟩ := envelope
  obtain ⟨type, fields, hfields, htype, hothers, hcommand⟩ := agrees_command jsBytes h
    (mapFields receive (skipNone "state" state ++ [("resident_only", .boolean residentOnly)]))
  have hstate := agrees_state state residentOnly
  have hflag := optionalField_residentOnly state residentOnly
  have hdocument : (Envelope.mk command state residentOnly).encode.map receive =
      .object (("type", .string type) :: (fields ++ mapFields receive
        (skipNone "state" state ++ [("resident_only", .boolean residentOnly)]))) := by
    simp [Envelope.encode, Json.map, mapFields_append, hfields]
  rw [hdocument]
  dsimp only
  rw [← hcommand, ← hstate]
  generalize mapFields receive (skipNone "state" state ++
    [("resident_only", .boolean residentOnly)]) = others at *
  by_cases hisEvict : type = "evict"
  · obtain ⟨actor, rfl⟩ := htype.mp hisEvict
    obtain ⟨rfl, rfl⟩ := hevict actor rfl
    have hnone := hstate.mpr (by simp)
    simp [executorCommandSchema, asObject, asString, hisEvict, Agrees, Envelope.map,
      Option.bind_eq_some_iff] at hnone ⊢
    simp [hnone]
  · have hskipState : optionalField (fields ++ others) "state" jsonValueSchema =
        optionalField others "state" jsonValueSchema :=
      optionalField_append (hothers "state" (by simp))
    have hskipFlag : optionalField (fields ++ others) "resident_only" asBoolean =
        optionalField others "resident_only" asBoolean :=
      optionalField_append (hothers "resident_only" (by simp))
    simp [executorCommandSchema, asObject, asString, hisEvict, Agrees, Envelope.map,
      Option.bind_eq_some_iff, hskipState, hskipFlag, hflag]
    constructor
    · rintro ⟨_, hread, _, hreadState, hsame, hsameState⟩
      exact ⟨⟨_, hread, hsame⟩, _, hreadState, hsameState⟩
    · rintro ⟨⟨_, hread, hsame⟩, _, hreadState, hsameState⟩
      exact ⟨_, hread, _, hreadState, hsame, hsameState⟩

/-! ## Reachable registries -/

section Reachable

variable {hostBytes : Number → Nat}

theorem validateSocketTags_nil : validateSocketTags [] = .ok () := rfl

theorem accepted_update {registry : Registry} {connectionId : String}
    {change : RegisteredSocket → RegisteredSocket}
    (h : ∀ socket ∈ registry, Accepted hostBytes socket.connection)
    (hchange : ∀ socket, Accepted hostBytes socket.connection →
      Accepted hostBytes (change socket).connection) :
    ∀ socket ∈ registry.update connectionId change, Accepted hostBytes socket.connection := by
  intro socket hsocket
  obtain ⟨before, hbefore, rfl⟩ := List.mem_map.mp hsocket
  split
  · exact hchange before (h before hbefore)
  · exact h before hbefore

/-- Every connection of the registry passed the validators. -/
theorem accepted_of_reachable {registry : Registry} (h : ReachableRegistry hostBytes registry) :
    ∀ socket ∈ registry, Accepted hostBytes socket.connection := by
  induction h with
  | empty => simp
  | @connect registry id metadata _ hid hmetadata ih =>
      intro socket hsocket
      unfold Registry.insert at hsocket
      split at hsocket
      · exact ih socket hsocket
      · rcases List.mem_append.mp hsocket with hsocket | hsocket
        · exact ih socket hsocket
        · obtain rfl := List.mem_singleton.mp hsocket
          exact ⟨hid, hmetadata, validateSocketTags_nil⟩
  | setMetadata _ hmetadata ih =>
      exact accepted_update ih fun _ haccepted => ⟨haccepted.id, hmetadata, haccepted.tags⟩
  | setTags _ htags ih =>
      exact accepted_update ih fun _ haccepted => ⟨haccepted.id, haccepted.metadata, htags⟩
  | activate _ ih => exact accepted_update ih fun _ haccepted => haccepted
  | remove _ ih => exact fun socket hsocket => ih socket (List.mem_of_mem_filter hsocket)

theorem accepted_connections {registry : Registry} (h : ReachableRegistry hostBytes registry) :
    ∀ connection ∈ registry.connections, Accepted hostBytes connection := by
  intro connection hconnection
  obtain ⟨socket, hsocket, rfl⟩ := List.mem_map.mp hconnection
  exact accepted_of_reachable h socket (List.mem_of_mem_filter hsocket)

theorem accepted_find {registry : Registry} (h : ReachableRegistry hostBytes registry)
    {connection : Connection Number} (hconnection : Accepted hostBytes connection)
    (connectionId : String) :
    Accepted hostBytes ((registry.find connectionId).getD connection) := by
  unfold Registry.find
  cases hfind : registry.find? fun socket => socket.connection.id = connectionId with
  | none => exact hconnection
  | some socket => exact accepted_of_reachable h socket (List.mem_of_find?_eq_some hfind)

theorem SessionEvent.accepted {event : Event Number} (h : SessionEvent hostBytes event) :
    AcceptedEvent hostBytes event := by
  cases h with
  | connect hid hmetadata => exact .connect ⟨hid, hmetadata, validateSocketTags_nil⟩
  | message hid hbytes => exact .message hid hbytes
  | disconnect hid hmetadata htags hregistry hcode =>
      exact .disconnect (accepted_find hregistry
        ⟨hid, hmetadata, by rw [htags]; exact validateSocketTags_nil⟩ _) hcode

/-- The event and the connections that a handler gets passed the validators. -/
theorem accepted_prepareEvent {registry : Registry} (h : ReachableRegistry hostBytes registry)
    {event : Event Number} (hevent : AcceptedEvent hostBytes event) :
    AcceptedEvent hostBytes (registry.prepareEvent event).1 ∧
      ∀ connection ∈ (registry.prepareEvent event).2, Accepted hostBytes connection := by
  cases hevent with
  | connect hconnection =>
      refine ⟨.connect hconnection, fun connection hmem => ?_⟩
      rcases List.mem_append.mp hmem with hmem | hmem
      · exact accepted_connections h connection hmem
      · obtain rfl := List.mem_singleton.mp hmem
        exact hconnection
  | message hid hbytes => exact ⟨.message hid hbytes, accepted_connections h⟩
  | disconnect hconnection hcode =>
      exact ⟨.disconnect (accepted_find h hconnection _) hcode, accepted_connections h.remove⟩

end Reachable

/-! ## Messages -/

theorem ActorInvocation.validate_eq_ok {requestId method : String} {actor : ActorKey}
    (h : ActorInvocation.validate { requestId, actor, method, args := [] } = .ok ()) :
    actor.validate = .ok () ∧ isComponent method := by
  unfold DurableActors.ActorInvocation.validate at h
  simp only [bind, Except.bind, throw, throwThe, MonadExceptOf.throw] at h
  split at h
  · cases h
  split at h
  · cases h
  split at h
  · cases h
  rename_i hactor
  exact ⟨hactor, (validateComponent_eq_ok h).1⟩

section Readings

variable (f : Number → Double)

theorem optionalField_error (error : Option String) :
    optionalField (mapFields f (skipNone "error" (error.map .string))) "error" asString =
      some error := by
  cases error <;> simp [skipNone, mapFields, Json.map, asString]

theorem parse_published (jsBytes : Double → Nat) (messageId : Nat) (error : Option String) :
    parseActorSessionServerMessage jsBytes
        ((ServerMessage.socketEffectsPublished messageId error).encode.map f) =
      (naturalSchema ((natural messageId).map f)).bind fun messageId =>
        some (.socketEffectsPublished messageId error) := by
  simp [parseActorSessionServerMessage, ServerMessage.encode, Json.map, mapFields, asObject,
    asString, optionalField_error]

theorem parse_socketConnections (jsBytes : Double → Nat) (messageId : Nat)
    (connections : List (Connection Number)) (error : Option String) :
    parseActorSessionServerMessage jsBytes
        ((ServerMessage.socketConnections messageId connections error).encode.map f) =
      (naturalSchema ((natural messageId).map f)).bind fun messageId =>
        (asArray (socketConnectionSchema jsBytes)
          (.array (mapItems f (connections.map Connection.encode)))).bind fun connections =>
            some (.socketConnections messageId connections error) := by
  simp [parseActorSessionServerMessage, ServerMessage.encode, Json.map, mapFields, asObject,
    asString, optionalField_error]

theorem parse_command (jsBytes : Double → Nat) (messageId : Nat) (envelope : Envelope Number) :
    parseActorSessionServerMessage jsBytes
        ((ServerMessage.command messageId envelope).encode.map f) =
      (naturalSchema ((natural messageId).map f)).bind fun messageId =>
        (executorCommandSchema jsBytes (envelope.encode.map f)).bind fun envelope =>
          some (.command messageId envelope) := by
  simp [parseActorSessionServerMessage, ServerMessage.encode, Json.map, mapFields, asObject,
    asString]

end Readings

theorem agrees_attached (jsBytes : Double → Nat) :
    Agrees (parseActorSessionServerMessage jsBytes ((ServerMessage.attached true 18).encode.map
      receive)) (ServerMessage.map jsValue) ((ServerMessage.attached true 18).map hostValue) := by
  have hprotocol := naturalSchema_natural (n := 18) (by decide +kernel)
  simp [parseActorSessionServerMessage, ServerMessage.encode, Json.map, mapFields, asObject,
    asString, asBoolean, hprotocol, Agrees, ServerMessage.map]

theorem agrees_published (jsBytes : Double → Nat) (messageId : Nat) (error : Option String) :
    Agrees (parseActorSessionServerMessage jsBytes
        ((ServerMessage.socketEffectsPublished messageId error).encode.map receive))
        (ServerMessage.map jsValue)
        ((ServerMessage.socketEffectsPublished messageId error).map hostValue) ↔
      messageId ≤ maxSafeInteger := by
  rw [parse_published, ← agrees_natural]
  exact agrees_bind fun _ => by simp [ServerMessage.map]

theorem agrees_socketConnections (hostBytes : Number → Nat) (jsBytes : Double → Nat)
    (messageId : Nat) {connections : List (Connection Number)}
    (h : ∀ connection ∈ connections, Accepted hostBytes connection) (error : Option String) :
    Agrees (parseActorSessionServerMessage jsBytes
        ((ServerMessage.socketConnections messageId connections error).encode.map receive))
        (ServerMessage.map jsValue)
        ((ServerMessage.socketConnections messageId connections error).map hostValue) ↔
      messageId ≤ maxSafeInteger ∧ ∀ connection ∈ connections, PortableConnection jsBytes connection := by
  rw [parse_socketConnections, ← agrees_natural, ← agrees_connections jsBytes h]
  exact agrees_bind₂ fun _ _ => by simp [ServerMessage.map]

theorem agrees_commandMessage (hostBytes : Number → Nat) (jsBytes : Double → Nat)
    (messageId : Nat) {envelope : Envelope Number}
    (h : AcceptedCommand hostBytes envelope.command)
    (hevict : ∀ actor, envelope.command = .evict actor →
      envelope.state = none ∧ envelope.residentOnly = false) :
    Agrees (parseActorSessionServerMessage jsBytes
        ((ServerMessage.command messageId envelope).encode.map receive))
        (ServerMessage.map jsValue) ((ServerMessage.command messageId envelope).map hostValue) ↔
      Portable jsBytes (.command messageId envelope) := by
  rw [parse_command, Portable, ← agrees_envelope jsBytes h hevict, ← agrees_natural]
  exact agrees_bind₂ fun _ _ => by simp [ServerMessage.map]

/-- A message that the host can send is read by the JavaScript side as it was sent exactly when it is
portable: safe message IDs, no relative project ID, a request ID of component characters, documents
whose numbers are doubles and that have no field named {lit}`__proto__`, and connections whose metadata
and tags fit JavaScript's measures. -/
theorem javascript_accepts_iff (hostBytes : Number → Nat) (jsBytes : Double → Nat)
    {message : ServerMessage Number} {document : Json Number} (h : Sendable hostBytes message)
    (hencoded : encodeServerMessage hostBytes message = .ok document) :
    Agrees (parseActorSessionServerMessage jsBytes (document.map receive))
        (ServerMessage.map jsValue) (message.map hostValue) ↔ Portable jsBytes message := by
  have hdocument : document = message.encode := by
    unfold encodeServerMessage at hencoded
    split at hencoded
    · cases hencoded
    · exact (Except.ok.inj hencoded).symm
  subst hdocument
  cases h with
  | attached => exact iff_of_true (agrees_attached jsBytes) trivial
  | published => exact agrees_published jsBytes _ _
  | connections hregistry =>
      exact agrees_socketConnections hostBytes jsBytes _ (accepted_connections hregistry) none
  | connectionsError =>
      exact agrees_socketConnections hostBytes jsBytes _ (by simp) _
  | invoke hinvocation =>
      obtain ⟨hactor, hmethod⟩ := ActorInvocation.validate_eq_ok hinvocation
      exact agrees_commandMessage hostBytes jsBytes _ (.invoke hactor hmethod) nofun
  | websocketEvent hid hactor hevent hregistry =>
      obtain ⟨hprepared, hconnections⟩ := accepted_prepareEvent hregistry hevent.accepted
      exact agrees_commandMessage hostBytes jsBytes _ (.websocketEvent hid hactor hprepared hconnections) nofun
  | hydrate hactor => exact agrees_commandMessage hostBytes jsBytes _ (.hydrate hactor) nofun
  | evict hactor =>
      exact agrees_commandMessage hostBytes jsBytes _ (.evict hactor) fun _ _ => ⟨rfl, rfl⟩

/-- An invocation with the given request ID. -/
def sampleInvocation (requestId : String) : ServerMessage Number :=
  .command 1
    { command := .invoke requestId { projectId := "p", actorName := "A", actorId := "a" } "m" []
      state := some .null
      residentOnly := false }

theorem javascript_accepts_of_component :
    Agrees (parseActorSessionServerMessage (fun _ => 1) ((sampleInvocation "r").encode.map receive))
        (ServerMessage.map jsValue) ((sampleInvocation "r").map hostValue) ↔
      Portable (fun _ => 1) (sampleInvocation "r") := by
  have hsendable : Sendable (fun _ => 1) (sampleInvocation "r") := .invoke (by decide +kernel)
  refine javascript_accepts_iff (fun _ => 1) (fun _ => 1) hsendable (if_neg ?_)
  decide +kernel

/-- The HTTP endpoint accepts a request ID with a blank, and the JavaScript side rejects the command
that the host sends for it. -/
theorem javascript_rejects_request_id :
    Sendable (fun _ => 1) (sampleInvocation "a b") ∧
      encodeServerMessage (fun _ => 1) (sampleInvocation "a b") =
        .ok (sampleInvocation "a b").encode ∧
      (parseActorSessionServerMessage (fun _ => 1)
        ((sampleInvocation "a b").encode.map receive)).isNone = true := by
  refine ⟨.invoke (by decide +kernel), if_neg ?_, ?_⟩
  · decide +kernel
  · decide +kernel

end Wire
end DurableActors
