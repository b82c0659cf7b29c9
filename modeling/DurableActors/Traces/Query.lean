import DurableActors.Actor.Protocol

/-!
# Trace queries, cursors and pages

The records of {lit}`request_traces.rs`, the queries of {lit}`request_traces/history.rs` and
{lit}`request_traces/replay.rs`, and the cursors and pages of
{lit}`request_traces/persistence/cursor.rs`.

A cursor travels as the base64 text of its JSON text.  A text is kept as far as the store looks
into it: its length, and what it decodes to as either kind of cursor.

Durations are finite numbers of any linearly ordered type.
-/

namespace DurableActors
namespace Traces

/-! ## Records -/

/-- The kind of a request. -/
inductive RequestKind
  | method
  | websocket
deriving DecidableEq

/-- How a request ended. -/
inductive RequestOutcome
  | completed
  | failed
  | rejected
  | rerouted
  | interrupted
deriving DecidableEq

/-- {lit}`RequestOutcome::as_str`. -/
def RequestOutcome.asStr : RequestOutcome → String
  | completed => "completed"
  | failed => "failed"
  | rejected => "rejected"
  | rerouted => "rerouted"
  | interrupted => "interrupted"

/-- The trace of one request.  Metadata is its JSON text. -/
structure RequestTrace (ν : Type) where
  stateVersion : Option Nat
  projectId : String
  requestId : String
  actorName : String
  actorId : String
  kind : RequestKind
  operation : String
  connectionId : Option String
  startedAtMs : Nat
  durationMs : ν
  queueWaitMs : Option ν
  outcome : RequestOutcome
  metadata : Option String
deriving DecidableEq

/-- {lit}`TRACE_CAPACITY`. -/
def traceCapacity : Nat := 500

/-- {lit}`TRACE_METADATA_LIMIT`. -/
def traceMetadataLimit : Nat := 4096

/-- {lit}`ensure!`. -/
def ensure (condition : Prop) [Decidable condition] (message : Error) : Except Error Unit :=
  if condition then .ok () else .error message

@[simp] theorem ensure_eq_ok {condition : Prop} [Decidable condition] {message : Error} :
    ensure condition message = .ok () ↔ condition := by
  rw [ensure]
  split <;> simp [*]

theorem bind_eq_ok {α : Type} {check : Except Error Unit} {rest : Except Error α} {value : α} :
    (do check; rest) = .ok value ↔ check = .ok () ∧ rest = .ok value := by
  cases check <;> simp [bind, Except.bind]

/-- {lit}`RequestTrace::validate`.  The time at which a request started is not checked. -/
def RequestTrace.validate {ν : Type} [Zero ν] [LE ν] [DecidableLE ν] (trace : RequestTrace ν) :
    Except Error Unit := do
  ActorKey.validate ⟨trace.projectId, trace.actorName, trace.actorId⟩
  ensure (trace.requestId ≠ "" ∧ trace.requestId.utf8ByteSize ≤ 256) "invalid trace request ID"
  ensure (trace.operation ≠ "" ∧ trace.operation.utf8ByteSize ≤ 256) "invalid trace operation"
  ensure (∀ id ∈ trace.connectionId, id.utf8ByteSize ≤ 256) "invalid trace connection ID"
  ensure (0 ≤ trace.durationMs) "invalid trace duration"
  ensure (∀ ms ∈ trace.queueWaitMs, 0 ≤ ms ∧ ms ≤ trace.durationMs) "invalid trace queue wait"
  ensure (∀ metadata ∈ trace.metadata, metadata.utf8ByteSize ≤ traceMetadataLimit)
    s!"trace metadata exceeds {traceMetadataLimit} bytes"

/-- A trace as a host reports it. -/
structure TraceEvent (ν : Type) where
  eventId : String
  hostId : String
  sessionId : String
  trace : RequestTrace ν
deriving DecidableEq

/-- A stored event with its position. -/
structure TraceRecord (ν : Type) where
  sequence : Nat
  event : TraceEvent ν
deriving DecidableEq

/-! ## Cursors -/

/-- The largest {lit}`i64`. -/
def maxI64 : Nat := 9223372036854775807

/-- The largest timestamp of queries and cursors. -/
def maxTimestamp : Nat := 9007199254740991

/-- {lit}`HistoryCursor`. -/
structure HistoryCursor where
  projectId : String
  generation : String
  watermark : Nat
  pruned : Nat
  time : Nat
  sequence : Nat
  filters : String
deriving DecidableEq

/-- {lit}`ReplayCursor`. -/
structure ReplayCursor where
  projectId : String
  generation : String
  position : Nat
deriving DecidableEq

/-- A cursor text: its length and what it decodes to. -/
structure Cursor where
  length : Nat
  history : Option HistoryCursor := none
  replay : Option ReplayCursor := none
deriving DecidableEq

/-- The length of unpadded base64. -/
def base64Length (bytes : Nat) : Nat := (4 * bytes + 2) / 3

/-- The bytes of a number in JSON. -/
def numberBytes (n : Nat) : Nat := (Nat.toDigits 10 n).length

/-- The bytes of the JSON of a history cursor: its field names and punctuation, its texts and its
numbers. -/
def HistoryCursor.bytes (cursor : HistoryCursor) : Nat :=
  83 + jsonStringBytes cursor.projectId + jsonStringBytes cursor.generation +
    numberBytes cursor.watermark + numberBytes cursor.pruned + numberBytes cursor.time +
    numberBytes cursor.sequence + jsonStringBytes cursor.filters

/-- The bytes of the JSON of a replay cursor. -/
def ReplayCursor.bytes (cursor : ReplayCursor) : Nat :=
  41 + jsonStringBytes cursor.projectId + jsonStringBytes cursor.generation +
    numberBytes cursor.position

/-- {lit}`encode` of a history cursor. -/
def HistoryCursor.encode (cursor : HistoryCursor) : Cursor :=
  { length := base64Length cursor.bytes, history := some cursor }

/-- {lit}`encode` of a replay cursor. -/
def ReplayCursor.encode (cursor : ReplayCursor) : Cursor :=
  { length := base64Length cursor.bytes, replay := some cursor }

/-! ## Queries -/

/-- {lit}`HistoryQuery`. -/
structure HistoryQuery where
  requestId : Option String := none
  connectionId : Option String := none
  actorName : Option String := none
  actorId : Option String := none
  outcome : Option RequestOutcome := none
  fromMs : Option Nat := none
  toMs : Option Nat := none
  limit : Nat := 100
  cursor : Option Cursor := none
deriving DecidableEq

/-- {lit}`HistoryQuery::validate`. -/
def HistoryQuery.validate (query : HistoryQuery) : Except Error Unit := do
  ensure (∀ id ∈ query.requestId.toList ++ query.connectionId.toList,
      id ≠ "" ∧ id.utf8ByteSize ≤ 256)
    "invalid request or connection ID"
  ensure (1 ≤ query.limit ∧ query.limit ≤ traceCapacity) "limit must be between 1 and 500"
  ensure (∀ cursor ∈ query.cursor, cursor.length ≠ 0 ∧ cursor.length ≤ 4096)
    "invalid history cursor"
  ensure (∀ ms ∈ query.fromMs.toList ++ query.toMs.toList, ms ≤ maxTimestamp) "invalid timestamp"
  ensure (∀ fromMs ∈ query.fromMs, ∀ toMs ∈ query.toMs, fromMs ≤ toMs)
    "fromMs must not exceed toMs"
  ActorKey.validate ⟨"history", query.actorName.getD "Actor", query.actorId.getD "actor"⟩

/-- A character inside a JSON string. -/
def escapeChar (c : Char) : List Char :=
  if c = '"' ∨ c = '\\' then ['\\', c]
  else if c = '\n' then ['\\', 'n']
  else if c = '\r' then ['\\', 'r']
  else if c = '\t' then ['\\', 't']
  else if c = Char.ofNat 8 then ['\\', 'b']
  else if c = Char.ofNat 12 then ['\\', 'f']
  else if c.toNat < 32 then
    ['\\', 'u', '0', '0', Nat.digitChar (c.toNat / 16), Nat.digitChar (c.toNat % 16)]
  else [c]

/-- A string in JSON. -/
def jsonString (text : String) : String :=
  String.ofList ('"' :: text.toList.flatMap escapeChar ++ ['"'])

/-- An optional value in JSON. -/
def jsonOption {α : Type} (json : α → String) : Option α → String
  | none => "null"
  | some value => json value

/-- {lit}`HistoryQuery::filter_key`. -/
def HistoryQuery.filterKey (query : HistoryQuery) : String :=
  "[" ++ ",".intercalate
    [jsonOption jsonString query.requestId, jsonOption jsonString query.connectionId,
      jsonOption jsonString query.actorName, jsonOption jsonString query.actorId,
      jsonOption (fun outcome => jsonString outcome.asStr) query.outcome,
      jsonOption Nat.repr query.fromMs, jsonOption Nat.repr query.toMs] ++ "]"

/-- {lit}`ReplayQuery`. -/
structure ReplayQuery where
  cursor : Option Cursor := none
  limit : Nat := traceCapacity
deriving DecidableEq

/-- {lit}`ReplayQuery::validate`. -/
def ReplayQuery.validate (query : ReplayQuery) : Except Error Unit := do
  ensure (1 ≤ query.limit ∧ query.limit ≤ traceCapacity) "invalid replay limit"
  ensure (∀ cursor ∈ query.cursor, cursor.length ≤ 4096) "invalid replay cursor"

/-! ## Pages -/

/-- {lit}`TracePage`, before the store adds what it dropped. -/
structure TracePage (ν : Type) where
  epoch : String
  cursor : Nat
  capacity : Nat
  evicted : Nat
  records : List (TraceRecord ν)
  nextCursor : Option Cursor
  resumeCursor : Cursor
  reset : Bool
deriving DecidableEq

/-- {lit}`Metadata`. -/
structure Metadata where
  generation : String
  head : Nat
  pruned : Nat
  evicted : Nat
deriving DecidableEq

/-- {lit}`InvalidTraceQuery`. -/
def invalidTraceQuery : Error := "Invalid or incompatible request trace query"

/-- {lit}`HistoryCursor::decode`. -/
def HistoryCursor.decode (value : Cursor) (projectId filters : String) (metadata : Metadata) :
    Except Error HistoryCursor :=
  match value.history with
  | none => .error invalidTraceQuery
  | some cursor =>
      if cursor.projectId ≠ projectId ∨ cursor.generation.isEmpty ∨
          64 < cursor.generation.utf8ByteSize ∨ maxI64 < cursor.watermark ∨
          cursor.watermark < cursor.pruned ∨ cursor.sequence = 0 ∨
          cursor.watermark < cursor.sequence ∨ maxTimestamp < cursor.time ∨
          cursor.filters ≠ filters ∨
          (cursor.generation = metadata.generation ∧
            (metadata.head < cursor.watermark ∨ metadata.pruned < cursor.pruned)) then
        .error invalidTraceQuery
      else .ok cursor

/-- {lit}`HistoryPage`. -/
structure HistoryPage where
  projectId : String
  metadata : Metadata
  filters : String
  after : Option HistoryCursor
  watermark : Nat
  reset : Bool

/-- {lit}`HistoryPage::new`. -/
def HistoryPage.new (projectId : String) (query : HistoryQuery) (metadata : Metadata) :
    Except Error HistoryPage := do
  let filters := query.filterKey
  let cursor ← query.cursor.mapM fun value =>
    HistoryCursor.decode value projectId filters metadata
  let reset := cursor.any fun cursor =>
    cursor.generation ≠ metadata.generation ∨ cursor.pruned < metadata.pruned
  let after := cursor.filter fun _ => !reset
  return {
    projectId, metadata, filters, after, reset
    watermark := after.elim metadata.head HistoryCursor.watermark }

/-- {lit}`resume_cursor`. -/
def resumeCursor (projectId generation : String) (position : Nat) : Cursor :=
  ReplayCursor.encode { projectId, generation, position }

/-- The cursor after a record of the page. -/
def HistoryPage.next {ν : Type} (page : HistoryPage) (last : TraceRecord ν) : HistoryCursor :=
  { projectId := page.projectId
    generation := page.metadata.generation
    watermark := page.watermark
    pruned := page.metadata.pruned
    time := last.event.trace.startedAtMs
    sequence := last.sequence
    filters := page.filters }

/-- {lit}`HistoryPage::finish`. -/
def HistoryPage.finish {ν : Type} (page : HistoryPage) (limit : Nat)
    (records : List (TraceRecord ν)) : TracePage ν :=
  let kept := records.take limit
  { epoch := page.metadata.generation
    cursor := page.watermark
    capacity := limit
    evicted := page.metadata.evicted
    records := kept
    nextCursor :=
      if limit < records.length then
        kept.getLast?.map fun last => (page.next last).encode
      else none
    resumeCursor := resumeCursor page.projectId page.metadata.generation page.watermark
    reset := page.reset }

/-- {lit}`ReplayPage`. -/
structure ReplayPage where
  projectId : String
  metadata : Metadata
  after : Option Nat
  reset : Bool

/-- The cursor check of {lit}`ReplayPage::new`. -/
def ReplayCursor.decode (value : Cursor) (projectId : String) (metadata : Metadata) :
    Except Error ReplayCursor :=
  match value.replay with
  | none => .error invalidTraceQuery
  | some cursor =>
      if cursor.projectId ≠ projectId ∨ maxI64 < cursor.position ∨
          (cursor.generation = metadata.generation ∧ metadata.head < cursor.position) then
        .error invalidTraceQuery
      else .ok cursor

/-- {lit}`ReplayPage::new`. -/
def ReplayPage.new (projectId : String) (query : ReplayQuery) (metadata : Metadata) :
    Except Error ReplayPage := do
  let cursor ← query.cursor.mapM fun value => ReplayCursor.decode value projectId metadata
  let reset := cursor.any fun cursor =>
    cursor.generation ≠ metadata.generation ∨ cursor.position < metadata.pruned
  return {
    projectId, metadata, reset
    after := (cursor.filter fun _ => !reset).map ReplayCursor.position }

/-- {lit}`ReplayPage::finish`. -/
def ReplayPage.finish {ν : Type} (page : ReplayPage) (limit : Nat)
    (records : List (TraceRecord ν)) : TracePage ν :=
  let more := page.after.isSome && decide (limit < records.length)
  let kept := records.take limit
  let position := if more then kept.getLast?.elim 0 TraceRecord.sequence else page.metadata.head
  let resume := Traces.resumeCursor page.projectId page.metadata.generation position
  { epoch := page.metadata.generation
    cursor := position
    capacity := limit
    evicted := page.metadata.evicted
    records := kept
    nextCursor := if more then some resume else none
    resumeCursor := resume
    reset := page.reset }

end Traces
end DurableActors
