import DurableActors.Traces.Overview
import DurableActors.ControlPlane.Contracts

/-!
# What the dashboard accepts

The dashboard checks every response of the trace store before it shows it.  {lit}`isTracePage` of
{lit}`client.ts` checks the pages of history and replay, and {lit}`queueWaitRows` of
{lit}`queue-wait.ts` the waits of each actor; one record or row that does not pass makes the whole
response unusable.

Numbers are sizes of doubles, in units of the least positive one, and survive the trip as they are.
The average of doubles is their sum from the left, rounded at each addition, divided by the count;
an average that is not finite is sent as {lit}`null`.  The order in which rows are scanned and the
order of the result are parameters.

Main results:

- Theorem {lit}`Store.Accepted.valid`: what is stored has been validated.
- Theorem {lit}`isTrace_toJson`: the records that pass.
- Theorem {lit}`isQueueWait_toJson`: the rows that pass.
- Theorem {lit}`dashboard_accepts_iff`: the responses that the dashboard accepts.
- Theorem {lit}`dashboard_refuses`: valid traces whose page and row are refused.
-/

namespace DurableActors
namespace Traces

open Numbers Rounding
open Contracts (get)

/-! ## Durations -/

/-- A double that is finite and not negative. -/
structure Duration where
  units : Nat
  exact : spacing 53 units ∣ units
  finite : units < infinite

instance : DecidableEq Duration := fun first second =>
  decidable_of_iff (first.units = second.units)
    ⟨fun h => by cases first; cases second; cases h; rfl, congrArg Duration.units⟩

theorem infinite_pos : 0 < infinite := by
  decide +kernel

instance : Zero Duration := ⟨⟨0, dvd_zero _, infinite_pos⟩⟩

instance : LE Duration := ⟨fun first second => first.units ≤ second.units⟩

instance : DecidableLE Duration := fun first second =>
  inferInstanceAs (Decidable (first.units ≤ second.units))

/-! ## Batches that were validated -/

variable {ν : Type}

/-- A trace that passed its checks, with the ID that the store gives to every event. -/
def TraceEvent.Valid [Zero ν] [LE ν] [DecidableLE ν] (event : TraceEvent ν) : Prop :=
  event.trace.validate = .ok () ∧ IsUuid event.eventId

/-- A write whose events were validated. -/
inductive Store.Accepts [Zero ν] [LE ν] [DecidableLE ν] : Store ν → Store ν → Prop
  | sqlite {store next : Sqlite ν} {batch} : (∀ entry ∈ batch, entry.2.Valid) →
      Allocated store.sequence (batch.map Prod.fst) →
      store.append batch = .ok next → Accepts (.sqlite store) (.sqlite next)
  | append {store next : Postgres ν} {batch} : (∀ entry ∈ batch, entry.1.Valid) →
      store.append batch = .ok next → Accepts (.postgres store) (.postgres next)
  | select {store : Postgres ν} {cutoff rows} : store.Oldest cutoff rows →
      Accepts (.postgres store) (.postgres { store with prunes := rows :: store.prunes })
  | delete {store : Postgres ν} {before rows after} : store.prunes = before ++ rows :: after →
      Accepts (.postgres store)
        (.postgres { store.delete rows with prunes := before ++ after })

/-- The stores that validated batches lead to. -/
def Store.Accepted [Zero ν] [LE ν] [DecidableLE ν] (store : Store ν) : Prop :=
  ∃ initial, Initial initial ∧ Relation.ReflTransGen Accepts initial store

/-- The events in a store. -/
def Store.events : Store ν → List (TraceEvent ν)
  | sqlite store => store.traces.map TraceRecord.event
  | postgres store => store.traces.map fun row => row.record.event

/-! ## Responses -/

/-- An integer. -/
def integer (n : Nat) : Json Nat := .number (n * one)

/-- A value that may be missing. -/
def nullable {α : Type} (json : α → Json Nat) : Option α → Json Nat
  | none => .null
  | some value => json value

/-- {lit}`RequestKind::as_str`. -/
def RequestKind.asStr : RequestKind → String
  | method => "method"
  | websocket => "websocket"

/-- A record as it is sent, without what the dashboard does not check. -/
def TraceRecord.toJson (record : TraceRecord Duration) : Json Nat :=
  let trace := record.event.trace
  .object
    [("sequence", integer record.sequence), ("eventId", .string record.event.eventId),
      ("hostId", .string record.event.hostId), ("sessionId", .string record.event.sessionId),
      ("projectId", .string trace.projectId), ("requestId", .string trace.requestId),
      ("actorName", .string trace.actorName), ("actorId", .string trace.actorId),
      ("kind", .string trace.kind.asStr), ("operation", .string trace.operation),
      ("connectionId", nullable .string trace.connectionId),
      ("startedAtMs", integer trace.startedAtMs), ("durationMs", .number trace.durationMs.units),
      ("queueWaitMs", nullable (fun wait => .number wait.units) trace.queueWaitMs),
      ("outcome", .string trace.outcome.asStr)]

/-- A page as it is sent, with what the store dropped and whether it failed to write, for the texts
of cursors. -/
def TracePage.toJson (text : Cursor → String) (dropped : Nat) (persistenceFailed : Bool)
    (page : TracePage Duration) : Json Nat :=
  .object
    [("epoch", .string page.epoch), ("cursor", integer page.cursor),
      ("capacity", integer page.capacity), ("evicted", integer page.evicted),
      ("dropped", integer dropped), ("persistenceFailed", .boolean persistenceFailed),
      ("records", .array (page.records.map TraceRecord.toJson)),
      ("nextCursor", nullable (fun cursor => .string (text cursor)) page.nextCursor),
      ("resumeCursor", .string (text page.resumeCursor)), ("reset", .boolean page.reset)]

/-! ## The checks of pages -/

/-- {lit}`Number.MAX_SAFE_INTEGER`. -/
def maxSafeInteger : Nat := 9007199254740991

/-- The last moment of a {lit}`Date`. -/
def maxDate : Nat := 8640000000000000

/-- A safe integer. -/
def isSafeInteger (units : Nat) : Bool :=
  units % one == 0 && units ≤ maxSafeInteger * one

/-- {lit}`nonnegativeInteger`. -/
def nonnegativeInteger : Option (Json Nat) → Bool
  | some (.number units) => isSafeInteger units
  | _ => false

/-- {lit}`typeof value === "string"`. -/
def isString : Option (Json Nat) → Bool
  | some (.string _) => true
  | _ => false

/-- A value that is {lit}`undefined` or a boolean. -/
def isOptionalBoolean : Option (Json Nat) → Bool
  | none | some (.boolean _) => true
  | _ => false

/-- {lit}`/^[A-Za-z0-9._-]\x7b1,64\x7d$/u`. -/
def isProjectId (text : String) : Bool :=
  !text.isEmpty && text.length ≤ 64 &&
    text.toList.all fun c => c.isAlphanum || c == '.' || c == '_' || c == '-'

/-- One of several texts. -/
def isOneOf (texts : List String) : Option (Json Nat) → Bool
  | some (.string text) => texts.contains text
  | _ => false

/-- {lit}`isTrace`. -/
def isTrace (value : Json Nat) : Bool :=
  (match get "projectId" value with
    | some (.string projectId) => isProjectId projectId
    | _ => false) &&
  ["requestId", "hostId", "sessionId", "actorName", "actorId", "operation"].all
    (fun name => isString (get name value)) &&
  (match get "eventId" value with
    | none => true
    | some (.string eventId) => !eventId.isEmpty
    | _ => false) &&
  nonnegativeInteger (get "sequence" value) &&
  nonnegativeInteger (get "startedAtMs" value) &&
  (match get "startedAtMs" value with
    | some (.number units) => units ≤ maxDate * one
    | _ => false) &&
  isOneOf ["method", "websocket"] (get "kind" value) &&
  isOneOf ["completed", "failed", "rejected", "rerouted", "interrupted"] (get "outcome" value) &&
  (match get "connectionId" value with
    | some .null | some (.string _) => true
    | _ => false) &&
  (match get "durationMs" value, get "queueWaitMs" value with
    | some (.number _), some .null => true
    | some (.number durationMs), some (.number queueWaitMs) => queueWaitMs ≤ durationMs
    | _, _ => false)

/-- A record up to the cursor of its page. -/
def isUpTo (cursor : Nat) (record : Json Nat) : Bool :=
  match get "sequence" record with
  | some (.number sequence) => sequence ≤ cursor
  | _ => false

/-- {lit}`isTracePage`. -/
def isTracePage (page : Json Nat) : Bool :=
  isString (get "epoch" page) &&
  ["cursor", "capacity", "evicted", "dropped"].all
    (fun name => nonnegativeInteger (get name page)) &&
  isOptionalBoolean (get "persistenceFailed" page) &&
  (match get "nextCursor" page with
    | none | some .null | some (.string _) => true
    | _ => false) &&
  (match get "resumeCursor" page with
    | none | some (.string _) => true
    | _ => false) &&
  isOptionalBoolean (get "reset" page) &&
  (match get "capacity" page, get "cursor" page, get "records" page with
    | some (.number capacity), some (.number cursor), some (.array records) =>
        0 < capacity && capacity ≤ 500 * one && records.length * one ≤ capacity &&
        records.all fun record => isTrace record && isUpTo cursor record
    | _, _, _ => false)

/-! ## Queue waits -/

/-- {lit}`QueueWaitQuery`. -/
structure QueueWaitQuery where
  fromMs : Option Nat := none
  toMs : Option Nat := none
  actorName : Option String := none

/-- {lit}`QueueWaitQuery::validate`. -/
def QueueWaitQuery.validate (query : QueueWaitQuery) : Except Error Unit :=
  HistoryQuery.validate
    { fromMs := query.fromMs, toMs := query.toMs, actorName := query.actorName }

/-- {lit}`QueueWaitRow`.  An average that is not finite is missing. -/
structure QueueWaitRow where
  actorName : String
  actorId : String
  admitted : Nat
  averageMs : Option Nat
  maxMs : Nat
deriving DecidableEq

/-- The sum of two doubles, if it is finite. -/
def sum (first second : Nat) : Option Nat :=
  let rounded := round 53 (first + second) 1
  if rounded < infinite then some rounded else none

/-- The sum of doubles, from the left. -/
def total (waits : List Nat) : Option Nat := waits.foldlM sum 0

/-- {lit}`AVG`. -/
def average (waits : List Nat) : Option Nat :=
  (total waits).map fun total => quotient total (ofNat waits.length)

/-- {lit}`MAX`. -/
def longest (waits : List Nat) : Nat := waits.foldl max 0

/-- The waits of an actor. -/
def waitsOf (traces : List (RequestTrace Duration)) (actor : String × String) : List Nat :=
  (traces.filter fun trace => trace.actorName = actor.1 && trace.actorId = actor.2).filterMap
    fun trace => trace.queueWaitMs.map Duration.units

/-- The row of an actor. -/
def queueWaitRow (traces : List (RequestTrace Duration)) (actor : String × String) :
    QueueWaitRow where
  actorName := actor.1
  actorId := actor.2
  admitted := (waitsOf traces actor).length
  averageMs := average (waitsOf traces actor)
  maxMs := longest (waitsOf traces actor)

/-- The traces that {lit}`queue_waits.sql` reads. -/
def QueueWaitQuery.selects (query : QueueWaitQuery) (trace : RequestTrace Duration) : Bool :=
  trace.queueWaitMs.isSome && trace.outcome ≠ .rerouted &&
    query.fromMs.all (fun ms => asI64 ms ≤ trace.startedAtMs) &&
    query.toMs.all (fun ms => trace.startedAtMs ≤ asI64 ms) &&
    query.actorName.all (· = trace.actorName)

/-- How a database executes the query: the order in which it scans the rows, and the order of the
result, by count and name in its collation. -/
structure Plan where
  scan : List (RequestTrace Duration) → List (RequestTrace Duration)
  scan_perm : ∀ traces, (scan traces).Perm traces
  arrange : List QueueWaitRow → List QueueWaitRow
  arrange_perm : ∀ rows, (arrange rows).Perm rows

/-- The traces of a project that the query reads, as they are scanned. -/
def Plan.admitted (plan : Plan) (table : Table Duration) (query : QueueWaitQuery) :
    List (RequestTrace Duration) :=
  plan.scan ((table.records.map fun record => record.event.trace).filter query.selects)

/-- {lit}`queue_waits.sql`. -/
def Plan.queueWaits (plan : Plan) (table : Table Duration) (query : QueueWaitQuery) :
    List QueueWaitRow :=
  let traces := plan.admitted table query
  (plan.arrange
    ((traces.map fun trace => (trace.actorName, trace.actorId)).dedup.map
      (queueWaitRow traces))).take 500

/-- {lit}`TraceStore::queue_waits`. -/
def Store.queueWaits (store : Store Duration) (plan : Plan) (projectId : String)
    (query : QueueWaitQuery) : Except Error (List QueueWaitRow) := do
  invalidUnless (validateComponent "project ID" projectId 64)
  invalidUnless query.validate
  return plan.queueWaits (store.table projectId) query

/-- A row as it is sent. -/
def QueueWaitRow.toJson (row : QueueWaitRow) : Json Nat :=
  .object
    [("actorName", .string row.actorName), ("actorId", .string row.actorId),
      ("admitted", integer row.admitted), ("averageMs", nullable .number row.averageMs),
      ("maxMs", .number row.maxMs)]

/-- {lit}`isQueueWait`. -/
def isQueueWait (row : Json Nat) : Bool :=
  isString (get "actorName" row) && isString (get "actorId" row) &&
  (match get "admitted" row with
    | some (.number admitted) => isSafeInteger admitted && 0 < admitted
    | _ => false) &&
  (match get "averageMs" row, get "maxMs" row with
    | some (.number averageMs), some (.number maxMs) => averageMs ≤ maxMs
    | _, _ => false)

/-- {lit}`queueWaitRows`. -/
def queueWaitRows : Json Nat → Except Error (List (Json Nat))
  | .array rows => if rows.all isQueueWait then .ok rows else .error "Invalid queue wait response"
  | _ => .error "Invalid queue wait response"

/-! ## What is stored has been validated -/

section

variable {store next : Sqlite ν}

theorem Sqlite.mem_insert {position : Nat} {event : TraceEvent ν} {record : TraceRecord ν}
    (h : record ∈ (store.insert position event).traces) :
    record ∈ store.traces ∨ record.event = event := by
  unfold Sqlite.insert at h
  split at h
  · exact .inl h
  · rcases List.mem_append.mp h with hold | hnew
    · exact .inl hold
    · rw [List.mem_singleton.mp hnew]
      exact .inr rfl

theorem Sqlite.mem_insertEvents {batch : List (Nat × TraceEvent ν)} {record : TraceRecord ν}
    (hok : store.insertEvents batch = .ok next) (h : record ∈ next.traces) :
    record ∈ store.traces ∨ ∃ entry ∈ batch, record.event = entry.2 := by
  induction batch generalizing store with
  | nil =>
    cases hok
    exact .inl h
  | cons entry batch ih =>
    obtain ⟨position, event⟩ := entry
    rw [Sqlite.insertEvents] at hok
    split at hok
    · cases hok
    · rcases ih hok with hinserted | ⟨later, hlater, heq⟩
      · rcases Sqlite.mem_insert hinserted with hold | heq
        · exact .inl hold
        · exact .inr ⟨_, List.mem_cons_self, heq⟩
      · exact .inr ⟨later, List.mem_cons_of_mem _ hlater, heq⟩

theorem Sqlite.mem_append {batch : List (Nat × TraceEvent ν)} {record : TraceRecord ν}
    (hok : store.append batch = .ok next) (h : record ∈ next.traces) :
    record ∈ store.traces ∨ ∃ entry ∈ batch, record.event = entry.2 := by
  unfold Sqlite.append at hok
  cases hinserted : store.insertEvents batch with
  | error error =>
    rw [hinserted] at hok
    cases hok
  | ok inserted =>
    rw [hinserted] at hok
    cases hok
    exact Sqlite.mem_insertEvents hinserted (List.mem_of_mem_filter h)

end

section

variable {store next : Postgres ν}

theorem mem_insertRows {traces : List (PostgresRow ν)} {head position : Nat}
    {events : List (TraceEvent ν × Nat)} {row : PostgresRow ν}
    (h : row ∈ (insertRows traces head position events).1) :
    row ∈ traces ∨ ∃ entry ∈ events, row.record.event = entry.1 := by
  induction events generalizing traces head position with
  | nil => exact .inl h
  | cons entry events ih =>
    obtain ⟨event, receivedAt⟩ := entry
    rw [insertRows] at h
    split at h
    · rcases ih h with hold | ⟨later, hlater, heq⟩
      · exact .inl hold
      · exact .inr ⟨later, List.mem_cons_of_mem _ hlater, heq⟩
    · rcases ih h with hinserted | ⟨later, hlater, heq⟩
      · rcases List.mem_append.mp hinserted with hold | hnew
        · exact .inl hold
        · rw [List.mem_singleton.mp hnew]
          exact .inr ⟨_, List.mem_cons_self, rfl⟩
      · exact .inr ⟨later, List.mem_cons_of_mem _ hlater, heq⟩

theorem Postgres.mem_insertEvents {projectId : String} {events : List (TraceEvent ν × Nat)}
    {row : PostgresRow ν} (hok : store.insertEvents projectId events = .ok next)
    (h : row ∈ next.traces) :
    row ∈ store.traces ∨ ∃ entry ∈ events, row.record.event = entry.1 := by
  unfold Postgres.insertEvents at hok
  dsimp only at hok
  split at hok
  · cases hok
  split at hok
  · cases hok
  cases hok
  exact mem_insertRows h

theorem Postgres.mem_append {batch : List (TraceEvent ν × Nat)} {row : PostgresRow ν}
    (hok : store.append batch = .ok next) (h : row ∈ next.traces) :
    row ∈ store.traces ∨ ∃ entry ∈ batch, row.record.event = entry.1 := by
  unfold Postgres.append at hok
  generalize (batch.map (·.1.trace.projectId)).dedup.insertionSort (· ≤ ·) = projects at hok
  induction projects generalizing store with
  | nil =>
    cases hok
    exact .inl h
  | cons projectId projects ih =>
    rw [List.foldlM_cons] at hok
    cases hinserted : store.insertEvents projectId
        (batch.filter (·.1.trace.projectId = projectId)) with
    | error error =>
      rw [hinserted] at hok
      cases hok
    | ok inserted =>
      rw [hinserted] at hok
      rcases ih hok with hold | hnew
      · rcases Postgres.mem_insertEvents hinserted hold with hold | ⟨entry, hentry, heq⟩
        · exact .inl hold
        · exact .inr ⟨entry, List.mem_of_mem_filter hentry, heq⟩
      · exact .inr hnew

end

section

variable [Zero ν] [LE ν] [DecidableLE ν] {store next : Store ν}

theorem Store.Accepts.step (h : Store.Accepts store next) : Store.Step store next := by
  cases h with
  | sqlite _ hallocated happend => exact .sqlite hallocated happend
  | append _ happend => exact .append happend
  | select hrows => exact .select hrows
  | delete hprunes => exact .delete hprunes

theorem Store.Accepted.reachable (h : store.Accepted) : store.Reachable := by
  obtain ⟨initial, hinitial, hrun⟩ := h
  refine ⟨initial, hinitial, ?_⟩
  induction hrun with
  | refl => exact .refl
  | tail _ haccepts ih => exact ih.tail haccepts.step

/-- A write adds validated events only. -/
theorem Store.Accepts.valid (h : Store.Accepts store next)
    (hstore : ∀ event ∈ store.events, event.Valid) : ∀ event ∈ next.events, event.Valid := by
  intro event hevent
  cases h with
  | sqlite hbatch _ happend =>
    obtain ⟨record, hrecord, rfl⟩ := List.mem_map.mp hevent
    rcases Sqlite.mem_append happend hrecord with hold | ⟨entry, hentry, heq⟩
    · exact hstore _ (List.mem_map_of_mem hold)
    · rw [heq]
      exact hbatch entry hentry
  | append hbatch happend =>
    obtain ⟨row, hrow, rfl⟩ := List.mem_map.mp hevent
    rcases Postgres.mem_append happend hrow with hold | ⟨entry, hentry, heq⟩
    · exact hstore _ (List.mem_map_of_mem hold)
    · rw [heq]
      exact hbatch entry hentry
  | select _ => exact hstore event hevent
  | delete _ =>
    obtain ⟨row, hrow, rfl⟩ := List.mem_map.mp hevent
    exact hstore _ (List.mem_map_of_mem (List.mem_of_mem_filter hrow))

theorem Store.Accepted.valid (h : store.Accepted) : ∀ event ∈ store.events, event.Valid := by
  obtain ⟨initial, hinitial, hrun⟩ := h
  induction hrun with
  | refl => cases hinitial <;> simp [Store.events]
  | tail _ haccepts ih => exact haccepts.valid ih

end

/-- The records of a project are among the events of the store. -/
theorem Store.mem_table {store : Store ν} {projectId : String} {record : TraceRecord ν}
    (h : record ∈ (store.table projectId).records) :
    record.event ∈ store.events ∧ record.event.trace.projectId = projectId := by
  cases store with
  | sqlite store =>
    obtain ⟨hmem, hproject⟩ := List.mem_filter.mp h
    exact ⟨List.mem_map_of_mem hmem, by simpa using hproject⟩
  | postgres store =>
    obtain ⟨row, hrow, rfl⟩ := List.mem_map.mp h
    obtain ⟨hmem, hproject⟩ := List.mem_filter.mp hrow
    exact ⟨List.mem_map.mpr ⟨row, hmem, rfl⟩, of_decide_eq_true hproject⟩

/-! ## The records that pass -/

theorem mul_one_le_iff {m n : Nat} : m * one ≤ n * one ↔ m ≤ n :=
  Nat.mul_le_mul_right_iff Numbers.one_pos

@[simp] theorem isSafeInteger_mul {n : Nat} :
    isSafeInteger (n * one) = decide (n ≤ maxSafeInteger) := by
  simp [isSafeInteger, mul_one_le_iff]

@[simp] theorem nonnegativeInteger_integer {n : Nat} :
    nonnegativeInteger (some (integer n)) = decide (n ≤ maxSafeInteger) :=
  isSafeInteger_mul

theorem RequestTrace.validate_eq_ok {trace : RequestTrace Duration}
    (h : trace.validate = .ok ()) :
    DurableActors.validateComponent "project ID" trace.projectId 64 = .ok () ∧
      ∀ ms ∈ trace.queueWaitMs, ms.units ≤ trace.durationMs.units := by
  simp only [RequestTrace.validate, bind_eq_ok, ensure_eq_ok] at h
  obtain ⟨hkey, -, -, -, -, hwait, -⟩ := h
  exact ⟨(bind_eq_ok.mp hkey).1, fun ms hms => (hwait ms hms).2⟩

/-- A valid project has the form that the dashboard expects. -/
theorem isProjectId_of_validate {projectId : String}
    (h : DurableActors.validateComponent "project ID" projectId 64 = .ok ()) :
    isProjectId projectId = true := by
  obtain ⟨hne, hsize, hall⟩ := validateComponent_ok h
  have hlength : projectId.length ≤ 64 :=
    Nat.le_trans (length_le_utf8ByteSize projectId) hsize
  simp only [isProjectId, Bool.and_eq_true, decide_eq_true_eq, List.all_eq_true]
  refine ⟨⟨by simpa using hne, hlength⟩, fun c hc => ?_⟩
  have hchar := hall c hc
  simp only [Bool.or_eq_true, beq_iff_eq]
  tauto

theorem isOneOf_kind (kind : RequestKind) :
    isOneOf ["method", "websocket"] (some (.string kind.asStr)) = true := by
  cases kind <;> rfl

theorem isOneOf_outcome (outcome : RequestOutcome) :
    isOneOf ["completed", "failed", "rejected", "rerouted", "interrupted"]
      (some (.string outcome.asStr)) = true := by
  cases outcome <;> rfl

theorem IsUuid.isEmpty_eq_false {text : String} (h : IsUuid text) : text.isEmpty = false := by
  rw [Bool.eq_false_iff]
  intro hempty
  have hsize := h.1
  rw [String.isEmpty_iff.mp hempty] at hsize
  cases hsize

/-- A stored record passes if its position is a safe integer and its time is one of a
{lit}`Date`. -/
theorem isTrace_toJson {record : TraceRecord Duration} (h : record.event.Valid) :
    isTrace record.toJson = true ↔
      record.sequence ≤ maxSafeInteger ∧ record.event.trace.startedAtMs ≤ maxDate := by
  obtain ⟨hvalidate, huuid⟩ := h
  obtain ⟨hproject, hwait⟩ := RequestTrace.validate_eq_ok hvalidate
  have hdate : maxDate ≤ maxSafeInteger := by decide
  simp only [isTrace, TraceRecord.toJson, Contracts.get, List.lookup, String.reduceBEq,
    isProjectId_of_validate hproject, isString, List.all_cons, List.all_nil,
    huuid.isEmpty_eq_false, nonnegativeInteger_integer, isOneOf_kind, isOneOf_outcome,
    Bool.true_and, Bool.not_false, Bool.and_true]
  cases hms : record.event.trace.queueWaitMs with
  | none =>
    cases record.event.trace.connectionId <;> simp [integer, nullable, mul_one_le_iff] <;> omega
  | some ms =>
    have hle := hwait ms hms
    cases record.event.trace.connectionId <;>
      simp [integer, nullable, mul_one_le_iff, hle] <;> omega

/-! ## The pages that pass -/

/-- What the server guarantees of a page. -/
structure TracePage.Served (page : TracePage Duration) : Prop where
  valid : ∀ record ∈ page.records, record.event.Valid
  capacity_pos : 0 < page.capacity
  capacity_le : page.capacity ≤ 500
  length_le : page.records.length ≤ page.capacity
  sequence_le : ∀ record ∈ page.records, record.sequence ≤ page.cursor

/-- What the dashboard demands beyond that: counters are safe integers, and no record of the page
started after the last moment of a {lit}`Date`. -/
structure TracePage.Shown (page : TracePage Duration) (dropped : Nat) : Prop where
  cursor_le : page.cursor ≤ maxSafeInteger
  evicted_le : page.evicted ≤ maxSafeInteger
  dropped_le : dropped ≤ maxSafeInteger
  startedAtMs_le : ∀ record ∈ page.records, record.event.trace.startedAtMs ≤ maxDate

/-- The records of a page pass if they started in time. -/
theorem TracePage.Served.all_records {page : TracePage Duration} (h : page.Served)
    (hcursor : page.cursor ≤ maxSafeInteger) :
    ((page.records.map TraceRecord.toJson).all fun record =>
        isTrace record && isUpTo (page.cursor * one) record) = true ↔
      ∀ record ∈ page.records, record.event.trace.startedAtMs ≤ maxDate := by
  rw [List.all_map, List.all_eq_true]
  refine forall₂_congr fun record hrecord => ?_
  have hsequence := h.sequence_le record hrecord
  have hupTo : isUpTo (page.cursor * one) record.toJson = true := by
    simp [isUpTo, TraceRecord.toJson, Contracts.get, List.lookup, integer, mul_one_le_iff,
      hsequence]
  rw [Function.comp_apply, hupTo, Bool.and_true, isTrace_toJson (h.valid record hrecord)]
  omega

/-- A page passes exactly if it meets the demands that the server does not check. -/
theorem TracePage.Served.isTracePage_toJson {page : TracePage Duration} (h : page.Served)
    (text : Cursor → String) (dropped : Nat) (persistenceFailed : Bool) :
    isTracePage (page.toJson text dropped persistenceFailed) = true ↔ page.Shown dropped := by
  have hcapacity : page.capacity ≤ maxSafeInteger := Nat.le_trans h.capacity_le (by decide)
  have hpos : 0 < page.capacity * one := Nat.mul_pos h.capacity_pos Numbers.one_pos
  have hshown : page.Shown dropped ↔ (page.cursor ≤ maxSafeInteger ∧
      (page.evicted ≤ maxSafeInteger ∧ dropped ≤ maxSafeInteger)) ∧
        ((page.records.map TraceRecord.toJson).all fun record =>
          isTrace record && isUpTo (page.cursor * one) record) = true := by
    constructor
    · intro hshown
      exact ⟨⟨hshown.cursor_le, hshown.evicted_le, hshown.dropped_le⟩,
        (h.all_records hshown.cursor_le).mpr hshown.startedAtMs_le⟩
    · rintro ⟨⟨hcursor, hevicted, hdropped⟩, hrecords⟩
      exact ⟨hcursor, hevicted, hdropped, (h.all_records hcursor).mp hrecords⟩
  rw [hshown]
  simp only [isTracePage, TracePage.toJson, Contracts.get, List.lookup, String.reduceBEq, isString,
    List.all_cons, List.all_nil, nonnegativeInteger_integer, isOptionalBoolean, Bool.true_and,
    Bool.and_true, hcapacity, decide_true]
  cases page.nextCursor <;>
    simp only [nullable, integer, List.length_map, mul_one_le_iff, hpos, h.capacity_le, h.length_le,
      decide_true, Bool.and_true, Bool.true_and, Bool.and_eq_true, decide_eq_true_eq]

/-- The pages of history. -/
theorem served_of_history {store : Store Duration} (hstore : store.Accepted) {projectId : String}
    {query : HistoryQuery} {page : TracePage Duration}
    (h : store.history projectId query = .ok page) : page.Served := by
  obtain ⟨-, hquery, htable⟩ := Store.history_eq_ok.mp h
  obtain ⟨start, -, rfl⟩ := Table.history_eq_ok.mp htable
  simp only [HistoryQuery.validate, bind_eq_ok, ensure_eq_ok] at hquery
  obtain ⟨-, ⟨hpos, hle⟩, -⟩ := hquery
  have hmem : ∀ record ∈ (start.finish query.limit (selectHistory (store.table projectId).records
      query start.watermark start.after)).records,
      record ∈ (store.table projectId).records ∧ record.sequence ≤ start.watermark :=
    fun record hrecord => mem_selectHistory (List.mem_of_mem_take hrecord)
  exact {
    valid := fun record hrecord => hstore.valid _ (Store.mem_table (hmem record hrecord).1).1
    capacity_pos := hpos
    capacity_le := hle
    length_le := List.length_take_le _ _
    sequence_le := fun record hrecord => (hmem record hrecord).2 }

/-- The last item of an ordered list is the largest. -/
theorem sequence_le_getLast {records : List (TraceRecord ν)}
    (h : records.Pairwise fun a b => a.sequence ≤ b.sequence) {record : TraceRecord ν}
    (hrecord : record ∈ records) :
    record.sequence ≤ records.getLast?.elim 0 TraceRecord.sequence := by
  cases hlast : records.getLast? with
  | none =>
    rw [List.getLast?_eq_none_iff.mp hlast] at hrecord
    cases hrecord
  | some last =>
    obtain ⟨before, rfl⟩ := List.getLast?_eq_some_iff.mp hlast
    rcases List.mem_append.mp hrecord with hbefore | hself
    · exact (List.pairwise_append.mp h).2.2 record hbefore last (List.mem_singleton.mpr rfl)
    · rw [List.mem_singleton.mp hself]
      exact Nat.le_refl _

/-- The records of a replay are those up to the cursor. -/
theorem ReplayPage.sequence_le_cursor {start : ReplayPage} {limit : Nat}
    {records : List (TraceRecord ν)} {record : TraceRecord ν}
    (h : record ∈ (start.finish limit
      (selectReplay records limit start.after start.metadata.head)).records) :
    record.sequence ≤ (start.finish limit
      (selectReplay records limit start.after start.metadata.head)).cursor := by
  simp only [ReplayPage.finish] at h ⊢
  split
  · rename_i hmore
    have hafter : start.after.isSome := (Bool.and_eq_true_iff.mp hmore).1
    apply sequence_le_getLast _ h
    simp only [selectReplay, hafter, if_true]
    apply List.Pairwise.sublist ((List.take_sublist _ _).trans (List.take_sublist _ _))
    exact List.pairwise_insertionSort _ _
  · exact (mem_selectReplay (List.mem_of_mem_take h)).2.2

/-- The pages of a replay. -/
theorem served_of_replay {store : Store Duration} (hstore : store.Accepted) {projectId : String}
    {query : ReplayQuery} {page : TracePage Duration}
    (h : store.replay projectId query = .ok page) : page.Served := by
  obtain ⟨-, hquery, htable⟩ := Store.replay_eq_ok.mp h
  simp only [ReplayQuery.validate, bind_eq_ok, ensure_eq_ok] at hquery
  obtain ⟨⟨hpos, hle⟩, -⟩ := hquery
  rw [Table.replay] at htable
  cases hstart : ReplayPage.new projectId query (store.table projectId).metadata with
  | error error =>
    rw [hstart] at htable
    cases htable
  | ok start =>
    rw [hstart] at htable
    cases htable
    exact {
      valid := fun record hrecord => hstore.valid _
        (Store.mem_table (mem_selectReplay (List.mem_of_mem_take hrecord)).1).1
      capacity_pos := hpos
      capacity_le := hle
      length_le := List.length_take_le _ _
      sequence_le := fun record hrecord => ReplayPage.sequence_le_cursor hrecord }

/-! ## The rows that pass -/

/-- The waits whose average is at most the longest: their rounded sum is finite and exceeds as many
times the longest by at most half of its last place for each wait, and by less if the longest is
odd there. -/
def Steady (waits : List Nat) : Prop :=
  waits.length ≤ maxSafeInteger ∧ ∃ sum, total waits = some sum ∧
    (2 * sum < waits.length * (2 * longest waits + spacing 53 (longest waits)) ∨
      (2 * sum = waits.length * (2 * longest waits + spacing 53 (longest waits)) ∧
        longest waits / spacing 53 (longest waits) % 2 = 0))

theorem spacing_dvd_longest {waits : List Nat} (h : ∀ wait ∈ waits, spacing 53 wait ∣ wait) :
    spacing 53 (longest waits) ∣ longest waits := by
  suffices hstep : ∀ m, spacing 53 m ∣ m → spacing 53 (waits.foldl max m) ∣ waits.foldl max m from
    hstep 0 (dvd_zero _)
  induction waits with
  | nil => exact fun m hm => hm
  | cons wait waits ih =>
    intro m hm
    apply ih fun wait hwait => h wait (List.mem_cons_of_mem _ hwait)
    rcases max_choice m wait with heq | heq <;> rw [heq]
    · exact hm
    · exact h wait List.mem_cons_self

/-- The division of an average is exact up to its rounding. -/
theorem quotient_ofNat {sum n : Nat} (h : n ≤ maxSafeInteger) :
    quotient sum (ofNat n) = round 53 sum n := by
  rw [ofNat_eq (Nat.lt_of_le_of_lt h (by decide)), quotient, round_mul 53 sum n Numbers.one_pos]

/-- A row passes exactly if its waits are steady. -/
theorem isQueueWait_toJson {traces : List (RequestTrace Duration)} {actor : String × String}
    (hne : waitsOf traces actor ≠ []) :
    isQueueWait (queueWaitRow traces actor).toJson = true ↔ Steady (waitsOf traces actor) := by
  have hexact : spacing 53 (longest (waitsOf traces actor)) ∣ longest (waitsOf traces actor) := by
    apply spacing_dvd_longest
    intro wait hwait
    obtain ⟨trace, -, htrace⟩ := List.mem_filterMap.mp hwait
    obtain ⟨duration, -, rfl⟩ := Option.map_eq_some_iff.mp htrace
    exact duration.exact
  simp only [isQueueWait, QueueWaitRow.toJson, queueWaitRow, Contracts.get, List.lookup,
    String.reduceBEq, isString, Bool.true_and, integer, isSafeInteger_mul]
  generalize waitsOf traces actor = waits at hne hexact
  have hpos : 0 < waits.length := List.length_pos_iff.mpr hne
  have hunits : 0 < waits.length * one := Nat.mul_pos hpos Numbers.one_pos
  rw [Steady]
  by_cases hlength : waits.length ≤ maxSafeInteger
  · cases hsum : total waits with
    | none => simp [average, hsum, nullable]
    | some sum =>
      have hround := round_le_iff (p := 53) (a := sum) (by decide) hpos hexact
      simp [average, hsum, nullable, quotient_ofNat hlength, hround, hlength, hunits]
  · simp [hlength]

/-- The rows of a response, with the actors that they are about. -/
theorem Plan.mem_queueWaits {plan : Plan} {table : Table Duration} {query : QueueWaitQuery}
    {row : QueueWaitRow} (h : row ∈ plan.queueWaits table query) :
    row = queueWaitRow (plan.admitted table query) (row.actorName, row.actorId) ∧
      waitsOf (plan.admitted table query) (row.actorName, row.actorId) ≠ [] := by
  obtain ⟨actor, hactor, rfl⟩ :=
    List.mem_map.mp ((plan.arrange_perm _).mem_iff.mp (List.mem_of_mem_take h))
  obtain ⟨trace, htrace, rfl⟩ := List.mem_map.mp (List.mem_dedup.mp hactor)
  refine ⟨rfl, ?_⟩
  have hselected := (List.mem_filter.mp ((plan.scan_perm _).mem_iff.mp htrace)).2
  simp only [QueueWaitQuery.selects, Bool.and_eq_true] at hselected
  obtain ⟨wait, hwait⟩ := Option.isSome_iff_exists.mp hselected.1.1.1.1
  apply List.ne_nil_of_mem (a := wait.units)
  exact List.mem_filterMap.mpr ⟨trace, List.mem_filter.mpr ⟨htrace, by simp [queueWaitRow]⟩,
    by simp [hwait]⟩

theorem queueWaitRows_isOk {rows : List (Json Nat)} :
    (queueWaitRows (.array rows)).isOk = true ↔ ∀ row ∈ rows, isQueueWait row = true := by
  rw [queueWaitRows]
  split <;> simp_all [Except.isOk, Except.toBool]

/-- The responses of the server that the dashboard accepts: of the pages, those whose records
started at times of a {lit}`Date` and whose counters are safe integers; of the waits, those that are
steady for every actor. -/
theorem dashboard_accepts_iff {store : Store Duration} (hstore : store.Accepted)
    (projectId : String) (text : Cursor → String) (dropped : Nat) (persistenceFailed : Bool)
    (plan : Plan) :
    (∀ query page, store.history projectId query = .ok page →
      (isTracePage (page.toJson text dropped persistenceFailed) = true ↔ page.Shown dropped)) ∧
    (∀ query page, store.replay projectId query = .ok page →
      (isTracePage (page.toJson text dropped persistenceFailed) = true ↔ page.Shown dropped)) ∧
    ∀ query rows, store.queueWaits plan projectId query = .ok rows →
      ((queueWaitRows (.array (rows.map QueueWaitRow.toJson))).isOk = true ↔
        ∀ row ∈ rows, Steady (waitsOf (plan.admitted (store.table projectId) query)
          (row.actorName, row.actorId))) := by
  refine ⟨fun query page hpage => ?_, fun query page hpage => ?_, fun query rows hrows => ?_⟩
  · exact (served_of_history hstore hpage).isTracePage_toJson text dropped persistenceFailed
  · exact (served_of_replay hstore hpage).isTracePage_toJson text dropped persistenceFailed
  · obtain ⟨-, hrows⟩ := bind_eq_ok.mp hrows
    obtain ⟨-, hrows⟩ := bind_eq_ok.mp hrows
    cases hrows
    rw [queueWaitRows_isOk, List.forall_mem_map]
    refine forall₂_congr fun row hrow => ?_
    obtain ⟨heq, hne⟩ := Plan.mem_queueWaits hrow
    rw [heq]
    exact isQueueWait_toJson hne

/-! ## Three requests -/

/-- A request that waited all the time. -/
def waitingEvent (eventId : String) (startedAtMs : Nat) (wait : Duration) :
    TraceEvent Duration where
  eventId
  hostId := "host"
  sessionId := "session"
  trace :=
    { stateVersion := none
      projectId := "default"
      requestId := "request"
      actorName := "Counter"
      actorId := "one"
      kind := .method
      operation := "increment"
      connectionId := none
      startedAtMs
      durationMs := wait
      queueWaitMs := some wait
      outcome := .completed
      metadata := none }

/-- Three such requests with their positions. -/
def waitingEvents (startedAtMs : Nat) (wait : Duration) : List (Nat × TraceEvent Duration) :=
  [(1, waitingEvent "550e8400-e29b-41d4-a716-446655440001" startedAtMs wait),
    (2, waitingEvent "550e8400-e29b-41d4-a716-446655440002" startedAtMs wait),
    (3, waitingEvent "550e8400-e29b-41d4-a716-446655440003" startedAtMs wait)]

/-- An empty store. -/
def emptyStore : Sqlite Duration :=
  { generation := "550e8400-e29b-41d4-a716-446655440000", retention := 10000 }

/-- The store after the three requests. -/
def waitingStore (startedAtMs : Nat) (wait : Duration) : Sqlite Duration :=
  (emptyStore.append (waitingEvents startedAtMs wait)).toOption.getD emptyStore

theorem isUuid_of_all {text : String} (hsize : text.utf8ByteSize = 36)
    (hall : text.toList.all (fun c => c.isAlphanum || c == '-') = true) : IsUuid text := by
  refine ⟨hsize, fun c hc => ?_⟩
  simpa using List.all_eq_true.mp hall c hc

theorem waitingEvent_valid {eventId : String} (huuid : IsUuid eventId) (startedAtMs : Nat)
    (wait : Duration) : (waitingEvent eventId startedAtMs wait).Valid := by
  have hkey : ActorKey.validate ⟨"default", "Counter", "one"⟩ = .ok () := by decide +kernel
  refine ⟨?_, huuid⟩
  simp only [RequestTrace.validate, bind_eq_ok, ensure_eq_ok]
  have htexts : ("request" ≠ "" ∧ "request".utf8ByteSize ≤ 256) ∧
      "increment" ≠ "" ∧ "increment".utf8ByteSize ≤ 256 := by
    decide +kernel
  refine ⟨hkey, htexts.1, htexts.2, nofun, Nat.zero_le _, ?_, nofun⟩
  intro ms hms
  cases hms
  exact ⟨Nat.zero_le _, Nat.le_refl _⟩

theorem waitingStore_accepted {startedAtMs : Nat} (hstarted : startedAtMs ≤ maxI64)
    (wait : Duration) : (Store.sqlite (waitingStore startedAtMs wait)).Accepted := by
  have hinitial : (Store.sqlite emptyStore).Initial :=
    .sqlite (isUuid_of_all (by decide +kernel) (by decide +kernel))
  have hvalid : ∀ entry ∈ waitingEvents startedAtMs wait, entry.2.Valid := by
    intro entry hentry
    simp only [waitingEvents, List.mem_cons, List.not_mem_nil, or_false] at hentry
    rcases hentry with rfl | rfl | rfl <;>
      exact waitingEvent_valid (isUuid_of_all (by decide +kernel) (by decide +kernel)) _ _
  have hallocated : Allocated emptyStore.sequence
      ((waitingEvents startedAtMs wait).map Prod.fst) := by
    have hpositions : Allocated emptyStore.sequence [1, 2, 3] := ⟨by decide, by decide⟩
    exact hpositions
  have happend : ∃ next, emptyStore.append (waitingEvents startedAtMs wait) = .ok next := by
    simp [Sqlite.append, waitingEvents, Sqlite.insertEvents, waitingEvent,
      Nat.not_lt.mpr hstarted, bind, Except.bind, pure, Except.pure]
  obtain ⟨next, hnext⟩ := happend
  have hstore : waitingStore startedAtMs wait = next := by
    rw [waitingStore, hnext]
    rfl
  rw [hstore]
  exact ⟨_, hinitial, .single (.sqlite hvalid hallocated hnext)⟩

/-- A plan that scans and returns rows as they are. -/
def plainPlan : Plan where
  scan := id
  scan_perm := fun _ => .refl _
  arrange := id
  arrange_perm := fun _ => .refl _

/-- The dashboard shows requests that did not wait. -/
theorem dashboard_accepts_of_three :
    ∃ page rows, (Store.sqlite (waitingStore 1000 0)).history "default" {} = .ok page ∧
      isTracePage (page.toJson (fun _ => "cursor") 0 false) = true ∧
      (Store.sqlite (waitingStore 1000 0)).queueWaits plainPlan "default" {} = .ok rows ∧
      (queueWaitRows (.array (rows.map QueueWaitRow.toJson))).isOk = true := by
  obtain ⟨hhistory, -, hwaits⟩ := dashboard_accepts_iff
    (@waitingStore_accepted 1000 (by decide) 0) "default" (fun _ => "cursor") 0
    false plainPlan
  have hpage : ∃ page ∈ ((Store.sqlite (waitingStore 1000 0)).history "default" {}).toOption,
      (page.cursor ≤ maxSafeInteger ∧ page.evicted ≤ maxSafeInteger) ∧
        ∀ record ∈ page.records, record.event.trace.startedAtMs ≤ maxDate := by
    decide +kernel
  have hrows : ∃ rows ∈ ((Store.sqlite (waitingStore 1000 0)).queueWaits plainPlan "default"
      {}).toOption, ∀ row ∈ rows, waitsOf (plainPlan.admitted ((Store.sqlite
        (waitingStore 1000 0)).table "default") {}) (row.actorName, row.actorId) = [0, 0, 0] := by
    decide +kernel
  have hsteady : Steady [0, 0, 0] := by
    refine ⟨by decide, 0, by decide +kernel, .inl ?_⟩
    decide +kernel
  obtain ⟨page, hpage, ⟨hcursor, hevicted⟩, hstarted⟩ := hpage
  obtain ⟨rows, hrows, hzero⟩ := hrows
  refine ⟨page, rows, mem_toOption.mp hpage, ?_, mem_toOption.mp hrows, ?_⟩
  · exact (hhistory {} page (mem_toOption.mp hpage)).mpr
      ⟨hcursor, hevicted, Nat.zero_le _, hstarted⟩
  · refine (hwaits {} rows (mem_toOption.mp hrows)).mpr fun row hrow => ?_
    rw [hzero row hrow]
    exact hsteady

/-- The double of a tenth of a millisecond. -/
def tenth : Duration where
  units := 3602879701896397 * 2 ^ 1019
  exact := spacing_dvd_of_lt (by decide) _ (by decide)
  finite := by decide +kernel

/-- Valid traces that the store accepted, and that the dashboard does not show: a page with requests
after the last moment of a {lit}`Date`, and three waits of a tenth of a millisecond, whose average
is rounded up. -/
theorem dashboard_refuses :
    (∃ store : Store Duration, store.Accepted ∧ ∃ page, store.history "default" {} = .ok page ∧
        isTracePage (page.toJson (fun _ => "cursor") 0 false) = false) ∧
      ∃ store : Store Duration, store.Accepted ∧ ∃ rows,
        store.queueWaits plainPlan "default" {} = .ok rows ∧
          (queueWaitRows (.array (rows.map QueueWaitRow.toJson))).isOk = false := by
  have hpage : ∃ page ∈ ((Store.sqlite (waitingStore 8640000000000001 0)).history "default"
      {}).toOption, isTracePage (page.toJson (fun _ => "cursor") 0 false) = false := by
    decide +kernel
  have hrows : ∃ rows ∈ ((Store.sqlite (waitingStore 1000 tenth)).queueWaits plainPlan "default"
      {}).toOption, (queueWaitRows (.array (rows.map QueueWaitRow.toJson))).isOk = false := by
    decide +kernel
  obtain ⟨page, hpage, hrefused⟩ := hpage
  obtain ⟨rows, hrows, hrefused'⟩ := hrows
  exact ⟨⟨_, waitingStore_accepted (by decide) _, page, mem_toOption.mp hpage, hrefused⟩,
    ⟨_, waitingStore_accepted (by decide) _, rows, mem_toOption.mp hrows, hrefused'⟩⟩

end Traces
end DurableActors
