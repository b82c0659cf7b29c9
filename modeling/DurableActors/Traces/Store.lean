import DurableActors.Data.Paging
import DurableActors.Traces.Query

/-!
# The two trace stores

The tables, writes and reads of {lit}`request_traces/persistence/sqlite.rs` with its triggers, and
of {lit}`request_traces/persistence/postgres.rs` with {lit}`postgres/retention.rs`.

A read runs in one transaction and sees one project's table.  SQLite serialises all
operations of a store.  On Postgres every writer of a project holds the lock of the project's row
from before it reads the head until it commits, so an append and the deletion of a prune take
effect at their commits; a prune selects its rows earlier, without the lock.

Positions of SQLite rows are what {lit}`AUTOINCREMENT` guarantees: larger than all positions
before.  Times of Postgres rows are the readings of the database's clock.
-/

namespace DurableActors
namespace Traces

variable {ν : Type}

/-! ## Reads -/

/-- What one read transaction sees of a project. -/
structure Table (ν : Type) where
  metadata : Metadata
  records : List (TraceRecord ν)

/-- The order of history: by the time at which the request started, and then by position. -/
def TraceRecord.key (record : TraceRecord ν) : ℕ ×ₗ ℕ :=
  toLex (record.event.trace.startedAtMs, record.sequence)

/-- Whether an event passes the filters of a query. -/
def HistoryQuery.matches (query : HistoryQuery) (event : TraceEvent ν) : Bool :=
  query.requestId.all (· = event.trace.requestId) &&
    query.connectionId.all (some · = event.trace.connectionId) &&
    query.actorName.all (· = event.trace.actorName) &&
    query.actorId.all (· = event.trace.actorId) &&
    query.outcome.all (· = event.trace.outcome) &&
    query.fromMs.all (· ≤ event.trace.startedAtMs) &&
    query.toMs.all (event.trace.startedAtMs ≤ ·)

/-- {lit}`select` of {lit}`sqlite/history.rs`, and {lit}`postgres/history.sql`. -/
def selectHistory (records : List (TraceRecord ν)) (query : HistoryQuery) (watermark : Nat)
    (after : Option HistoryCursor) : List (TraceRecord ν) :=
  (Paging.descending TraceRecord.key (records.filter fun record =>
    record.sequence ≤ watermark && query.matches record.event &&
      after.all fun cursor => record.key < toLex (cursor.time, cursor.sequence))).take
    (query.limit + 1)

/-- {lit}`history` of either store. -/
def Table.history (table : Table ν) (projectId : String) (query : HistoryQuery) :
    Except Error (TracePage ν) := do
  let page ← HistoryPage.new projectId query table.metadata
  return page.finish query.limit (selectHistory table.records query page.watermark page.after)

/-- {lit}`select` of {lit}`sqlite/replay.rs`, and the queries of {lit}`replay` in
{lit}`postgres.rs`. -/
def selectReplay (records : List (TraceRecord ν)) (limit : Nat) (after : Option Nat) (head : Nat) :
    List (TraceRecord ν) :=
  let found := records.filter fun record => after.getD 0 < record.sequence && record.sequence ≤ head
  (if after.isSome then found.insertionSort fun a b => a.sequence ≤ b.sequence
    else Paging.descending TraceRecord.key found).take (limit + 1)

/-- {lit}`replay` of either store. -/
def Table.replay (table : Table ν) (projectId : String) (query : ReplayQuery) :
    Except Error (TracePage ν) := do
  let page ← ReplayPage.new projectId query table.metadata
  return page.finish query.limit (selectReplay table.records query.limit page.after
    page.metadata.head)

/-! ## SQLite -/

/-- A row of {lit}`trace_projects`. -/
structure SqliteProject where
  total : Nat
  head : Nat
  pruned : Nat
deriving DecidableEq

/-- The tables of a SQLite store: {lit}`trace_meta`, {lit}`traces` by position with the sequence of
their positions, and {lit}`trace_projects`. -/
structure Sqlite (ν : Type) where
  generation : String
  retention : Nat
  total : Nat := 0
  pruned : Nat := 0
  sequence : Nat := 0
  traces : List (TraceRecord ν) := []
  projects : String → Option SqliteProject := fun _ => none

/-- The trigger {lit}`traces_project_insert`. -/
def projectInsert (position : Nat) : Option SqliteProject → SqliteProject
  | none => { total := 1, head := position, pruned := 0 }
  | some project => { project with total := project.total + 1, head := position }

/-- One insert: an event with a known ID is skipped. -/
def Sqlite.insert (store : Sqlite ν) (position : Nat) (event : TraceEvent ν) : Sqlite ν :=
  if store.traces.any fun record => record.event.eventId = event.eventId then store
  else
    { store with
      sequence := position
      traces := store.traces ++ [⟨position, event⟩]
      projects :=
        if event.trace.projectId = "" then store.projects
        else Function.update store.projects event.trace.projectId
          (some (projectInsert position (store.projects event.trace.projectId))) }

/-- {lit}`insert_events`, given the position that each event would get. -/
def Sqlite.insertEvents : Sqlite ν → List (Nat × TraceEvent ν) → Except Error (Sqlite ν)
  | store, [] => .ok store
  | store, (position, event) :: rest =>
      if maxI64 < event.trace.startedAtMs then
        .error "out of range integral type conversion attempted"
      else insertEvents (store.insert position event) rest

/-- The trigger {lit}`traces_project_delete`. -/
def projectDelete (projects : String → Option SqliteProject) (record : TraceRecord ν) :
    String → Option SqliteProject :=
  Function.update projects record.event.trace.projectId
    ((projects record.event.trace.projectId).map fun project =>
      { project with pruned := max project.pruned record.sequence })

/-- The new pruned mark: the newest row beyond the retention. -/
def Sqlite.mark (store : Sqlite ν) : Nat :=
  max store.pruned ((store.traces.reverse[store.retention]?).elim 0 TraceRecord.sequence)

/-- The two statements of an append that keep the newest rows. -/
def Sqlite.prune (store : Sqlite ν) : Sqlite ν :=
  { store with
    pruned := store.mark
    traces := store.traces.filter (store.mark < ·.sequence)
    projects := (store.traces.filter (·.sequence ≤ store.mark)).foldl projectDelete
      store.projects }

/-- {lit}`append`. -/
def Sqlite.append (store : Sqlite ν) (batch : List (Nat × TraceEvent ν)) :
    Except Error (Sqlite ν) := do
  let inserted ← store.insertEvents batch
  return Sqlite.prune { inserted with
    total := inserted.total + (inserted.traces.length - store.traces.length) }

/-- {lit}`metadata` of {lit}`sqlite/replay.rs`, and the rows of the project. -/
def Sqlite.table (store : Sqlite ν) (projectId : String) : Table ν :=
  let records := store.traces.filter (·.event.trace.projectId = projectId)
  let project := (store.projects projectId).getD { total := 0, head := 0, pruned := 0 }
  { metadata :=
      { generation := store.generation
        head := project.head
        pruned := project.pruned
        evicted := project.total - records.length }
    records }

/-- The positions that {lit}`AUTOINCREMENT` may give to a batch. -/
def Allocated (sequence : Nat) (positions : List Nat) : Prop :=
  positions.Pairwise (· < ·) ∧ ∀ position ∈ positions, sequence < position ∧ position ≤ maxI64

/-! ## Postgres -/

/-- A row of {lit}`durable_actors_trace_projects`. -/
structure PostgresProject where
  head : Nat := 0
  evicted : Nat := 0
  pruned : Nat := 0
deriving DecidableEq

/-- A row of {lit}`durable_actors_traces`. -/
structure PostgresRow (ν : Type) where
  record : TraceRecord ν
  receivedAt : Nat
deriving DecidableEq

/-- The tables of a Postgres store, and what the prunes under way have selected. -/
structure Postgres (ν : Type) where
  projects : String → Option PostgresProject := fun _ => none
  traces : List (PostgresRow ν) := []
  prunes : List (List (PostgresRow ν)) := []

/-- The project of a row. -/
def PostgresRow.projectId (row : PostgresRow ν) : String := row.record.event.trace.projectId

/-- The insert of {lit}`append.sql`: the rows and the largest position, given the next position. -/
def insertRows : List (PostgresRow ν) → Nat → Nat → List (TraceEvent ν × Nat) →
    List (PostgresRow ν) × Nat
  | traces, head, _, [] => (traces, head)
  | traces, head, position, (event, receivedAt) :: rest =>
      if traces.any fun row => row.record.event.eventId = event.eventId then
        insertRows traces head (position + 1) rest
      else
        insertRows (traces ++ [⟨⟨position, event⟩, receivedAt⟩]) position (position + 1) rest

/-- The part of an append for one project: {lit}`lock_project` and {lit}`insert_events`. -/
def Postgres.insertEvents (store : Postgres ν) (projectId : String)
    (events : List (TraceEvent ν × Nat)) : Except Error (Postgres ν) :=
  let project := (store.projects projectId).getD {}
  if events.any fun event => maxI64 < event.1.trace.startedAtMs then
    .error "out of range integral type conversion attempted"
  else if maxI64 < project.head + events.length then
    .error "bigint out of range"
  else
    let inserted := insertRows store.traces project.head (project.head + 1) events
    .ok { store with
      traces := inserted.1
      projects := Function.update store.projects projectId
        (some { project with head := inserted.2 }) }

/-- {lit}`append`, with the clock's reading for each event: the projects in their order, and each
one's events in the order of the batch. -/
def Postgres.append (store : Postgres ν) (batch : List (TraceEvent ν × Nat)) :
    Except Error (Postgres ν) :=
  ((batch.map (·.1.trace.projectId)).dedup.insertionSort (· ≤ ·)).foldlM
    (fun store projectId =>
      store.insertEvents projectId (batch.filter (·.1.trace.projectId = projectId))) store

/-- The rows that a prune may select: the oldest of those received before the cutoff, at most 1000
of them, in any order among equals. -/
def Postgres.Oldest (store : Postgres ν) (cutoff : Nat) (rows : List (PostgresRow ν)) : Prop :=
  rows.length ≤ 1000 ∧
    (∀ row ∈ rows, row ∈ store.traces ∧ row.receivedAt < cutoff) ∧
    ∀ row ∈ store.traces, row.receivedAt < cutoff → row ∉ rows →
      rows.length = 1000 ∧ ∀ selected ∈ rows, selected.receivedAt ≤ row.receivedAt

/-- The deletion of the selected rows that are still there. -/
def Postgres.delete (store : Postgres ν) (rows : List (PostgresRow ν)) : Postgres ν :=
  let selected (row : PostgresRow ν) : Bool := rows.any fun other =>
    other.projectId = row.projectId && other.record.sequence = row.record.sequence
  { store with
    traces := store.traces.filter fun row => !selected row
    projects := fun projectId => (store.projects projectId).map fun project =>
      let deleted := store.traces.filter fun row => row.projectId = projectId && selected row
      { project with
        pruned := (deleted.map (·.record.sequence)).foldl max project.pruned
        evicted := project.evicted + deleted.length } }

/-- {lit}`metadata` of {lit}`postgres.rs`, and the rows of the project. -/
def Postgres.table (store : Postgres ν) (projectId : String) : Table ν :=
  let project := (store.projects projectId).getD {}
  { metadata :=
      { generation := "postgres"
        head := project.head
        pruned := project.pruned
        evicted := project.evicted }
    records := (store.traces.filter (·.projectId = projectId)).map PostgresRow.record }

/-! ## Either store -/

/-- A trace store. -/
inductive Store (ν : Type)
  | sqlite (store : Sqlite ν)
  | postgres (store : Postgres ν)

/-- What a read sees of a project. -/
def Store.table : Store ν → String → Table ν
  | sqlite store => store.table
  | postgres store => store.table

/-- A committed write. -/
inductive Store.Step : Store ν → Store ν → Prop
  | sqlite {store next : Sqlite ν} {batch} : Allocated store.sequence (batch.map Prod.fst) →
      store.append batch = .ok next → Step (.sqlite store) (.sqlite next)
  | append {store next : Postgres ν} {batch} : store.append batch = .ok next →
      Step (.postgres store) (.postgres next)
  | select {store : Postgres ν} {cutoff rows} : store.Oldest cutoff rows →
      Step (.postgres store) (.postgres { store with prunes := rows :: store.prunes })
  | delete {store : Postgres ν} {before rows after} : store.prunes = before ++ rows :: after →
      Step (.postgres store)
        (.postgres { store.delete rows with prunes := before ++ after })

/-- The text of a UUID. -/
def IsUuid (text : String) : Prop :=
  text.utf8ByteSize = 36 ∧ ∀ c ∈ text.toList, c.isAlphanum ∨ c = '-'

/-- A new store. -/
inductive Store.Initial : Store ν → Prop
  | sqlite {generation retention} : IsUuid generation → Initial (.sqlite { generation, retention })
  | postgres : Initial (.postgres {})

/-- The states of a store. -/
def Store.Reachable (store : Store ν) : Prop :=
  ∃ initial, Initial initial ∧ Relation.ReflTransGen Step initial store

/-! ## Requests -/

/-- {lit}`validate_component` of {lit}`control_plane/admin.rs`. -/
def validateComponent (name value : String) (maximum : Nat) : Except Error Unit :=
  if value.isEmpty then .error s!"{name} must not be empty"
  else if maximum < value.utf8ByteSize then
    .error s!"{name} must be at most {maximum} bytes"
  else if !value.toList.all (fun c => c.isAlphanum || c == '.' || c == '_' || c == '-') then
    .error s!"{name} contains unsupported characters"
  else .ok ()

/-- {lit}`context(InvalidTraceQuery)`. -/
def invalidUnless (check : Except Error Unit) : Except Error Unit :=
  check.mapError fun _ => invalidTraceQuery

/-- {lit}`TraceStore::history`. -/
def Store.history (store : Store ν) (projectId : String) (query : HistoryQuery) :
    Except Error (TracePage ν) := do
  invalidUnless (validateComponent "project ID" projectId 64)
  invalidUnless query.validate
  (store.table projectId).history projectId query

/-- {lit}`TraceStore::replay`. -/
def Store.replay (store : Store ν) (projectId : String) (query : ReplayQuery) :
    Except Error (TracePage ν) := do
  invalidUnless (validateComponent "project ID" projectId 64)
  invalidUnless query.validate
  (store.table projectId).replay projectId query

end Traces
end DurableActors
