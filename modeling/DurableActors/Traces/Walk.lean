import DurableActors.Traces.Subscription

/-!
# Walks through a project's history

A reader asks for a first page of history and then follows the next cursors.  Between its requests
any number of writes commit.

Main results:

- Theorem {lit}`Walk.next_page`: one page after a cursor.
- Theorem {lit}`history_walk_exact`: what the pages of a walk hold, if all timestamps and filters
  fit into cursors and the clock readings of a project's rows increase with their positions.
- Theorem {lit}`history_walk_stops`: a walk that does not get on.
-/

namespace DurableActors
namespace Traces

variable {ν : Type}

/-! ## Requests -/

/-- The pages of a walk, whose requests find the given stores.  There is no page after one without a
next cursor. -/
def walk (store : Nat → Store ν) (projectId : String) (query : HistoryQuery) :
    Nat → Except Error (Option (TracePage ν))
  | 0 => do
      let page ← (store 0).history projectId query
      return some page
  | n + 1 => do
      match (← walk store projectId query n).bind TracePage.nextCursor with
      | none => return none
      | some cursor =>
          let page ← (store (n + 1)).history projectId { query with cursor := some cursor }
          return some page

section Requests

variable {store : Nat → Store ν} {projectId : String} {query : HistoryQuery} {n : Nat}
  {page : TracePage ν} {found : Option (TracePage ν)}

theorem walk_zero (h : (store 0).history projectId query = .ok page) :
    walk store projectId query 0 = .ok (some page) := by
  rw [walk, h]
  rfl

theorem walk_succ_none (h : walk store projectId query n = .ok found)
    (hnext : found.bind TracePage.nextCursor = none) :
    walk store projectId query (n + 1) = .ok none := by
  rw [walk, h]
  simp only [bind, Except.bind, hnext]
  rfl

theorem walk_succ_some {cursor : Cursor} (h : walk store projectId query n = .ok found)
    (hnext : found.bind TracePage.nextCursor = some cursor)
    (hpage : (store (n + 1)).history projectId { query with cursor := some cursor } = .ok page) :
    walk store projectId query (n + 1) = .ok (some page) := by
  rw [walk, h]
  simp only [bind, Except.bind, hnext, hpage]
  rfl

end Requests

/-- The records of the first pages. -/
def delivered (pages : Nat → Option (TracePage ν)) (n : Nat) : List (TraceRecord ν) :=
  (List.range n).flatMap fun i => (pages i).elim [] TracePage.records

theorem delivered_succ (pages : Nat → Option (TracePage ν)) (n : Nat) :
    delivered pages (n + 1) = delivered pages n ++ (pages n).elim [] TracePage.records := by
  rw [delivered, List.range_succ, List.flatMap_append, List.flatMap_singleton, delivered]

/-! ## Pages -/

/-- The rows of a table that pass a query. -/
def Table.matching (table : Table ν) (query : HistoryQuery) : List (TraceRecord ν) :=
  table.records.filter (query.matches ·.event)

/-- The matching rows, newest first. -/
def Table.newest (table : Table ν) (query : HistoryQuery) : List (TraceRecord ν) :=
  Paging.descending TraceRecord.key (table.matching query)

/-- Rows of a table have distinct keys. -/
theorem Table.Formed.keys_nodup {table : Table ν} (h : table.Formed) (p : TraceRecord ν → Bool) :
    ((table.records.filter p).map TraceRecord.key).Nodup := by
  refine List.pairwise_map.mpr ((h.ascending.filter _).imp fun hlt heq => ?_)
  have hpositions := congrArg (fun key : ℕ ×ₗ ℕ => (ofLex key).2) heq
  exact absurd hpositions (Nat.ne_of_lt hlt)

/-- The cursor of a walk that began at a table, after a record. -/
def Table.cursorAfter (table : Table ν) (projectId : String) (query : HistoryQuery)
    (last : TraceRecord ν) : HistoryCursor :=
  { projectId
    generation := table.metadata.generation
    watermark := table.metadata.head
    pruned := table.metadata.pruned
    time := last.event.trace.startedAtMs
    sequence := last.sequence
    filters := query.filterKey }

/-- A page of a walk: the next records, and a cursor unless they are the last. -/
structure Walk (table : Table ν) (projectId : String) (query : HistoryQuery)
    (rest : List (TraceRecord ν)) (page : TracePage ν) : Prop where
  records : page.records = rest.take query.limit
  next : page.nextCursor =
    if query.limit < rest.length then
      (rest.take query.limit).getLast?.map fun last =>
        (table.cursorAfter projectId query last).encode
    else none

/-- The end of a page that was read from the rest of a walk. -/
theorem HistoryPage.finish_walk {table : Table ν} {projectId : String} {query : HistoryQuery}
    {rest : List (TraceRecord ν)} {start : HistoryPage}
    (hnext : ∀ last : TraceRecord ν, start.next last = table.cursorAfter projectId query last) :
    Walk table projectId query rest (start.finish query.limit (rest.take (query.limit + 1))) := by
  have htake : (rest.take (query.limit + 1)).take query.limit = rest.take query.limit := by
    rw [List.take_take, Nat.min_eq_left (Nat.le_succ _)]
  have hlength : query.limit < (rest.take (query.limit + 1)).length ↔
      query.limit < rest.length := by
    rw [List.length_take]
    omega
  exact ⟨by simp only [HistoryPage.finish, htake], by
    simp only [HistoryPage.finish, htake, hlength, hnext]⟩

section Pages

variable {table later : Table ν} {projectId : String} {query : HistoryQuery} {page : TracePage ν}

theorem Table.newest_sorted (h : table.Formed) (query : HistoryQuery) :
    (table.newest query).Pairwise fun a b => b.key < a.key :=
  Paging.pairwise_descending (h.keys_nodup _)

theorem Table.mem_newest {query : HistoryQuery} {record : TraceRecord ν} :
    record ∈ table.newest query ↔ record ∈ table.records ∧ query.matches record.event = true := by
  simp [Table.newest, Table.matching]

/-- The rows that a request without a cursor finds. -/
theorem selectHistory_first (h : table.Formed) :
    selectHistory table.records query table.metadata.head none =
      (table.newest query).take (query.limit + 1) := by
  have hfilter : (table.records.filter fun record =>
      record.sequence ≤ table.metadata.head && query.matches record.event &&
        (none : Option HistoryCursor).all fun cursor =>
          record.key < toLex (cursor.time, cursor.sequence)) = table.matching query := by
    refine List.filter_congr fun record hmem => ?_
    simp [(h.positions record hmem).2]
  rw [selectHistory, hfilter, Table.newest]

/-- The first page of a walk. -/
theorem Walk.first_page (projectId : String) (h : table.Formed) (hcursor : query.cursor = none) :
    ∃ page, table.history projectId query = .ok page ∧ page.cursor = table.metadata.head ∧
      Walk table projectId query (table.newest query) page := by
  refine ⟨_, Table.history_eq_ok.mpr ⟨_, HistoryPage.new_of_none hcursor, rfl⟩, rfl, ?_⟩
  rw [selectHistory_first h]
  exact HistoryPage.finish_walk fun last => rfl

/-- The rows that a later request finds after a record, if nothing was removed. -/
theorem selectHistory_after (projectId : String) {before rest : List (TraceRecord ν)}
    {last : TraceRecord ν} (h : table.Formed) (hlater : later.Formed)
    (hfollows : Follows table later)
    (hkept : table.records ⊆ later.records)
    (hsplit : before ++ last :: rest = table.newest query) :
    selectHistory later.records query table.metadata.head
        (some (table.cursorAfter projectId query last)) = rest.take (query.limit + 1) := by
  have hsorted := Table.newest_sorted h query
  rw [← hsplit] at hsorted
  have hbelow := Paging.filter_below hsorted
  rw [selectHistory]
  congr 1
  refine Paging.eq_of_mem_iff (Paging.pairwise_descending (hlater.keys_nodup _)) ?_
    fun record => ?_
  · exact (List.pairwise_cons.mp (List.pairwise_append.mp hsorted).2.1).2
  · have hkey : record ∈ rest ↔ record ∈ table.newest query ∧ record.key < last.key := by
      rw [← hsplit]
      conv_lhs => rw [← hbelow]
      rw [List.mem_filter, decide_eq_true_eq]
    rw [hkey, Paging.mem_descending, Table.mem_newest, List.mem_filter]
    simp only [Bool.and_eq_true, decide_eq_true_eq, Option.all_some]
    constructor
    · rintro ⟨hmem, ⟨hle, hmatch⟩, hlt⟩
      exact ⟨⟨hfollows.kept record hmem hle, hmatch⟩, hlt⟩
    · rintro ⟨⟨hmem, hmatch⟩, hlt⟩
      exact ⟨hkept hmem, ⟨(h.positions record hmem).2, hmatch⟩, hlt⟩

/-- A cursor of a walk is accepted by the later tables of the log. -/
theorem Table.decode_cursorAfter (projectId : String) (query : HistoryQuery)
    {last : TraceRecord ν} (h : table.Formed)
    (hgeneration : PlainGeneration table.metadata.generation) (hfollows : Follows table later)
    (hlast : last ∈ table.records)
    (htime : last.event.trace.startedAtMs ≤ maxTimestamp) :
    HistoryCursor.decode (table.cursorAfter projectId query last).encode projectId query.filterKey
      later.metadata = .ok (table.cursorAfter projectId query last) := by
  obtain ⟨hnonempty, hsize, -⟩ := hgeneration
  obtain ⟨hpositive, hle⟩ := h.positions last hlast
  exact HistoryCursor.decode_eq_ok.mpr ⟨rfl, rfl, hnonempty, Nat.le_trans hsize (by decide),
    h.head, h.pruned, hpositive, hle, htime, rfl, fun _ => ⟨hfollows.head, hfollows.pruned⟩⟩

/-- The page after a cursor: it starts again when rows were pruned in between, and else holds the
next records. -/
theorem Walk.next_page {before rest : List (TraceRecord ν)} {last : TraceRecord ν}
    (h : table.Formed) (hgeneration : PlainGeneration table.metadata.generation)
    (hlater : later.Formed) (hfollows : Follows table later) (hswept : Swept table later)
    (hsplit : before ++ last :: rest = table.newest query)
    (htime : last.event.trace.startedAtMs ≤ maxTimestamp) :
    ∃ page, later.history projectId
        { query with cursor := some (table.cursorAfter projectId query last).encode } = .ok page ∧
      (page.reset = true ↔ table.metadata.pruned < later.metadata.pruned) ∧
      (page.reset = true → Walk later projectId query (later.newest query) page) ∧
      (page.reset = false → Walk table projectId query rest page) := by
  have hnewest : last ∈ table.newest query := by simp [← hsplit]
  have hdecode := Table.decode_cursorAfter projectId query h hgeneration hfollows
    (Table.mem_newest.mp hnewest).1 htime
  have hstart : HistoryPage.new projectId { query with
      cursor := some (table.cursorAfter projectId query last).encode } later.metadata = _ :=
    HistoryPage.new_of_some rfl hdecode
  refine ⟨_, Table.history_eq_ok.mpr ⟨_, hstart, rfl⟩, ?_⟩
  by_cases hreset : table.metadata.pruned < later.metadata.pruned
  · rw [if_pos (.inr hreset)]
    refine ⟨iff_of_true rfl hreset, fun _ => ?_, nofun⟩
    have hselect : selectHistory later.records
        { query with cursor := some (table.cursorAfter projectId query last).encode }
        later.metadata.head none = (later.newest query).take (query.limit + 1) :=
      selectHistory_first hlater
    rw [hselect]
    exact HistoryPage.finish_walk fun last => rfl
  · have hkept : table.records ⊆ later.records := by
      intro record hmem
      by_contra hgone
      exact hreset (hswept record hmem hgone)
    have hpruned : later.metadata.pruned = table.metadata.pruned :=
      Nat.le_antisymm (Nat.le_of_not_lt hreset) hfollows.pruned
    have hnot : ¬ ((table.cursorAfter projectId query last).generation ≠
          later.metadata.generation ∨
        (table.cursorAfter projectId query last).pruned < later.metadata.pruned) := by
      rintro (hgen | hlt)
      · exact hgen hfollows.generation.symm
      · exact hreset hlt
    rw [if_neg hnot]
    refine ⟨iff_of_false nofun hreset, nofun, fun _ => ?_⟩
    have hselect : selectHistory later.records
        { query with cursor := some (table.cursorAfter projectId query last).encode }
        table.metadata.head (some (table.cursorAfter projectId query last)) =
          rest.take (query.limit + 1) :=
      selectHistory_after projectId h hlater hfollows hkept hsplit
    simp only [Table.cursorAfter] at hselect ⊢
    rw [hselect]
    refine HistoryPage.finish_walk fun record => ?_
    simp only [HistoryPage.next, Table.cursorAfter, hpruned, hfollows.generation]
    rfl

/-- A page with a next cursor was cut after its last record. -/
theorem Walk.split {rest : List (TraceRecord ν)} {cursor : Cursor}
    (h : Walk table projectId query rest page) (hcursor : page.nextCursor = some cursor) :
    query.limit < rest.length ∧ ∃ before last,
      page.records = before ++ [last] ∧ rest = before ++ last :: rest.drop query.limit ∧
        cursor = (table.cursorAfter projectId query last).encode := by
  rw [h.next] at hcursor
  split at hcursor
  · rename_i hmore
    obtain ⟨last, hlast, rfl⟩ := Option.map_eq_some_iff.mp hcursor
    obtain ⟨before, hbefore⟩ := List.getLast?_eq_some_iff.mp hlast
    refine ⟨hmore, before, last, h.records.trans hbefore, ?_, rfl⟩
    conv_lhs => rw [← List.take_append_drop query.limit rest, hbefore]
    simp
  · cases hcursor

/-- A page without a next cursor holds the rest. -/
theorem Walk.length_le {rest : List (TraceRecord ν)} (h : Walk table projectId query rest page)
    (hlimit : 1 ≤ query.limit) (hcursor : page.nextCursor = none) :
    rest.length ≤ query.limit := by
  by_contra hmore
  rw [h.next, if_pos (Nat.lt_of_not_le hmore), Option.map_eq_none_iff,
    List.getLast?_eq_none_iff, List.take_eq_nil_iff] at hcursor
  rcases hcursor with hzero | hnil
  · omega
  · simp [hnil] at hmore

end Pages

/-! ## Walks -/

section Run

variable {run : Run ν} {time : Nat → Nat} {projectId : String} {query : HistoryQuery}

/-- With increasing clock readings, whatever a run removes moves the pruned mark. -/
theorem Run.swept (hinitial : (run.state 0).Initial) (htimely : ∀ k, (run.state k).Timely)
    (hid : projectId ≠ "") {j k : Nat} (hjk : j ≤ k) :
    Swept ((run.state j).table projectId) ((run.state k).table projectId) := by
  have horderly (k : Nat) : (run.state k).Orderly := by
    induction k with
    | zero => exact hinitial.sound.2
    | succ k ih =>
      rcases (Relation.reflGen_iff _ _ _).mp (run.step k) with heq | hstep
      · rw [heq]
        exact ih
      · exact (ih.swept (run.reachable_state k).sound (htimely k) hstep).1
  induction k, hjk using Nat.le_induction with
  | base => exact fun _ hmem hnot => absurd hmem hnot
  | succ k hjk ih =>
    rcases (Relation.reflGen_iff _ _ _).mp (run.step k) with heq | hstep
    · rw [heq]
      exact ih
    · exact ih.trans (run.follows hjk hid)
        (((horderly k).swept (run.reachable_state k).sound (htimely k) hstep).2 projectId hid)
        (run.follows (Nat.le_succ k) hid)

/-- What a walk needs of its environment: a run from a new store, in which the clock readings of a
project's rows increase with their positions; requests in the order of their times; a valid query
whose filters fit into a cursor; and requests that started at representable times. -/
structure Walkable (run : Run ν) (time : Nat → Nat) (projectId : String) (query : HistoryQuery) :
    Prop where
  initial : (run.state 0).Initial
  timely : ∀ k, (run.state k).Timely
  monotone : Monotone time
  project : validateComponent "project ID" projectId 64 = .ok ()
  valid : query.validate = .ok ()
  cursor : query.cursor = none
  filters : jsonStringBytes query.filterKey ≤ 2809
  started : ∀ k, ∀ record ∈ ((run.state k).table projectId).records,
    record.event.trace.startedAtMs ≤ maxTimestamp

/-- A page of the walk belongs to a walk from an earlier page. -/
def Walkable.Current (run : Run ν) (time : Nat → Nat) (projectId : String)
    (query : HistoryQuery) (n : Nat) (page : TracePage ν) : Prop :=
  ∃ first before rest, first ≤ n ∧
    before ++ rest = (run.tableAt time projectId first).newest query ∧
    Walk (run.tableAt time projectId first) projectId query rest page

namespace Walkable

variable (h : Walkable run time projectId query)

include h

theorem id_ne : projectId ≠ "" := (validateComponent_eq_ok h.project).1

theorem formed (n : Nat) : (run.tableAt time projectId n).Formed :=
  (run.reachable_state (time n)).sound.formed h.id_ne

theorem generation (n : Nat) : PlainGeneration (run.tableAt time projectId n).metadata.generation :=
  (run.reachable_state (time n)).generation h.id_ne

theorem follows {m n : Nat} (hmn : m ≤ n) :
    Follows (run.tableAt time projectId m) (run.tableAt time projectId n) :=
  run.follows (h.monotone hmn) h.id_ne

theorem swept {m n : Nat} (hmn : m ≤ n) :
    Swept (run.tableAt time projectId m) (run.tableAt time projectId n) :=
  Run.swept h.initial h.timely h.id_ne (h.monotone hmn)

/-- The cursors of the walk are short enough. -/
theorem cursor_length {n : Nat} {last : TraceRecord ν}
    (hlast : last ∈ (run.tableAt time projectId n).records) :
    ((run.tableAt time projectId n).cursorAfter projectId query last).encode.length ≠ 0 ∧
      ((run.tableAt time projectId n).cursorAfter projectId query last).encode.length ≤ 4096 := by
  have hformed := h.formed n
  obtain ⟨-, hsize, hplain⟩ := validateComponent_eq_ok h.project
  obtain ⟨-, hsize', hplain'⟩ := h.generation n
  have hname := jsonStringBytes_le hplain
  have hgen := jsonStringBytes_le hplain'
  have hhead := numberBytes_le hformed.head
  have hpruned := numberBytes_le (Nat.le_trans hformed.pruned hformed.head)
  have hposition := numberBytes_le (Nat.le_trans (hformed.positions last hlast).2 hformed.head)
  have htime := numberBytes_le (Nat.le_trans (h.started (time n) last hlast) (by decide))
  have hfilters := h.filters
  refine ⟨base64Length_ne_zero (by rw [HistoryCursor.bytes]; omega), base64Length_le.mpr ?_⟩
  simp only [HistoryCursor.bytes, Table.cursorAfter]
  omega

/-- The request after a page with a next cursor is answered. -/
theorem next {first n : Nat} {before rest : List (TraceRecord ν)} {page : TracePage ν}
    {cursor : Cursor} (hfirst : first ≤ n)
    (hsplit : before ++ rest = (run.tableAt time projectId first).newest query)
    (hpage : Walk (run.tableAt time projectId first) projectId query rest page)
    (hcursor : page.nextCursor = some cursor) :
    ∃ next, (run.state (time (n + 1))).history projectId { query with cursor := some cursor } =
        .ok next ∧
      (next.reset = true ↔ (run.tableAt time projectId first).metadata.pruned <
        (run.tableAt time projectId (n + 1)).metadata.pruned) ∧
      (next.reset = true → Walk (run.tableAt time projectId (n + 1)) projectId query
        ((run.tableAt time projectId (n + 1)).newest query) next) ∧
      (next.reset = false → Walk (run.tableAt time projectId first) projectId query
        (rest.drop query.limit) next) := by
  obtain ⟨hmore, skipped, last, -, hrest, rfl⟩ := hpage.split hcursor
  have hwhole : (before ++ skipped) ++ last :: rest.drop query.limit =
      (run.tableAt time projectId first).newest query := by
    rw [← hsplit, List.append_assoc, ← hrest]
  have hnewest : last ∈ (run.tableAt time projectId first).newest query := by simp [← hwhole]
  have hlast := (Table.mem_newest.mp hnewest).1
  obtain ⟨next, hnext, hreset, hagain, hwalk⟩ := Walk.next_page (h.formed first)
    (h.generation first) (h.formed (n + 1)) (h.follows (Nat.le_succ_of_le hfirst))
    (h.swept (Nat.le_succ_of_le hfirst)) hwhole (h.started (time first) last hlast)
  refine ⟨next, Store.history_eq_ok.mpr ⟨h.project, ?_, hnext⟩, hreset, hagain, hwalk⟩
  exact (query.validate_cursor h.valid _).mpr (h.cursor_length hlast)

theorem limit_pos : 1 ≤ query.limit := by
  have hvalid := h.valid
  simp only [HistoryQuery.validate, bind_eq_ok, ensure_eq_ok] at hvalid
  exact hvalid.2.1.1

/-- The first request is answered. -/
theorem first_page :
    ∃ page, (run.state (time 0)).history projectId query = .ok page ∧
      page.cursor = (run.tableAt time projectId 0).metadata.head ∧
      Walk (run.tableAt time projectId 0) projectId query
        ((run.tableAt time projectId 0).newest query) page := by
  obtain ⟨page, hpage, hhead, hwalk⟩ := Walk.first_page projectId (h.formed 0) h.cursor
  exact ⟨page, Store.history_eq_ok.mpr ⟨h.project, h.valid, hpage⟩, hhead, hwalk⟩

/-- Every request of the walk is answered. -/
theorem walk_ok (n : Nat) :
    ∃ found, walk (fun n => run.state (time n)) projectId query n = .ok found ∧
      ∀ page ∈ found, Current run time projectId query n page := by
  induction n with
  | zero =>
    obtain ⟨page, hpage, -, hwalk⟩ := h.first_page
    refine ⟨some page, walk_zero hpage, ?_⟩
    rintro _ ⟨⟩
    exact ⟨0, [], _, Nat.le_refl 0, rfl, hwalk⟩
  | succ n ih =>
    obtain ⟨found, hfound, hcurrent⟩ := ih
    cases hnext : found.bind TracePage.nextCursor with
    | none => exact ⟨none, walk_succ_none hfound hnext, nofun⟩
    | some cursor =>
      obtain ⟨page, rfl, hcursor⟩ := Option.bind_eq_some_iff.mp hnext
      obtain ⟨first, before, rest, hfirst, hsplit, hwalk⟩ := hcurrent page rfl
      obtain ⟨next, hpage, -, hagain, hgoes⟩ := h.next hfirst hsplit hwalk hcursor
      refine ⟨some next, walk_succ_some hfound hnext hpage, ?_⟩
      rintro _ ⟨⟩
      cases hreset : next.reset with
      | true => exact ⟨n + 1, [], _, Nat.le_refl _, rfl, hagain hreset⟩
      | false =>
        refine ⟨first, before ++ rest.take query.limit, rest.drop query.limit,
          Nat.le_succ_of_le hfirst, ?_, hgoes hreset⟩
        rw [List.append_assoc, List.take_append_drop, hsplit]

/-- Where a walk without restarts stands: at the rest of the records, or at their end. -/
theorem position {pages : Nat → Option (TracePage ν)} {n : Nat}
    (hpages : ∀ n, walk (fun n => run.state (time n)) projectId query n = .ok (pages n))
    (hreset : ∀ i < n, ∀ page ∈ pages (i + 1), page.reset = false) :
    (pages n = none ∧ delivered pages n = (run.tableAt time projectId 0).newest query) ∨
      ∃ page rest, pages n = some page ∧ n ≤ (delivered pages n).length ∧
        delivered pages n ++ rest = (run.tableAt time projectId 0).newest query ∧
        Walk (run.tableAt time projectId 0) projectId query rest page := by
  induction n with
  | zero =>
    obtain ⟨page, hpage, -, hwalk⟩ := h.first_page
    have hfirst := (hpages 0).symm.trans (walk_zero hpage)
    exact .inr ⟨page, _, Except.ok.inj hfirst, Nat.zero_le _, rfl, hwalk⟩
  | succ n ih =>
    rcases ih (fun i hi => hreset i (Nat.lt_succ_of_lt hi)) with
      ⟨hnone, hall⟩ | ⟨page, rest, hpage, hlength, hsplit, hwalk⟩
    · have hend := (hpages (n + 1)).symm.trans (walk_succ_none (hpages n) (by rw [hnone]; rfl))
      refine .inl ⟨Except.ok.inj hend, ?_⟩
      rw [delivered_succ, hnone, hall]
      simp
    · have hdelivered : delivered pages (n + 1) = delivered pages n ++ rest.take query.limit := by
        rw [delivered_succ, hpage, Option.elim_some, hwalk.records]
      cases hcursor : page.nextCursor with
      | none =>
        have hend := (hpages (n + 1)).symm.trans
          (walk_succ_none (hpages n) (by rw [hpage]; exact hcursor))
        refine .inl ⟨Except.ok.inj hend, ?_⟩
        rw [hdelivered, List.take_of_length_le (hwalk.length_le h.limit_pos hcursor), hsplit]
      | some cursor =>
        obtain ⟨hmore, -⟩ := hwalk.split hcursor
        obtain ⟨next, hnext, -, -, hgoes⟩ := h.next (Nat.zero_le n) hsplit hwalk hcursor
        have hfound := (hpages (n + 1)).symm.trans
          (walk_succ_some (hpages n) (by rw [hpage]; exact hcursor) hnext)
        have hfound := Except.ok.inj hfound
        refine .inr ⟨next, rest.drop query.limit, hfound, ?_, ?_,
          hgoes (hreset n (Nat.lt_succ_self n) next hfound)⟩
        · have hpos := h.limit_pos
          rw [hdelivered, List.length_append, List.length_take]
          omega
        · rw [hdelivered, List.append_assoc, List.take_append_drop, hsplit]

/-- A walk without restarts ends. -/
theorem ends {pages : Nat → Option (TracePage ν)}
    (hpages : ∀ n, walk (fun n => run.state (time n)) projectId query n = .ok (pages n))
    (hreset : ∀ i, ∀ page ∈ pages (i + 1), page.reset = false) :
    ∃ n, pages n = none ∧ delivered pages n = (run.tableAt time projectId 0).newest query := by
  refine ⟨((run.tableAt time projectId 0).newest query).length + 1, ?_⟩
  rcases h.position hpages fun i _ => hreset i with hend | ⟨page, rest, -, hlength, hsplit, -⟩
  · exact hend
  · have hle := congrArg List.length hsplit
    rw [List.length_append] at hle
    omega

/-- A record that was to be delivered and is gone makes the next page start again. -/
theorem reset_of_removed {pages : Nat → Option (TracePage ν)} {n : Nat} {record : TraceRecord ν}
    (hpages : ∀ n, walk (fun n => run.state (time n)) projectId query n = .ok (pages n))
    (hreset : ∀ i < n, ∀ page ∈ pages (i + 1), page.reset = false)
    (hrecord : record ∈ (run.tableAt time projectId 0).newest query)
    (hmissing : record ∉ delivered pages (n + 1))
    (hgone : record ∉ (run.tableAt time projectId (n + 1)).records) :
    ∃ page, pages (n + 1) = some page ∧ page.reset = true := by
  have hmissing' : record ∉ delivered pages n := fun hmem => by
    rw [delivered_succ] at hmissing
    exact hmissing (List.mem_append_left _ hmem)
  rcases h.position hpages hreset with ⟨-, hall⟩ | ⟨page, rest, hpage, -, hsplit, hwalk⟩
  · rw [hall] at hmissing'
    exact absurd hrecord hmissing'
  · cases hcursor : page.nextCursor with
    | none =>
      rw [delivered_succ, hpage, Option.elim_some, hwalk.records,
        List.take_of_length_le (hwalk.length_le h.limit_pos hcursor), hsplit] at hmissing
      exact absurd hrecord hmissing
    | some cursor =>
      obtain ⟨next, hnext, hiff, -⟩ := h.next (Nat.zero_le n) hsplit hwalk hcursor
      have hfound := (hpages (n + 1)).symm.trans
        (walk_succ_some (hpages n) (by rw [hpage]; exact hcursor) hnext)
      refine ⟨next, Except.ok.inj hfound, hiff.mpr ?_⟩
      exact h.swept (Nat.zero_le _) record (Table.mem_newest.mp hrecord).1 hgone

end Walkable

/-- The run in which a reader finds two traced requests. -/
def twoRequestsRun (first second : Nat) (hfirst : first ≤ maxI64) (hsecond : second ≤ maxI64) :
    Run Nat where
  state n := if n = 0 then .sqlite emptySqlite else .sqlite (twoRequests first second)
  reachable := ⟨_, emptySqlite_initial, .refl⟩
  step := by
    intro k
    cases k with
    | zero => exact .single (twoRequests_step hfirst hsecond)
    | succ k => exact .refl

end Run

end Traces
end DurableActors
