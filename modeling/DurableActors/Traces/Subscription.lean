import DurableActors.Traces.Acceptance

/-!
# Subscribers to a project's traces

A subscriber starts without a cursor and then always sends the last resume cursor.  Between its
requests any number of writes commit.

Main results:

- Theorem {lit}`Table.replay_resume_eq`: one page after a position.
- Theorem {lit}`subscriber_misses_nothing`: what the pages of a subscriber hold.
-/

namespace DurableActors
namespace Traces

variable {ν : Type}

/-! ## One page -/

/-- The rows after a position. -/
def Table.beyond (table : Table ν) (position : Nat) : List (TraceRecord ν) :=
  table.records.filter (position < ·.sequence)

/-- A page after a position: its records come next, and its cursor leaves nothing out. -/
structure Continues (table : Table ν) (position : Nat) (page : TracePage ν) : Prop where
  ascending : page.records.Pairwise fun a b => a.sequence < b.sequence
  records : ∀ record ∈ page.records,
    record ∈ table.records ∧ position < record.sequence ∧ record.sequence ≤ page.cursor
  complete : ∀ record ∈ table.records, position < record.sequence →
    record.sequence ≤ page.cursor → record ∈ page.records
  progress : page.cursor = table.metadata.head ∨ position < page.cursor
  bounds : position ≤ page.cursor ∧ page.cursor ≤ table.metadata.head

section Page

variable {table : Table ν} {projectId : String} {position limit : Nat} {page : TracePage ν}

/-- The rows after a position are already in their order. -/
theorem selectReplay_some (h : table.Formed) :
    selectReplay table.records limit (some position) table.metadata.head =
      (table.beyond position).take (limit + 1) := by
  have hfilter : (table.records.filter fun record =>
      (some position).getD 0 < record.sequence && record.sequence ≤ table.metadata.head) =
        table.beyond position := by
    refine List.filter_congr fun record hmem => ?_
    simp [(h.positions record hmem).2]
  have hsorted : (table.beyond position).Pairwise fun a b => a.sequence ≤ b.sequence :=
    (h.ascending.filter _).imp Nat.le_of_lt
  rw [selectReplay, hfilter]
  simp only [Option.isSome_some, if_true]
  rw [hsorted.insertionSort_eq]

/-- What a page after a position is. -/
theorem ReplayPage.finish_continues {start : ReplayPage} (h : table.Formed) (hlimit : 1 ≤ limit)
    (hposition : position ≤ table.metadata.head) (hmetadata : start.metadata = table.metadata)
    (hafter : start.after = some position) :
    Continues table position
      (start.finish limit ((table.beyond position).take (limit + 1))) := by
  have hbeyond : (table.beyond position).Pairwise fun a b => a.sequence < b.sequence :=
    h.ascending.filter _
  have hmem : ∀ record, record ∈ table.beyond position ↔
      record ∈ table.records ∧ position < record.sequence := by
    simp [Table.beyond]
  have htake : ((table.beyond position).take (limit + 1)).take limit =
      (table.beyond position).take limit := by
    rw [List.take_take, Nat.min_eq_left (Nat.le_succ limit)]
  have hsub : ∀ record ∈ (table.beyond position).take limit,
      record ∈ table.records ∧ position < record.sequence := fun record hrecord =>
    (hmem record).mp (List.mem_of_mem_take hrecord)
  by_cases hmore : limit < (table.beyond position).length
  · -- the page ends at its last record
    obtain ⟨last, hlast⟩ : ∃ last, ((table.beyond position).take limit).getLast? = some last := by
      rw [← Option.isSome_iff_exists, List.getLast?_isSome, ne_eq, List.take_eq_nil_iff]
      rintro (hzero | hnil)
      · omega
      · simp [hnil] at hmore
    have hiff := fun record (hrecord : record ∈ table.beyond position) =>
      Paging.mem_take_iff hbeyond hlast hrecord
    have hpage : (start.finish limit ((table.beyond position).take (limit + 1))).records =
          (table.beyond position).take limit ∧
        (start.finish limit ((table.beyond position).take (limit + 1))).cursor = last.sequence := by
      simp [ReplayPage.finish, htake, hafter, hmore, hlast]
    have hmemLast := hsub last (List.mem_of_getLast? hlast)
    rw [← hpage.1] at hsub
    constructor
    · rw [hpage.1]
      exact hbeyond.sublist (List.take_sublist _ _)
    · intro record hrecord
      refine ⟨(hsub record hrecord).1, (hsub record hrecord).2, ?_⟩
      rw [hpage.1] at hrecord
      rw [hpage.2]
      exact (hiff record (List.mem_of_mem_take hrecord)).mp hrecord
    · intro record hrecord hbelow hle
      rw [hpage.1]
      rw [hpage.2] at hle
      have hin := (hmem record).mpr ⟨hrecord, hbelow⟩
      exact (hiff record hin).mpr hle
    · rw [hpage.2]
      exact .inr hmemLast.2
    · rw [hpage.2]
      exact ⟨Nat.le_of_lt hmemLast.2, (h.positions last hmemLast.1).2⟩
  · -- the page ends at the head
    have hall : (table.beyond position).take limit = table.beyond position :=
      List.take_of_length_le (Nat.le_of_not_lt hmore)
    have hpage : (start.finish limit ((table.beyond position).take (limit + 1))).records =
          table.beyond position ∧
        (start.finish limit ((table.beyond position).take (limit + 1))).cursor =
          table.metadata.head := by
      simp [ReplayPage.finish, htake, hall, hafter, hmore, hmetadata]
    constructor
    · rw [hpage.1]
      exact hbeyond
    · intro record hrecord
      rw [hpage.1] at hrecord
      have hrow := (hmem record).mp hrecord
      refine ⟨hrow.1, hrow.2, ?_⟩
      rw [hpage.2]
      exact (h.positions record hrow.1).2
    · intro record hrecord hbelow _
      rw [hpage.1]
      exact (hmem record).mpr ⟨hrecord, hbelow⟩
    · exact .inl hpage.2
    · rw [hpage.2]
      exact ⟨hposition, Nat.le_refl _⟩

/-- A request with a resume cursor starts again when rows after it were pruned, and else
continues. -/
theorem Table.replay_resume_eq (h : table.Formed) (hlimit : 1 ≤ limit)
    (hposition : position ≤ table.metadata.head)
    (hpage : table.replay projectId { limit, cursor := some (resumeCursor projectId
      table.metadata.generation position) } = .ok page) :
    page.resumeCursor = resumeCursor projectId table.metadata.generation page.cursor ∧
      page.cursor ≤ table.metadata.head ∧
      (page.reset = true ↔ position < table.metadata.pruned) ∧
      (page.reset = true → page.cursor = table.metadata.head) ∧
      (page.reset = false → Continues table position page) := by
  have hdecode : ReplayCursor.decode (resumeCursor projectId table.metadata.generation position)
      projectId table.metadata = .ok ⟨projectId, table.metadata.generation, position⟩ :=
    ReplayCursor.decode_eq_ok.mpr
      ⟨rfl, rfl, Nat.le_trans hposition h.head, fun _ => hposition⟩
  rw [Table.replay, ReplayPage.new_of_some rfl hdecode] at hpage
  by_cases hreset : position < table.metadata.pruned
  · rw [if_pos (.inr hreset)] at hpage
    cases hpage
    refine ⟨rfl, ReplayPage.finish_cursor fun record hrecord => (mem_selectReplay hrecord).2.2,
      iff_of_true rfl hreset, fun _ => rfl, by simp [ReplayPage.finish]⟩
  · rw [if_neg (by simpa using hreset)] at hpage
    cases hpage
    refine ⟨rfl, ReplayPage.finish_cursor fun record hrecord => (mem_selectReplay hrecord).2.2,
      iff_of_false (by simp [ReplayPage.finish]) hreset, by simp [ReplayPage.finish], fun _ => ?_⟩
    rw [selectReplay_some h]
    exact ReplayPage.finish_continues h hlimit hposition rfl rfl

/-- A request without a cursor ends at the head. -/
theorem Table.replay_first_eq
    (hpage : table.replay projectId { limit } = .ok page) :
    page.resumeCursor = resumeCursor projectId table.metadata.generation page.cursor ∧
      page.cursor = table.metadata.head := by
  rw [Table.replay, ReplayPage.new_of_none rfl] at hpage
  cases hpage
  exact ⟨rfl, rfl⟩

end Page

/-! ## Appended events -/

/-- A step appends a record, which it may prune at once. -/
inductive Store.Appends : Store ν → Store ν → TraceRecord ν → Prop
  | sqlite {store inserted next : Sqlite ν} {batch record} :
      Allocated store.sequence (batch.map Prod.fst) → store.insertEvents batch = .ok inserted →
      store.append batch = .ok next → record ∈ inserted.traces → record ∉ store.traces →
      Appends (.sqlite store) (.sqlite next) record
  | postgres {store next : Postgres ν} {batch record} : store.append batch = .ok next →
      record ∈ next.traces.map PostgresRow.record → record ∉ store.traces.map PostgresRow.record →
      Appends (.postgres store) (.postgres next) record

namespace Store

variable {store next : Store ν} {record : TraceRecord ν}

/-- An appended record is beyond the head, and stored unless it is pruned at once. -/
theorem Appends.beyond (h : Appends store next record) (hsound : store.Sound)
    (hid : record.event.trace.projectId ≠ "") :
    (store.table record.event.trace.projectId).metadata.head < record.sequence ∧
      (record ∈ (next.table record.event.trace.projectId).records ∨
        record.sequence ≤ (next.table record.event.trace.projectId).metadata.pruned) := by
  cases h with
  | sqlite hallocated hinserted happend hmem hnot =>
    obtain ⟨inserted, hinserted', -, hpruned⟩ := Sqlite.append_eq_ok happend
    cases hinserted.symm.trans hinserted'
    obtain ⟨hinsertedSound, hfollows⟩ := Sqlite.Sound.insertEvents hsound hallocated hinserted
    have hrow := Sqlite.mem_table.mpr ⟨hmem, rfl⟩
    constructor
    · by_contra hle
      have hold := (hfollows _).1.kept record hrow (Nat.le_of_not_lt hle)
      exact hnot (Sqlite.mem_table.mp hold).1
    · refine or_iff_not_imp_left.mpr fun hkept => ?_
      exact ((hpruned hinsertedSound).2 _ hid).1.removed record hrow hkept
  | postgres happend hmem hnot =>
    obtain ⟨-, -, hfollows⟩ := Postgres.Sound.grows hsound (Postgres.append_grows happend)
    obtain ⟨row, hrow, rfl⟩ := List.mem_map.mp hmem
    have hstored := Postgres.mem_table.mpr ⟨row, hrow, rfl, rfl⟩
    refine ⟨?_, .inl hstored⟩
    by_contra hle
    have hold := (hfollows _).1.kept row.record hstored (Nat.le_of_not_lt hle)
    obtain ⟨old, hold, -, heq⟩ := Postgres.mem_table.mp hold
    exact hnot (List.mem_map.mpr ⟨old, hold, heq⟩)

theorem projectId_of_mem {projectId : String} (h : record ∈ (store.table projectId).records) :
    record.event.trace.projectId = projectId := by
  cases store with
  | sqlite store => exact (Sqlite.mem_table.mp h).2
  | postgres store =>
    obtain ⟨row, -, hid, rfl⟩ := Postgres.mem_table.mp h
    exact hid

/-- Rows enter a table only by appends. -/
theorem appends_of_mem {projectId : String} (hstep : Relation.ReflGen Step store next)
    (hmem : record ∈ (next.table projectId).records)
    (hnot : record ∉ (store.table projectId).records) : Appends store next record := by
  cases hstep with
  | refl => exact absurd hmem hnot
  | single hstep =>
    cases hstep with
    | sqlite hallocated happend =>
      obtain ⟨inserted, hinserted, hsub, -⟩ := Sqlite.append_eq_ok happend
      obtain ⟨hrow, hid⟩ := Sqlite.mem_table.mp hmem
      exact .sqlite hallocated hinserted happend (hsub hrow) fun hold =>
        hnot (Sqlite.mem_table.mpr ⟨hold, hid⟩)
    | append happend =>
      obtain ⟨row, hrow, hid, rfl⟩ := Postgres.mem_table.mp hmem
      refine .postgres happend (List.mem_map.mpr ⟨row, hrow, rfl⟩) fun hold => ?_
      obtain ⟨old, hold, heq⟩ := List.mem_map.mp hold
      refine hnot (Postgres.mem_table.mpr ⟨old, hold, ?_, heq⟩)
      rw [← hid, PostgresRow.projectId, heq, PostgresRow.projectId]
    | select _ => exact absurd hmem hnot
    | delete _ =>
      obtain ⟨row, hrow, hid, heq⟩ := Postgres.mem_table.mp hmem
      exact absurd (Postgres.mem_table.mpr ⟨row, (Postgres.mem_delete.mp hrow).1, hid, heq⟩) hnot

end Store

/-! ## Subscribers -/

/-- The pages of a subscriber, whose requests find the given stores. -/
def subscribe (store : Nat → Store ν) (projectId : String) (limit : Nat → Nat) :
    Nat → Except Error (TracePage ν)
  | 0 => (store 0).replay projectId { limit := limit 0 }
  | n + 1 => do
      let page ← subscribe store projectId limit n
      (store (n + 1)).replay projectId { limit := limit (n + 1), cursor := some page.resumeCursor }

/-- What a subscriber received with the pages after a given one. -/
def received (pages : Nat → TracePage ν) (first n : Nat) : List (TraceRecord ν) :=
  (List.range n).flatMap fun i => (pages (first + i + 1)).records

theorem received_succ (pages : Nat → TracePage ν) (first n : Nat) :
    received pages first (n + 1) = received pages first n ++ (pages (first + n + 1)).records := by
  rw [received, List.range_succ, List.flatMap_append, List.flatMap_singleton, received]

/-- A run of a store, from any reachable state. -/
structure Run (ν : Type) where
  state : Nat → Store ν
  reachable : (state 0).Reachable
  step : ∀ k, Relation.ReflGen Store.Step (state k) (state (k + 1))

namespace Run

variable (run : Run ν)

theorem steps {j k : Nat} (h : j ≤ k) :
    Relation.ReflTransGen Store.Step (run.state j) (run.state k) := by
  induction k, h using Nat.le_induction with
  | base => exact .refl
  | succ k _ ih => exact ih.trans (run.step k).to_reflTransGen

theorem reachable_state (k : Nat) : (run.state k).Reachable := by
  obtain ⟨initial, hinitial, hrun⟩ := run.reachable
  exact ⟨initial, hinitial, hrun.trans (run.steps (Nat.zero_le k))⟩

theorem follows {j k : Nat} (h : j ≤ k) {projectId : String} (hid : projectId ≠ "") :
    Follows ((run.state j).table projectId) ((run.state k).table projectId) :=
  ((run.reachable_state j).sound.run (run.steps h)).2 projectId hid

/-- A stored event beyond the head of an earlier state was appended since. -/
theorem appended_of_mem {j k : Nat} {projectId : String} {record : TraceRecord ν} (hjk : j ≤ k)
    (hid : projectId ≠ "")
    (hmem : record ∈ ((run.state k).table projectId).records)
    (hhead : ((run.state j).table projectId).metadata.head < record.sequence) :
    ∃ i, j ≤ i ∧ i < k ∧ Store.Appends (run.state i) (run.state (i + 1)) record := by
  induction k, hjk using Nat.le_induction with
  | base =>
    have hle := (((run.reachable_state j).sound.formed hid).positions record hmem).2
    exact absurd hhead (Nat.not_lt.mpr hle)
  | succ k hjk ih =>
    by_cases hbefore : record ∈ ((run.state k).table projectId).records
    · obtain ⟨i, hji, hik, happends⟩ := ih hbefore
      exact ⟨i, hji, Nat.lt_succ_of_lt hik, happends⟩
    · exact ⟨k, hjk, Nat.lt_succ_self k, Store.appends_of_mem (run.step k) hmem hbefore⟩

/-- An event that was appended stays, unless the pruned mark passes it. -/
theorem appended_later {j k : Nat} {record : TraceRecord ν} (hjk : j < k)
    (hid : record.event.trace.projectId ≠ "")
    (h : Store.Appends (run.state j) (run.state (j + 1)) record) :
    record ∈ ((run.state k).table record.event.trace.projectId).records ∨
      record.sequence ≤ ((run.state k).table record.event.trace.projectId).metadata.pruned := by
  have hfollows := run.follows hjk hid
  rcases (h.beyond (run.reachable_state j).sound hid).2 with hmem | hpruned
  · by_cases hkept : record ∈ ((run.state k).table record.event.trace.projectId).records
    · exact .inl hkept
    · exact .inr (hfollows.removed record hmem hkept)
  · exact .inr (Nat.le_trans hpruned hfollows.pruned)

end Run

/-- A valid request without a cursor is answered. -/
theorem Store.replay_first (store : Store ν) {projectId : String} {limit : Nat}
    (hproject : validateComponent "project ID" projectId 64 = .ok ())
    (hlimit : 1 ≤ limit ∧ limit ≤ traceCapacity) :
    ∃ page, store.replay projectId { limit } = .ok page := by
  have hvalid : ReplayQuery.validate { limit } = .ok () := by
    simp only [ReplayQuery.validate, bind_eq_ok, ensure_eq_ok]
    exact ⟨hlimit, by simp⟩
  obtain ⟨page, hpage⟩ : ∃ page, (store.table projectId).replay projectId { limit } = .ok page := by
    rw [Table.replay, ReplayPage.new_of_none rfl]
    exact ⟨_, rfl⟩
  exact ⟨page, Store.replay_eq_ok.mpr ⟨hproject, hvalid, hpage⟩⟩

section Subscriber

variable {run : Run ν} {time limit : Nat → Nat} {projectId : String}

/-- The table that a request finds. -/
def Run.tableAt (run : Run ν) (time : Nat → Nat) (projectId : String) (n : Nat) : Table ν :=
  (run.state (time n)).table projectId

/-- The pages of a subscriber: each ends at or before the head, and each follows the one before. -/
structure Pages (run : Run ν) (time : Nat → Nat) (projectId : String)
    (pages : Nat → TracePage ν) : Prop where
  first : (pages 0).cursor = (run.tableAt time projectId 0).metadata.head
  bound : ∀ n, (pages n).cursor ≤ (run.tableAt time projectId n).metadata.head
  reset : ∀ n, (pages (n + 1)).reset = true ↔
    (pages n).cursor < (run.tableAt time projectId (n + 1)).metadata.pruned
  restart : ∀ n, (pages (n + 1)).reset = true →
    (pages (n + 1)).cursor = (run.tableAt time projectId (n + 1)).metadata.head
  next : ∀ n, (pages (n + 1)).reset = false →
    Continues (run.tableAt time projectId (n + 1)) (pages n).cursor (pages (n + 1))

/-- Every request of a subscriber is answered. -/
theorem subscribe_pages (run : Run ν) (htime : Monotone time)
    (hproject : validateComponent "project ID" projectId 64 = .ok ())
    (hlimit : ∀ n, 1 ≤ limit n ∧ limit n ≤ traceCapacity) :
    ∃ pages, (∀ n, subscribe (fun n => run.state (time n)) projectId limit n = .ok (pages n)) ∧
      Pages run time projectId pages := by
  have hid := (validateComponent_eq_ok hproject).1
  have hformed (n : Nat) : (run.tableAt time projectId n).Formed :=
    (run.reachable_state (time n)).sound.formed hid
  have hfollows (n : Nat) :
      Follows (run.tableAt time projectId n) (run.tableAt time projectId (n + 1)) :=
    run.follows (htime (Nat.le_succ n)) hid
  -- a page that ends at or before the head has a successor
  have hsucc (n : Nat) (page : TracePage ν)
      (hpage : page.resumeCursor = resumeCursor projectId
        (run.tableAt time projectId n).metadata.generation page.cursor)
      (hbound : page.cursor ≤ (run.tableAt time projectId n).metadata.head) :
      ∃ next, (run.state (time (n + 1))).replay projectId
          { limit := limit (n + 1), cursor := some page.resumeCursor } = .ok next ∧
        (run.tableAt time projectId (n + 1)).replay projectId
          { limit := limit (n + 1), cursor := some (resumeCursor projectId
            (run.tableAt time projectId (n + 1)).metadata.generation page.cursor) } = .ok next := by
    have hok := Store.replay_resume (hformed n) ((run.reachable_state (time n)).generation hid)
      (hfollows n) hproject hbound (hlimit (n + 1))
    obtain ⟨next, hnext⟩ := isOk_iff.mp hok
    refine ⟨next, by rw [hpage]; exact hnext, ?_⟩
    rw [(hfollows n).generation]
    exact (Store.replay_eq_ok.mp hnext).2.2
  have hpages (n : Nat) : ∃ page,
      subscribe (fun n => run.state (time n)) projectId limit n = .ok page ∧
        page.resumeCursor = resumeCursor projectId
          (run.tableAt time projectId n).metadata.generation page.cursor ∧
        page.cursor ≤ (run.tableAt time projectId n).metadata.head := by
    induction n with
    | zero =>
      obtain ⟨page, hpage⟩ := Store.replay_first (run.state (time 0)) hproject (hlimit 0)
      have hfacts := Table.replay_first_eq (Store.replay_eq_ok.mp hpage).2.2
      exact ⟨page, hpage, hfacts.1, Nat.le_of_eq hfacts.2⟩
    | succ n ih =>
      obtain ⟨page, hpage, hresume, hbound⟩ := ih
      obtain ⟨next, hnext, htable⟩ := hsucc n page hresume hbound
      have hfacts := Table.replay_resume_eq (hformed (n + 1)) (hlimit (n + 1)).1
        (Nat.le_trans hbound (hfollows n).head) htable
      refine ⟨next, ?_, hfacts.1, hfacts.2.1⟩
      rw [subscribe, hpage]
      exact hnext
  choose pages hpages hresume hbound using hpages
  have hfirst := Table.replay_first_eq (Store.replay_eq_ok.mp (hpages 0)).2.2
  have htable (n : Nat) : (run.tableAt time projectId (n + 1)).replay projectId
      { limit := limit (n + 1), cursor := some (resumeCursor projectId
        (run.tableAt time projectId (n + 1)).metadata.generation (pages n).cursor) } =
        .ok (pages (n + 1)) := by
    obtain ⟨next, hnext, htable⟩ := hsucc n (pages n) (hresume n) (hbound n)
    have hpage := hpages (n + 1)
    rw [subscribe, hpages n] at hpage
    cases hnext.symm.trans hpage
    exact htable
  have hnext (n : Nat) := Table.replay_resume_eq (hformed (n + 1)) (hlimit (n + 1)).1
    (Nat.le_trans (hbound n) (hfollows n).head) (htable n)
  exact ⟨pages, hpages, hfirst.2, hbound, fun n => (hnext n).2.2.1, fun n => (hnext n).2.2.2.1,
    fun n => (hnext n).2.2.2.2⟩

section Received

variable {pages : Nat → TracePage ν} {first n : Nat}

/-- The head of the table at which a subscriber started. -/
theorem Pages.first_cursor (h : Pages run time projectId pages)
    (hfirst : first = 0 ∨ (pages first).reset = true) :
    (pages first).cursor = (run.tableAt time projectId first).metadata.head := by
  cases first with
  | zero => exact h.first
  | succ first =>
    rcases hfirst with hzero | hreset
    · cases hzero
    · exact h.restart first hreset

/-- What a subscriber received is between its first and its last position, in order. -/
theorem Pages.received_sorted (h : Pages run time projectId pages)
    (hreset : ∀ i < n, (pages (first + i + 1)).reset = false) :
    (received pages first n).Pairwise (fun a b => a.sequence < b.sequence) ∧
      (pages first).cursor ≤ (pages (first + n)).cursor ∧
      ∀ record ∈ received pages first n, (pages first).cursor < record.sequence ∧
        record.sequence ≤ (pages (first + n)).cursor ∧
        ∃ i < n, record ∈ (run.tableAt time projectId (first + i + 1)).records := by
  induction n with
  | zero => exact ⟨.nil, Nat.le_refl _, by simp [received]⟩
  | succ n ih =>
    obtain ⟨hsorted, hle, hrecords⟩ := ih fun i hi => hreset i (Nat.lt_succ_of_lt hi)
    have hnext := h.next (first + n) (hreset n (Nat.lt_succ_self n))
    refine ⟨?_, Nat.le_trans hle hnext.bounds.1, fun record hrecord => ?_⟩
    · rw [received_succ]
      refine List.pairwise_append.mpr ⟨hsorted, hnext.ascending, fun old hold new hnew => ?_⟩
      exact Nat.lt_of_le_of_lt (hrecords old hold).2.1 (hnext.records new hnew).2.1
    · rw [received_succ] at hrecord
      rcases List.mem_append.mp hrecord with hold | hnew
      · obtain ⟨hbelow, habove, i, hi, hmem⟩ := hrecords record hold
        exact ⟨hbelow, Nat.le_trans habove hnext.bounds.1, i, Nat.lt_succ_of_lt hi, hmem⟩
      · obtain ⟨hmem, hbelow, habove⟩ := hnext.records record hnew
        exact ⟨Nat.lt_of_le_of_lt hle hbelow, habove, n, Nat.lt_succ_self n, hmem⟩

/-- An event that a request does not find any more, though the subscriber has not passed it, was
pruned, and the page says so. -/
theorem Pages.reset_of_pruned (h : Pages run time projectId pages) {k : Nat}
    {record : TraceRecord ν} (happends : Store.Appends (run.state k) (run.state (k + 1)) record)
    (hproject : record.event.trace.projectId = projectId) (hid : projectId ≠ "")
    (hk : k < time (n + 1)) (hbeyond : (pages n).cursor < record.sequence)
    (hgone : record ∉ (run.tableAt time projectId (n + 1)).records) :
    (pages (n + 1)).reset = true := by
  subst hproject
  rw [h.reset]
  rcases run.appended_later hk hid happends with hmem | hpruned
  · exact absurd hmem hgone
  · exact Nat.lt_of_lt_of_le hbeyond hpruned

/-- A subscriber that passed an event received it. -/
theorem Pages.mem_received (h : Pages run time projectId pages)
    (hid : projectId ≠ "") (hfirst : first = 0 ∨ (pages first).reset = true)
    (hreset : ∀ i < n, (pages (first + i + 1)).reset = false) {k : Nat} {record : TraceRecord ν}
    (happends : Store.Appends (run.state k) (run.state (k + 1)) record)
    (hproject : record.event.trace.projectId = projectId) (hk : time first ≤ k)
    (hpassed : record.sequence ≤ (pages (first + n)).cursor) :
    record ∈ received pages first n := by
  have hhead : ∀ j, time j ≤ k →
      (run.tableAt time projectId j).metadata.head < record.sequence := by
    intro j hj
    have hbeyond := (happends.beyond (run.reachable_state k).sound (hproject ▸ hid)).1
    rw [hproject] at hbeyond
    exact Nat.lt_of_le_of_lt (run.follows hj hid).head hbeyond
  induction n with
  | zero =>
    rw [Nat.add_zero, h.first_cursor hfirst] at hpassed
    exact absurd (hhead first hk) (Nat.not_lt.mpr hpassed)
  | succ n ih =>
    rw [received_succ]
    by_cases hbefore : record.sequence ≤ (pages (first + n)).cursor
    · exact List.mem_append_left _ (ih (fun i hi => hreset i (Nat.lt_succ_of_lt hi)) hbefore)
    · refine List.mem_append_right _ ?_
      have hnoreset := hreset n (Nat.lt_succ_self n)
      have hnext := h.next (first + n) hnoreset
      have hlater : k < time (first + n + 1) := by
        by_contra hle
        have hlt := hhead (first + n + 1) (Nat.le_of_not_lt hle)
        exact absurd (Nat.le_trans hpassed (h.bound (first + n + 1))) (Nat.not_le.mpr hlt)
      by_contra hmissing
      have hgone : record ∉ (run.tableAt time projectId (first + n + 1)).records := fun hmem =>
        hmissing (hnext.complete record hmem (Nat.lt_of_not_le hbefore) hpassed)
      have hset := h.reset_of_pruned happends hproject hid hlater (Nat.lt_of_not_le hbefore) hgone
      rw [hnoreset] at hset
      cases hset

/-- A subscriber passes every event that was appended, after as many requests as its position. -/
theorem Pages.passes (h : Pages run time projectId pages) (htime : Monotone time)
    (hid : projectId ≠ "") (hreset : ∀ i < n, (pages (first + i + 1)).reset = false) {k m : Nat}
    {record : TraceRecord ν}
    (happends : Store.Appends (run.state k) (run.state (k + 1)) record)
    (hproject : record.event.trace.projectId = projectId) (hm : k < time (first + m))
    (hn : m + record.sequence ≤ n) : record.sequence ≤ (pages (first + n)).cursor := by
  have hhead (j : Nat) (hj : first + m ≤ j) :
      record.sequence ≤ (run.tableAt time projectId j).metadata.head := by
    subst hproject
    have hk := Nat.lt_of_lt_of_le hm (htime hj)
    have hformed := (run.reachable_state (time j)).sound.formed hid
    rcases run.appended_later hk hid happends with hmem | hpruned
    · exact (hformed.positions record hmem).2
    · exact Nat.le_trans hpruned hformed.pruned
  -- each page reaches the head or gains a position
  have hgain (j : Nat) (hj : m + j ≤ n) :
      min record.sequence j ≤ (pages (first + (m + j))).cursor := by
    induction j with
    | zero => simp
    | succ j ih =>
      have hbefore := ih (by omega)
      have hnext := h.next (first + (m + j)) (hreset (m + j) (by omega))
      rcases hnext.progress with hcursor | hlt
      · have hle := hhead (first + (m + j) + 1) (by omega)
        rw [← hcursor] at hle
        exact Nat.le_trans (Nat.min_le_left _ _) hle
      · change min record.sequence (j + 1) ≤ (pages (first + (m + j) + 1)).cursor
        omega
  have hlast := hgain (n - m) (by omega)
  rw [Nat.add_sub_cancel' (by omega)] at hlast
  omega

end Received

/-- The stores that a subscriber finds whose first request precedes two traced ones. -/
def beforeAndAfter (n : Nat) : Store Nat :=
  if n = 0 then .sqlite emptySqlite else .sqlite (twoRequests 1000 2000)

end Subscriber

end Traces
end DurableActors
