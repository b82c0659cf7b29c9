import DurableActors.Traces.Tables

/-!
# Cursors sent back

A page hands out cursors, and a later request sends them back.  The checks on the way in are written
separately from what the encoder can produce.

Main results:

- Theorem {lit}`issued_cursors_accepted`: a replay cursor is always accepted; a history cursor
  exactly when the last record of its page started early enough and its text is short enough.
- Theorem {lit}`issued_cursor_refused`: a page of a valid store whose cursor is refused.
-/

namespace DurableActors
namespace Traces

variable {ν : Type}

/-! ## Requests that pass -/

theorem invalidUnless_eq_ok {check : Except Error Unit} :
    invalidUnless check = .ok () ↔ check = .ok () := by
  cases check <;> simp [invalidUnless, Except.mapError]

theorem isOk_iff {α : Type} {result : Except Error α} :
    result.isOk ↔ ∃ value, result = .ok value := by
  cases result <;> simp [Except.isOk, Except.toBool]

theorem mem_toOption {α : Type} {result : Except Error α} {value : α} :
    value ∈ result.toOption ↔ result = .ok value := by
  cases result <;> simp [Except.toOption]

theorem Store.history_eq_ok {store : Store ν} {projectId : String} {query : HistoryQuery}
    {page : TracePage ν} :
    store.history projectId query = .ok page ↔
      validateComponent "project ID" projectId 64 = .ok () ∧ query.validate = .ok () ∧
        (store.table projectId).history projectId query = .ok page := by
  rw [← invalidUnless_eq_ok, ← @invalidUnless_eq_ok query.validate, Store.history]
  cases invalidUnless (validateComponent "project ID" projectId 64) <;>
    cases invalidUnless query.validate <;> simp [bind, Except.bind]

theorem Store.replay_eq_ok {store : Store ν} {projectId : String} {query : ReplayQuery}
    {page : TracePage ν} :
    store.replay projectId query = .ok page ↔
      validateComponent "project ID" projectId 64 = .ok () ∧ query.validate = .ok () ∧
        (store.table projectId).replay projectId query = .ok page := by
  rw [← invalidUnless_eq_ok, ← @invalidUnless_eq_ok query.validate, Store.replay]
  cases invalidUnless (validateComponent "project ID" projectId 64) <;>
    cases invalidUnless query.validate <;> simp [bind, Except.bind]

/-- A valid name is not empty, and takes one byte for each character. -/
theorem validateComponent_eq_ok {name value : String} {maximum : Nat}
    (h : validateComponent name value maximum = .ok ()) :
    value ≠ "" ∧ value.utf8ByteSize ≤ maximum ∧
      ∀ c ∈ value.toList, c.isAlphanum ∨ c = '.' ∨ c = '_' ∨ c = '-' := by
  unfold validateComponent at h
  split at h
  · cases h
  split at h
  · cases h
  split at h
  · cases h
  rename_i hempty hsize hall
  refine ⟨fun heq => hempty (by simp [heq]), Nat.le_of_not_lt hsize, fun c hc => ?_⟩
  simp only [Bool.not_eq_true', Bool.not_eq_false] at hall
  simpa [or_assoc] using List.all_eq_true.mp hall c hc

/-! ## Sizes -/

/-- A character of names: its code is between those of '-' and 'z', and is not that of '\\'. -/
def Plain (c : Char) : Prop := c.isAlphanum ∨ c = '.' ∨ c = '_' ∨ c = '-'

theorem Plain.toNat {c : Char} (h : Plain c) : 45 ≤ c.toNat ∧ c.toNat ≤ 122 ∧ c.toNat ≠ 92 := by
  rcases h with h | rfl | rfl | rfl
  · simp only [Char.isAlphanum, Char.isAlpha, Char.isUpper, Char.isLower, Char.isDigit,
      Bool.or_eq_true, Bool.and_eq_true, decide_eq_true_eq, UInt32.le_iff_toNat_le] at h
    have : c.toNat = c.val.toNat := rfl
    simp at h
    omega
  all_goals decide

theorem Plain.jsonCharBytes {c : Char} (h : Plain c) : jsonCharBytes c = 1 := by
  obtain ⟨hlow, hhigh, hslash⟩ := h.toNat
  have hne : c ∉ ['"', '\\', '\n', '\r', '\t', Char.ofNat 8, Char.ofNat 12] := by
    intro hmem
    simp only [List.mem_cons, List.not_mem_nil, or_false] at hmem
    rcases hmem with rfl | rfl | rfl | rfl | rfl | rfl | rfl
    all_goals revert hlow hslash; decide
  have hsize : c.utf8Size = 1 := Char.utf8Size_eq_one_iff.mpr (by
    rw [UInt32.le_iff_toNat_le]
    exact Nat.le_trans hhigh (by decide))
  rw [DurableActors.jsonCharBytes, if_neg hne, if_neg (by omega), hsize]

/-- The bytes of a text are at least its characters. -/
theorem length_le_utf8ByteSize (text : String) : text.toList.length ≤ text.utf8ByteSize := by
  have hlen : ∀ chars : List Char, chars.length ≤ String.utf8Len chars := by
    intro chars
    induction chars with
    | nil => exact Nat.zero_le _
    | cons c rest ih =>
      have := c.utf8Size_pos
      rw [List.length_cons, String.utf8Len_cons]
      omega
  have hsize := String.utf8ByteSize_ofList text.toList
  rw [String.ofList_toList] at hsize
  rw [hsize]
  exact hlen _

/-- A plain text in JSON is two bytes longer. -/
theorem jsonStringBytes_le {text : String} (h : ∀ c ∈ text.toList, Plain c) :
    jsonStringBytes text ≤ 2 + text.utf8ByteSize := by
  have hmap : text.toList.map jsonCharBytes = text.toList.map fun _ => 1 :=
    List.map_congr_left fun c hc => (h c hc).jsonCharBytes
  have hlength := length_le_utf8ByteSize text
  have hsum : (text.toList.map fun _ => 1).sum = text.toList.length := by simp
  rw [jsonStringBytes, hmap, hsum]
  omega

theorem numberBytes_le {n : Nat} (h : n ≤ maxI64) : numberBytes n ≤ 19 :=
  Nat.toDigits_length 10 n 19 (by decide) (Nat.lt_of_le_of_lt h (by decide))

/-- The limit on cursor texts is one of 3072 bytes before base64. -/
theorem base64Length_le {bytes : Nat} : base64Length bytes ≤ 4096 ↔ bytes ≤ 3072 := by
  rw [base64Length]
  omega

theorem base64Length_ne_zero {bytes : Nat} (h : 0 < bytes) : base64Length bytes ≠ 0 := by
  rw [base64Length]
  omega

/-! ## Pages -/

/-- A generation in a cursor. -/
def PlainGeneration (generation : String) : Prop :=
  generation ≠ "" ∧ generation.utf8ByteSize ≤ 36 ∧ ∀ c ∈ generation.toList, Plain c

theorem Store.Initial.generation {store : Store ν} (h : store.Initial) (projectId : String) :
    PlainGeneration (store.table projectId).metadata.generation := by
  cases h with
  | sqlite huuid =>
    obtain ⟨hsize, hchars⟩ := huuid
    refine ⟨?_, Nat.le_of_eq hsize, fun c hc => (hchars c hc).imp_right fun h => .inr (.inr h)⟩
    rintro hempty
    simp [Store.table, Sqlite.table] at hempty
    simp [hempty] at hsize
  | postgres =>
    have hall : "postgres".toList.all (·.isAlphanum) = true := by decide +kernel
    have hchars : ∀ c ∈ "postgres".toList, c.isAlphanum = true := List.all_eq_true.mp hall
    have hplain : PlainGeneration "postgres" :=
      ⟨by decide, by decide +kernel, fun c hc => .inl (hchars c hc)⟩
    exact hplain

section HistoryPage

variable {projectId : String} {query : HistoryQuery} {metadata : Metadata}

theorem HistoryPage.new_of_none (h : query.cursor = none) :
    HistoryPage.new projectId query metadata =
      .ok { projectId, metadata, filters := query.filterKey, after := none
            watermark := metadata.head, reset := false } := by
  rw [HistoryPage.new, h]
  rfl

/-- A page from an accepted cursor: it starts again when rows were pruned in between. -/
theorem HistoryPage.new_of_some {value : Cursor} {cursor : HistoryCursor}
    (h : query.cursor = some value)
    (hdecode : HistoryCursor.decode value projectId query.filterKey metadata = .ok cursor) :
    HistoryPage.new projectId query metadata =
      .ok (if cursor.generation ≠ metadata.generation ∨ cursor.pruned < metadata.pruned then
          { projectId, metadata, filters := query.filterKey, after := none
            watermark := metadata.head, reset := true }
        else
          { projectId, metadata, filters := query.filterKey, after := some cursor
            watermark := cursor.watermark, reset := false }) := by
  have hmap : query.cursor.mapM (fun value =>
      HistoryCursor.decode value projectId query.filterKey metadata) = .ok (some cursor) := by
    rw [h, Option.mapM_some, hdecode]
    rfl
  rw [HistoryPage.new, hmap]
  by_cases hreset : cursor.generation ≠ metadata.generation ∨ cursor.pruned < metadata.pruned
  · rw [if_pos hreset]
    simp only [Option.any_some, decide_eq_true hreset, bind, Except.bind]
    rfl
  · rw [if_neg hreset]
    simp only [Option.any_some, decide_eq_false hreset, bind, Except.bind]
    rfl

theorem HistoryPage.new_eq_ok {page : HistoryPage}
    (h : HistoryPage.new projectId query metadata = .ok page) :
    query.cursor = none ∨ ∃ value cursor, query.cursor = some value ∧
      HistoryCursor.decode value projectId query.filterKey metadata = .ok cursor := by
  cases hcursor : query.cursor with
  | none => exact .inl rfl
  | some value =>
    cases hdecode : HistoryCursor.decode value projectId query.filterKey metadata with
    | ok cursor => exact .inr ⟨value, cursor, rfl, hdecode⟩
    | error error =>
      have hmap : query.cursor.mapM (fun value =>
          HistoryCursor.decode value projectId query.filterKey metadata) = .error error := by
        rw [hcursor, Option.mapM_some, hdecode]
        rfl
      rw [HistoryPage.new, hmap] at h
      cases h

/-- What {lit}`decode` checks. -/
theorem HistoryCursor.decode_eq_ok {value : Cursor} {filters : String} {cursor : HistoryCursor} :
    HistoryCursor.decode value projectId filters metadata = .ok cursor ↔
      value.history = some cursor ∧ cursor.projectId = projectId ∧ cursor.generation ≠ "" ∧
        cursor.generation.utf8ByteSize ≤ 64 ∧ cursor.watermark ≤ maxI64 ∧
        cursor.pruned ≤ cursor.watermark ∧ 0 < cursor.sequence ∧
        cursor.sequence ≤ cursor.watermark ∧ cursor.time ≤ maxTimestamp ∧
        cursor.filters = filters ∧ (cursor.generation = metadata.generation →
          cursor.watermark ≤ metadata.head ∧ cursor.pruned ≤ metadata.pruned) := by
  unfold HistoryCursor.decode
  split
  · rename_i hnone
    simp [hnone]
  · rename_i found hfound
    rw [hfound, Option.some.injEq]
    split
    · rename_i hrefused
      refine ⟨nofun, ?_⟩
      rintro ⟨rfl, haccepted⟩
      refine absurd hrefused ?_
      simpa only [String.isEmpty_iff, ne_eq, not_or, not_not, Nat.not_lt, not_and,
        Nat.pos_iff_ne_zero] using haccepted
    · rename_i haccepted
      rw [Except.ok.injEq]
      refine ⟨?_, And.left⟩
      rintro rfl
      refine ⟨rfl, ?_⟩
      simpa only [String.isEmpty_iff, ne_eq, not_or, not_not, Nat.not_lt, not_and,
        Nat.pos_iff_ne_zero] using haccepted

/-- The watermark of a page is between the pruned mark and the head. -/
theorem HistoryPage.new_bounds {page : HistoryPage} (hpruned : metadata.pruned ≤ metadata.head)
    (h : HistoryPage.new projectId query metadata = .ok page) :
    page.projectId = projectId ∧ page.metadata = metadata ∧ page.filters = query.filterKey ∧
      metadata.pruned ≤ page.watermark ∧ page.watermark ≤ metadata.head := by
  rcases HistoryPage.new_eq_ok h with hnone | ⟨value, cursor, hsome, hdecode⟩
  · rw [HistoryPage.new_of_none hnone] at h
    cases h
    exact ⟨rfl, rfl, rfl, hpruned, Nat.le_refl _⟩
  · rw [HistoryPage.new_of_some hsome hdecode] at h
    obtain ⟨-, -, -, -, -, hle, -, -, -, -, hmarks⟩ := HistoryCursor.decode_eq_ok.mp hdecode
    split at h
    · cases h
      exact ⟨rfl, rfl, rfl, hpruned, Nat.le_refl _⟩
    · rename_i hreset
      cases h
      simp only [not_or, not_not, Nat.not_lt] at hreset
      refine ⟨rfl, rfl, rfl, Nat.le_trans hreset.2 hle, (hmarks hreset.1).1⟩

end HistoryPage

/-- The cursor is checked apart from the rest of a query. -/
theorem HistoryQuery.validate_cursor {query : HistoryQuery} (h : query.validate = .ok ())
    (cursor : Cursor) :
    { query with cursor := some cursor }.validate = .ok () ↔
      cursor.length ≠ 0 ∧ cursor.length ≤ 4096 := by
  simp only [HistoryQuery.validate, bind_eq_ok, ensure_eq_ok] at h ⊢
  obtain ⟨hids, hlimit, -, htimes, hrange, hkey⟩ := h
  constructor
  · rintro ⟨-, -, hcursor, -⟩
    exact hcursor cursor rfl
  · intro hcursor
    refine ⟨hids, hlimit, ?_, htimes, hrange, hkey⟩
    rintro _ ⟨⟩
    exact hcursor

section Pages

variable {table later : Table ν} {projectId : String} {query : HistoryQuery} {page : TracePage ν}

theorem Table.history_eq_ok :
    table.history projectId query = .ok page ↔
      ∃ start, HistoryPage.new projectId query table.metadata = .ok start ∧
        start.finish query.limit
          (selectHistory table.records query start.watermark start.after) = page := by
  rw [Table.history]
  cases HistoryPage.new projectId query table.metadata <;>
    simp [bind, Except.bind, pure, Except.pure]

/-- A page with a next cursor was cut after its last record. -/
theorem HistoryPage.finish_nextCursor {start : HistoryPage} {limit : Nat}
    {records : List (TraceRecord ν)} {cursor : Cursor}
    (h : (start.finish limit records).nextCursor = some cursor) :
    limit < records.length ∧ ∃ last, (records.take limit).getLast? = some last ∧
      cursor = (start.next last).encode := by
  simp only [HistoryPage.finish] at h
  split at h
  · rename_i hmore
    obtain ⟨last, hlast, rfl⟩ := Option.map_eq_some_iff.mp h
    exact ⟨hmore, last, hlast, rfl⟩
  · cases h

theorem mem_selectHistory {records : List (TraceRecord ν)} {watermark : Nat}
    {after : Option HistoryCursor} {record : TraceRecord ν}
    (h : record ∈ selectHistory records query watermark after) :
    record ∈ records ∧ record.sequence ≤ watermark := by
  have hmem := (Paging.mem_descending TraceRecord.key).mp (List.mem_of_mem_take h)
  simp only [List.mem_filter, Bool.and_eq_true, decide_eq_true_eq] at hmem
  exact ⟨hmem.1, hmem.2.1.1⟩

/-- The log accepts a cursor that it issued, unless its time is too large. -/
theorem decode_next {start : HistoryPage} {last : TraceRecord ν} (hformed : table.Formed)
    (hgeneration : PlainGeneration table.metadata.generation) (hfollows : Follows table later)
    (hstart : HistoryPage.new projectId query table.metadata = .ok start)
    (hlast : last ∈ selectHistory table.records query start.watermark start.after) :
    (∃ cursor, HistoryCursor.decode (start.next last).encode projectId query.filterKey
        later.metadata = .ok cursor) ↔ last.event.trace.startedAtMs ≤ maxTimestamp := by
  obtain ⟨hproject, hmetadata, hfilters, hpruned, hhead⟩ :=
    HistoryPage.new_bounds hformed.pruned hstart
  obtain ⟨hmem, hwatermark⟩ := mem_selectHistory hlast
  obtain ⟨hnonempty, hsize, -⟩ := hgeneration
  constructor
  · rintro ⟨cursor, hdecode⟩
    obtain ⟨hcursor, -, -, -, -, -, -, -, htime, -⟩ := HistoryCursor.decode_eq_ok.mp hdecode
    cases hcursor
    exact htime
  · intro htime
    refine ⟨start.next last, HistoryCursor.decode_eq_ok.mpr ⟨rfl, hproject, ?_⟩⟩
    simp only [HistoryPage.next, hmetadata, hfilters]
    refine ⟨hnonempty, by omega, Nat.le_trans hhead hformed.head, hpruned,
      (hformed.positions last hmem).1, hwatermark, htime, trivial, fun _ => ?_⟩
    exact ⟨Nat.le_trans hhead hfollows.head, hfollows.pruned⟩

theorem ReplayCursor.decode_eq_ok {value : Cursor} {metadata : Metadata} {cursor : ReplayCursor} :
    ReplayCursor.decode value projectId metadata = .ok cursor ↔
      value.replay = some cursor ∧ cursor.projectId = projectId ∧ cursor.position ≤ maxI64 ∧
        (cursor.generation = metadata.generation → cursor.position ≤ metadata.head) := by
  unfold ReplayCursor.decode
  split
  · rename_i hnone
    simp [hnone]
  · rename_i found hfound
    rw [hfound, Option.some.injEq]
    split
    · rename_i hrefused
      refine ⟨nofun, ?_⟩
      rintro ⟨rfl, haccepted⟩
      refine absurd hrefused ?_
      simpa only [ne_eq, not_or, not_not, Nat.not_lt, not_and] using haccepted
    · rename_i haccepted
      rw [Except.ok.injEq]
      refine ⟨?_, And.left⟩
      rintro rfl
      refine ⟨rfl, ?_⟩
      simpa only [ne_eq, not_or, not_not, Nat.not_lt, not_and] using haccepted

/-- A page from an accepted cursor: it starts again when rows after the cursor were pruned. -/
theorem ReplayPage.new_of_some {query : ReplayQuery} {metadata : Metadata} {value : Cursor}
    {cursor : ReplayCursor} (h : query.cursor = some value)
    (hdecode : ReplayCursor.decode value projectId metadata = .ok cursor) :
    ReplayPage.new projectId query metadata =
      .ok (if cursor.generation ≠ metadata.generation ∨ cursor.position < metadata.pruned then
          { projectId, metadata, after := none, reset := true }
        else { projectId, metadata, after := some cursor.position, reset := false }) := by
  have hmap : query.cursor.mapM (fun value => ReplayCursor.decode value projectId metadata) =
      .ok (some cursor) := by
    rw [h, Option.mapM_some, hdecode]
    rfl
  rw [ReplayPage.new, hmap]
  by_cases hreset : cursor.generation ≠ metadata.generation ∨ cursor.position < metadata.pruned
  · rw [if_pos hreset]
    simp only [Option.any_some, decide_eq_true hreset, bind, Except.bind]
    rfl
  · rw [if_neg hreset]
    simp only [Option.any_some, decide_eq_false hreset, bind, Except.bind]
    rfl

theorem ReplayPage.new_of_none {query : ReplayQuery} {metadata : Metadata}
    (h : query.cursor = none) :
    ReplayPage.new projectId query metadata =
      .ok { projectId, metadata, after := none, reset := false } := by
  rw [ReplayPage.new, h]
  rfl

theorem ReplayPage.new_eq_ok {query : ReplayQuery} {metadata : Metadata} {start : ReplayPage}
    (h : ReplayPage.new projectId query metadata = .ok start) :
    start.projectId = projectId ∧ start.metadata = metadata := by
  rw [ReplayPage.new] at h
  cases hcursor : query.cursor.mapM (fun value =>
      ReplayCursor.decode value projectId metadata) with
  | error error =>
    rw [hcursor] at h
    cases h
  | ok cursor =>
    rw [hcursor] at h
    cases h
    exact ⟨rfl, rfl⟩

theorem mem_selectReplay {records : List (TraceRecord ν)} {limit head : Nat} {after : Option Nat}
    {record : TraceRecord ν} (h : record ∈ selectReplay records limit after head) :
    record ∈ records ∧ after.getD 0 < record.sequence ∧ record.sequence ≤ head := by
  have hmem := List.mem_of_mem_take h
  have hfound : record ∈ records.filter fun record =>
      after.getD 0 < record.sequence && record.sequence ≤ head := by
    split at hmem
    · exact (List.mem_insertionSort _).mp hmem
    · exact (Paging.mem_descending TraceRecord.key).mp hmem
  simpa using hfound

/-- The position of a page is at most the head. -/
theorem ReplayPage.finish_cursor {start : ReplayPage} {limit : Nat}
    {records : List (TraceRecord ν)}
    (h : ∀ record ∈ records, record.sequence ≤ start.metadata.head) :
    (start.finish limit records).cursor ≤ start.metadata.head := by
  simp only [ReplayPage.finish]
  split
  · cases hlast : (records.take limit).getLast? with
    | none => exact Nat.zero_le _
    | some last => exact h last (List.mem_of_mem_take (List.mem_of_getLast? hlast))
  · exact Nat.le_refl _

/-- The next cursor of a replay page is its resume cursor. -/
theorem ReplayPage.finish_nextCursor {start : ReplayPage} {limit : Nat}
    {records : List (TraceRecord ν)} {cursor : Cursor}
    (h : (start.finish limit records).nextCursor = some cursor) :
    cursor = (start.finish limit records).resumeCursor := by
  have hnext : (start.finish limit records).nextCursor =
      if start.after.isSome && decide (limit < records.length) then
        some (start.finish limit records).resumeCursor
      else none := rfl
  rw [hnext] at h
  split at h
  · exact (Option.some.inj h).symm
  · cases h

/-- The text of a resume cursor is short. -/
theorem resumeCursor_length {generation : String} {position : Nat}
    (hproject : validateComponent "project ID" projectId 64 = .ok ())
    (hgeneration : PlainGeneration generation) (hposition : position ≤ maxI64) :
    (resumeCursor projectId generation position).length ≤ 4096 := by
  obtain ⟨-, hsize, hplain⟩ := validateComponent_eq_ok hproject
  obtain ⟨-, hsize', hplain'⟩ := hgeneration
  have hname := jsonStringBytes_le hplain
  have hgen := jsonStringBytes_le hplain'
  have hnumber := numberBytes_le hposition
  refine base64Length_le.mpr ?_
  simp only [ReplayCursor.bytes]
  omega

end Pages

namespace Store

variable {store later : Store ν} {projectId : String}

/-- A cursor up to the head is accepted by every later replay. -/
theorem replay_resume {position limit : Nat} (hformed : (store.table projectId).Formed)
    (hgeneration : PlainGeneration (store.table projectId).metadata.generation)
    (hfollows : Follows (store.table projectId) (later.table projectId))
    (hproject : validateComponent "project ID" projectId 64 = .ok ())
    (hposition : position ≤ (store.table projectId).metadata.head)
    (hlimit : 1 ≤ limit ∧ limit ≤ traceCapacity) :
    (later.replay projectId
      { limit
        cursor := some (resumeCursor projectId (store.table projectId).metadata.generation
          position) }).isOk := by
  have hmax := Nat.le_trans hposition hformed.head
  have hdecode : ReplayCursor.decode
      (resumeCursor projectId (store.table projectId).metadata.generation position) projectId
      (later.table projectId).metadata =
        .ok ⟨projectId, (store.table projectId).metadata.generation, position⟩ :=
    ReplayCursor.decode_eq_ok.mpr
      ⟨rfl, rfl, hmax, fun _ => Nat.le_trans hposition hfollows.head⟩
  have hvalid : ReplayQuery.validate { limit, cursor := some (resumeCursor projectId
      (store.table projectId).metadata.generation position) } = .ok () := by
    simp only [ReplayQuery.validate, bind_eq_ok, ensure_eq_ok]
    refine ⟨hlimit, ?_⟩
    rintro _ ⟨⟩
    exact resumeCursor_length hproject hgeneration hmax
  obtain ⟨page, hpage⟩ : ∃ page, (later.table projectId).replay projectId
      { limit, cursor := some (resumeCursor projectId
        (store.table projectId).metadata.generation position) } = .ok page := by
    rw [Table.replay, ReplayPage.new_of_some rfl hdecode]
    exact ⟨_, rfl⟩
  exact isOk_iff.mpr ⟨page, replay_eq_ok.mpr ⟨hproject, hvalid, hpage⟩⟩

/-- The next cursor of a page is accepted by later history requests unless its time is too large or
its text too long. -/
theorem history_next {query : HistoryQuery} {start : HistoryPage} {last : TraceRecord ν}
    (hformed : (store.table projectId).Formed)
    (hgeneration : PlainGeneration (store.table projectId).metadata.generation)
    (hfollows : Follows (store.table projectId) (later.table projectId))
    (hproject : validateComponent "project ID" projectId 64 = .ok ())
    (hvalid : query.validate = .ok ())
    (hstart : HistoryPage.new projectId query (store.table projectId).metadata = .ok start)
    (hlast : last ∈ selectHistory (store.table projectId).records query start.watermark
      start.after) :
    (later.history projectId { query with cursor := some (start.next last).encode }).isOk ↔
      last.event.trace.startedAtMs ≤ maxTimestamp ∧ (start.next last).bytes ≤ 3072 := by
  rw [← decode_next hformed hgeneration hfollows hstart hlast, ← base64Length_le, isOk_iff]
  constructor
  · rintro ⟨page, hpage⟩
    obtain ⟨-, hvalid', htable⟩ := history_eq_ok.mp hpage
    refine ⟨?_, ((query.validate_cursor hvalid _).mp hvalid').2⟩
    obtain ⟨_, hstart', -⟩ := Table.history_eq_ok.mp htable
    rcases HistoryPage.new_eq_ok hstart' with hnone | ⟨value, cursor, hsome, hdecode⟩
    · cases hnone
    · cases hsome
      exact ⟨cursor, hdecode⟩
  · rintro ⟨⟨cursor, hdecode⟩, hlength⟩
    have hpositive : (start.next last).encode.length ≠ 0 :=
      base64Length_ne_zero (by rw [HistoryCursor.bytes]; omega)
    refine ⟨_, history_eq_ok.mpr ⟨hproject, (query.validate_cursor hvalid _).mpr
      ⟨hpositive, hlength⟩, Table.history_eq_ok.mpr ⟨_, HistoryPage.new_of_some rfl hdecode, rfl⟩⟩⟩

/-- The position of a replay page is at most the head. -/
theorem replay_position {query : ReplayQuery} {page : TracePage ν}
    (h : (store.table projectId).replay projectId query = .ok page) :
    page.cursor ≤ (store.table projectId).metadata.head ∧
      page.resumeCursor =
        resumeCursor projectId (store.table projectId).metadata.generation page.cursor ∧
      ∀ cursor, page.nextCursor = some cursor → cursor = page.resumeCursor := by
  rw [Table.replay] at h
  cases hstart : ReplayPage.new projectId query (store.table projectId).metadata with
  | error error =>
    rw [hstart] at h
    cases h
  | ok start =>
    rw [hstart] at h
    cases h
    obtain ⟨hid, hmetadata⟩ := ReplayPage.new_eq_ok hstart
    refine ⟨?_, ?_, fun cursor hcursor => ReplayPage.finish_nextCursor hcursor⟩
    · rw [← hmetadata]
      exact ReplayPage.finish_cursor fun record hrecord => (mem_selectReplay hrecord).2.2
    · rw [← hmetadata, ← hid]
      rfl

/-- The generation of a store never changes. -/
theorem Reachable.generation (h : store.Reachable) (hid : projectId ≠ "") :
    PlainGeneration (store.table projectId).metadata.generation := by
  obtain ⟨initial, hinitial, hrun⟩ := h
  rw [((hinitial.sound.1.run hrun).2 projectId hid).generation]
  exact hinitial.generation projectId

end Store

/-! ## All cursors -/

/-- The bytes of the JSON of the cursor after a page, from what it is made of. -/
def cursorBytes (projectId : String) (query : HistoryQuery) (table : Table ν) (page : TracePage ν)
    (last : TraceRecord ν) : Nat :=
  HistoryCursor.bytes
    { projectId
      generation := table.metadata.generation
      watermark := page.cursor
      pruned := table.metadata.pruned
      time := last.event.trace.startedAtMs
      sequence := last.sequence
      filters := query.filterKey }

/-- In every reachable store a page's next cursor, sent back with the same project and filters after
any writes, is accepted exactly when the page's last record started at a representable time and the
cursor's JSON is short enough; and all cursors of replay are accepted. -/
theorem issued_cursors_accepted {store later : Store ν} (hstore : store.Reachable)
    (hlater : Relation.ReflTransGen Store.Step store later) (projectId : String) :
    (∀ query page, store.history projectId query = .ok page →
      (∀ cursor, page.nextCursor = some cursor →
        ∃ last, page.records.getLast? = some last ∧
          ((later.history projectId { query with cursor := some cursor }).isOk ↔
            last.event.trace.startedAtMs ≤ maxTimestamp ∧
              cursorBytes projectId query (store.table projectId) page last ≤ 3072)) ∧
      ∀ limit, 1 ≤ limit ∧ limit ≤ traceCapacity →
        (later.replay projectId { cursor := some page.resumeCursor, limit }).isOk) ∧
    ∀ query page, store.replay projectId query = .ok page →
      ∀ cursor, page.nextCursor = some cursor ∨ page.resumeCursor = cursor →
        ∀ limit, 1 ≤ limit ∧ limit ≤ traceCapacity →
          (later.replay projectId { cursor := some cursor, limit }).isOk := by
  refine ⟨fun query page hpage => ?_, fun query page hpage cursor hcursor limit hlimit => ?_⟩
  · obtain ⟨hproject, hvalid, htable⟩ := Store.history_eq_ok.mp hpage
    have hid := (validateComponent_eq_ok hproject).1
    have hformed := hstore.sound.formed hid
    have hgeneration := hstore.generation hid
    have hfollows := (hstore.sound.run hlater).2 projectId hid
    obtain ⟨start, hstart, rfl⟩ := Table.history_eq_ok.mp htable
    obtain ⟨hstartId, hmetadata, hfilters, hpruned, hhead⟩ :=
      HistoryPage.new_bounds hformed.pruned hstart
    refine ⟨fun cursor hcursor => ?_, fun limit hlimit => ?_⟩
    · obtain ⟨-, last, hlast, rfl⟩ := HistoryPage.finish_nextCursor hcursor
      refine ⟨last, hlast, ?_⟩
      have hmem := List.mem_of_mem_take (List.mem_of_getLast? hlast)
      have hbytes : cursorBytes projectId query (store.table projectId)
          (start.finish query.limit (selectHistory (store.table projectId).records query
            start.watermark start.after)) last = (start.next last).bytes := by
        rw [cursorBytes, HistoryPage.next, hstartId, hmetadata, hfilters]
        rfl
      rw [hbytes]
      exact Store.history_next hformed hgeneration hfollows hproject hvalid hstart hmem
    · have hresume := Store.replay_resume hformed hgeneration hfollows hproject hhead hlimit
      simpa only [HistoryPage.finish, hmetadata, hstartId] using hresume
  · obtain ⟨hproject, hvalid, htable⟩ := Store.replay_eq_ok.mp hpage
    have hid := (validateComponent_eq_ok hproject).1
    obtain ⟨hposition, hresume, hnext⟩ := Store.replay_position htable
    have heq : cursor = page.resumeCursor := by
      rcases hcursor with hcursor | hcursor
      · exact hnext cursor hcursor
      · exact hcursor.symm
    rw [heq, hresume]
    exact Store.replay_resume (hstore.sound.formed hid) (hstore.generation hid)
      ((hstore.sound.run hlater).2 projectId hid) hproject hposition hlimit

/-! ## Two requests -/

/-- A completed request. -/
def sampleEvent (eventId : String) (startedAtMs : Nat) : TraceEvent Nat :=
  { eventId
    hostId := "host"
    sessionId := "session"
    trace :=
      { stateVersion := none
        projectId := "default"
        requestId := "request"
        actorName := "Counter"
        actorId := "one"
        kind := .method
        operation := "increment"
        connectionId := none
        startedAtMs
        durationMs := 1
        queueWaitMs := none
        outcome := .completed
        metadata := none } }

/-- An empty store with the retention of local development. -/
def emptySqlite : Sqlite Nat :=
  { generation := "550e8400-e29b-41d4-a716-446655440000", retention := 10000 }

/-- Two requests that started at the given times. -/
def twoEvents (first second : Nat) : List (Nat × TraceEvent Nat) :=
  [(1, sampleEvent "first" first), (2, sampleEvent "second" second)]

/-- The store after two requests. -/
def twoRequests (first second : Nat) : Sqlite Nat :=
  (emptySqlite.append (twoEvents first second)).toOption.getD emptySqlite

theorem emptySqlite_initial : (Store.sqlite emptySqlite).Initial := by
  have hall : emptySqlite.generation.toList.all (fun c => c.isAlphanum || c == '-') = true := by
    decide +kernel
  refine .sqlite ⟨by decide +kernel, fun c hc => ?_⟩
  simpa using List.all_eq_true.mp hall c hc

theorem twoRequests_step {first second : Nat} (hfirst : first ≤ maxI64)
    (hsecond : second ≤ maxI64) :
    Store.Step (.sqlite emptySqlite) (.sqlite (twoRequests first second)) := by
  have hallocated : Allocated emptySqlite.sequence ((twoEvents first second).map Prod.fst) := by
    have hpositions : Allocated emptySqlite.sequence [1, 2] := ⟨by decide, by decide⟩
    exact hpositions
  refine .sqlite hallocated ?_
  have hok : ∃ next, emptySqlite.append (twoEvents first second) = .ok next := by
    simp [Sqlite.append, twoEvents, Sqlite.insertEvents, sampleEvent, Nat.not_lt.mpr hfirst,
      Nat.not_lt.mpr hsecond, bind, Except.bind, pure, Except.pure]
  obtain ⟨next, hnext⟩ := hok
  rw [twoRequests, hnext]
  rfl

/-- The next cursor of a page of ordinary requests is accepted. -/
theorem issued_cursors_accepted_of_two :
    ∃ page cursor,
      (Store.sqlite (twoRequests 1000 2000)).history "default" { limit := 1 } = .ok page ∧
        page.nextCursor = some cursor ∧
        ((Store.sqlite (twoRequests 1000 2000)).history "default"
          { limit := 1, cursor := some cursor }).isOk := by
  have hstore : (Store.sqlite (twoRequests 1000 2000)).Reachable :=
    ⟨_, emptySqlite_initial, .single (twoRequests_step (by decide) (by decide))⟩
  obtain ⟨page, hpage, cursor, hcursor, hsmall⟩ : ∃ page ∈ ((Store.sqlite
      (twoRequests 1000 2000)).history "default" { limit := 1 }).toOption,
      ∃ cursor ∈ page.nextCursor, ∀ last ∈ page.records.getLast?,
        last.event.trace.startedAtMs ≤ maxTimestamp ∧
          cursorBytes "default" { limit := 1 }
            ((Store.sqlite (twoRequests 1000 2000)).table "default") page last ≤ 3072 := by
    decide +kernel
  obtain ⟨last, hlast, haccepted⟩ := ((issued_cursors_accepted hstore .refl "default").1
    { limit := 1 } page (mem_toOption.mp hpage)).1 cursor hcursor
  exact ⟨page, cursor, mem_toOption.mp hpage, hcursor, haccepted.mpr (hsmall last hlast)⟩

/-- A request that started beyond the representable times ends a page whose next cursor is refused.
Its trace is valid, and the store accepted it. -/
theorem issued_cursor_refused :
    (sampleEvent "second" 9007199254740992).trace.validate = .ok () ∧
      ∃ store : Store Nat, store.Reachable ∧
        ∃ page, store.history "default" { limit := 1 } = .ok page ∧
          ∃ cursor ∈ page.nextCursor,
            (store.history "default" { limit := 1, cursor := some cursor }).isOk = false := by
  refine ⟨by decide +kernel, .sqlite (twoRequests 1000 9007199254740992),
    ⟨_, emptySqlite_initial, .single (twoRequests_step (by decide) (by decide))⟩, ?_⟩
  have hpage : ∃ page ∈ ((Store.sqlite (twoRequests 1000 9007199254740992)).history "default"
      { limit := 1 }).toOption, ∃ cursor ∈ page.nextCursor,
      ((Store.sqlite (twoRequests 1000 9007199254740992)).history "default"
        { limit := 1, cursor := some cursor }).isOk = false := by
    decide +kernel
  obtain ⟨page, hpage, hrefused⟩ := hpage
  exact ⟨page, mem_toOption.mp hpage, hrefused⟩

end Traces
end DurableActors
