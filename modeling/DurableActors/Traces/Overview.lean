import DurableActors.Data.Quantile
import DurableActors.Storage.Numbers
import DurableActors.Traces.Acceptance

/-!
# Overview metrics

The counts, success percentages and 95th percentiles of a project's requests, for each actor class
and in total.  They are computed three times: by {lit}`sqlite/overview.sql`, by
{lit}`postgres/overview.sql`, and by {lit}`liveOverviewMetrics` of the dashboard.

Success percentages are sizes of doubles.  SQLite numbers rows with equal keys in any order, and
Postgres orders class names by the collation of the database, so both orders are parameters.

Main results:

- Definition {lit}`Overview`: what the metrics of given requests are.
- Theorem {lit}`ceil_product`: the index that JavaScript computes with a rounded 0.95.
- Theorem {lit}`overview_metrics_agree`: the three computations agree.
-/

namespace DurableActors
namespace Traces

open Numbers

variable {ν : Type}

/-- {lit}`ClassMetrics`. -/
structure ClassMetrics (ν : Type) where
  actorName : String := ""
  count : Nat := 0
  success : Option Nat := none
  p95 : Option ν := none
  queueP95 : Option ν := none
deriving DecidableEq

/-- {lit}`OverviewMetrics`. -/
structure OverviewMetrics (ν : Type) where
  total : ClassMetrics ν := {}
  classes : List (ClassMetrics ν) := []
deriving DecidableEq

/-- {lit}`TimeRange`. -/
structure TimeRange where
  fromMs : Option Nat := none
  toMs : Option Nat := none

/-- The cast of a {lit}`u64` to {lit}`i64`. -/
def asI64 (ms : Nat) : Int := if ms ≤ maxI64 then ms else ms - 2 ^ 64

/-- The double of a count. -/
def ofNat (n : Nat) : Nat := Rounding.round 53 (n * one) 1

/-- The requests of a project in a time range. -/
def inScope (projectId : String) (range : TimeRange) (traces : List (RequestTrace ν)) :
    List (RequestTrace ν) :=
  traces.filter fun trace =>
    trace.projectId = projectId &&
      range.fromMs.all (fun ms => asI64 ms ≤ trace.startedAtMs) &&
      range.toMs.all (fun ms => trace.startedAtMs ≤ asI64 ms)

/-- A row of a query's result. -/
structure OverviewRow (ν : Type) where
  actorName : Option String
  total : Nat
  attempts : Nat
  completed : Nat
  p95DurationMs : Option ν
  p95QueueWaitMs : Option ν
  isTotal : Bool

/-- The metrics of a row, as both stores read it. -/
def OverviewRow.metrics (row : OverviewRow ν) : ClassMetrics ν where
  actorName := row.actorName.getD ""
  count := row.total
  success := if 0 < row.attempts then
      some (quotient (product (ofNat 100) (ofNat row.completed)) (ofNat row.attempts))
    else none
  p95 := row.p95DurationMs
  queueP95 := row.p95QueueWaitMs

/-- The loop that sorts the rows of a result into the total and the classes. -/
def collect (isTotal : OverviewRow ν → Bool) (rows : List (OverviewRow ν)) : OverviewMetrics ν :=
  rows.foldl (fun metrics row =>
    if isTotal row then { metrics with total := row.metrics }
    else { metrics with classes := metrics.classes ++ [row.metrics] }) {}

/-! ## SQLite -/

/-- The order of rows by a key: rows with equal keys stand in any order. -/
structure RowOrder (α : Type) where
  arrange : {κ : Type} → [LinearOrder κ] → (α → κ) → List α → List α
  perm {κ : Type} [LinearOrder κ] (key : α → κ) (rows : List α) : (arrange key rows).Perm rows
  sorted {κ : Type} [LinearOrder κ] (key : α → κ) (rows : List α) :
    (arrange key rows).Pairwise fun a b => key a ≤ key b

namespace Sqlite

/-- {lit}`events`: every row of its class, and every row of the total. -/
def overviewEvents (rows : List (RequestTrace ν)) : List (String × RequestTrace ν) :=
  rows.map (fun trace => (trace.actorName, trace)) ++ rows.map fun trace => ("", trace)

/-- The rows of one name. -/
def partition (name : String) (events : List (String × RequestTrace ν)) : List (RequestTrace ν) :=
  (events.filter (·.1 = name)).map Prod.snd

/-- {lit}`MAX(CASE WHEN rank = wanted THEN value END)` over {lit}`ROW_NUMBER()`. -/
def valueAtRank [Max ν] (rows : List (RequestTrace ν)) (wanted : Nat)
    (value : RequestTrace ν → Option ν) : Option ν :=
  ((rows.zipIdx 1).filterMap fun (row, rank) => if rank = wanted then value row else none).max?

/-- A row of {lit}`summary`. -/
structure Summary (ν : Type) where
  attempts : Nat
  completed : Nat
  p95DurationMs : Option ν
  p95QueueWaitMs : Option ν

/-- {lit}`ORDER BY queue_wait_ms IS NULL, queue_wait_ms`. -/
def waitKey (row : RequestTrace ν) : Lex (Bool × WithBot ν) :=
  toLex (row.queueWaitMs.isNone, row.queueWaitMs)

variable [LinearOrder ν]

/-- {lit}`summary`: there is a row for the names with attempts. -/
def summary (order : RowOrder (RequestTrace ν)) (events : List (String × RequestTrace ν))
    (name : String) : Option (Summary ν) :=
  let rows := partition name (events.filter (·.2.outcome ≠ .rerouted))
  let attempts := rows.length
  let queued := rows.countP (·.queueWaitMs.isSome)
  let durations := order.arrange RequestTrace.durationMs rows
  let waits := order.arrange waitKey rows
  if rows.isEmpty then none else some {
    attempts
    completed := rows.countP (·.outcome = .completed)
    p95DurationMs := valueAtRank durations (max 1 ((attempts * 95 + 99) / 100))
      (some ·.durationMs)
    p95QueueWaitMs := if 0 < queued then
        valueAtRank waits (max 1 ((queued * 95 + 99) / 100)) RequestTrace.queueWaitMs
      else none }

/-- The row of one name. -/
def overviewRow (order : RowOrder (RequestTrace ν)) (events : List (String × RequestTrace ν))
    (name : String) : OverviewRow ν :=
  let joined := summary order events name
  { actorName := some name
    total := (partition name events).length
    attempts := (joined.map Summary.attempts).getD 0
    completed := (joined.map Summary.completed).getD 0
    p95DurationMs := joined.bind Summary.p95DurationMs
    p95QueueWaitMs := joined.bind Summary.p95QueueWaitMs
    isTotal := false }

/-- {lit}`sqlite/overview.sql`. -/
def overviewRows (order : RowOrder (RequestTrace ν)) (rows : List (RequestTrace ν)) :
    List (OverviewRow ν) :=
  let events := overviewEvents rows
  (((events.map Prod.fst).dedup.insertionSort (· ≤ ·)).take 500).map (overviewRow order events)

/-- {lit}`overview` of {lit}`sqlite/metrics.rs`. -/
def overview (store : Sqlite ν) (order : RowOrder (RequestTrace ν)) (projectId : String)
    (range : TimeRange) : OverviewMetrics ν :=
  collect (·.metrics.actorName.isEmpty)
    (overviewRows order (inScope projectId range (store.traces.map (·.event.trace))))

end Sqlite

/-! ## Postgres -/

namespace Postgres

variable [LinearOrder ν]

/-- {lit}`percentile_disc`: the first of the ordered values whose position equals or exceeds the
fraction, which is a double. -/
def percentileDisc (fraction : Nat) (values : List ν) : Option ν :=
  let ordered := values.insertionSort (· ≤ ·)
  ((ordered.zipIdx 1).find? fun (_, position) =>
    fraction * values.length ≤ position * one).map Prod.fst

/-- The row of one grouping set. -/
def overviewRow (rows : List (RequestTrace ν)) (actorName : Option String) : OverviewRow ν :=
  let attempts := rows.filter (·.outcome ≠ .rerouted)
  { actorName
    total := rows.length
    attempts := attempts.length
    completed := rows.countP (·.outcome = .completed)
    p95DurationMs := percentileDisc (Decimal.mk 95 (-2)).nearest
      (attempts.map RequestTrace.durationMs)
    p95QueueWaitMs := percentileDisc (Decimal.mk 95 (-2)).nearest
      (attempts.filterMap RequestTrace.queueWaitMs)
    isTotal := actorName.isNone }

/-- {lit}`postgres/overview.sql`, with the classes in the order of the collation. -/
def overviewRows (collate : List String → List String) (rows : List (RequestTrace ν)) :
    List (OverviewRow ν) :=
  let names := collate (rows.map RequestTrace.actorName).dedup
  (overviewRow rows none :: names.map fun name =>
    overviewRow (rows.filter (·.actorName = name)) (some name)).take 500

/-- {lit}`metrics` of {lit}`postgres.rs`. -/
def overview (store : Postgres ν) (collate : List String → List String) (projectId : String)
    (range : TimeRange) : OverviewMetrics ν :=
  collect OverviewRow.isTotal
    (overviewRows collate (inScope projectId range (store.traces.map (·.record.event.trace))))

end Postgres

/-! ## The dashboard -/

/-- An array of JavaScript. -/
structure JsArray (α : Type) where
  toList : List α
  length_lt : toList.length < 2 ^ 32

namespace Dashboard

/-- {lit}`Math.ceil`. -/
def ceil (units : Nat) : Nat := (units + (one - 1)) / one

variable [LinearOrder ν]

/-- {lit}`percentile`. -/
def percentile (values : List ν) : Option ν :=
  if values.isEmpty then none
  else (values.insertionSort (· ≤ ·))[
    ceil (product (ofNat values.length) (Decimal.mk 95 (-2)).nearest) - 1]?

/-- {lit}`queueP95`. -/
def queueP95 (records : List (RequestTrace ν)) : Option ν :=
  percentile ((records.filter fun record =>
    record.outcome ≠ .rerouted && record.queueWaitMs.isSome).filterMap RequestTrace.queueWaitMs)

/-- {lit}`requestSummary` and {lit}`queueP95`, as {lit}`liveOverviewMetrics` puts them together. -/
def metrics (actorName : String) (records : List (RequestTrace ν)) : ClassMetrics ν :=
  let attempts := records.filter (·.outcome ≠ .rerouted)
  { actorName
    count := records.length
    success := if attempts.length ≠ 0 then
        some (quotient
          (product (ofNat 100) (ofNat (attempts.filter (·.outcome = .completed)).length))
          (ofNat attempts.length))
      else none
    p95 := percentile (attempts.map RequestTrace.durationMs)
    queueP95 := queueP95 records }

/-- {lit}`Map.set` of a map in insertion order. -/
def mapSet {β : Type} : List (String × β) → String → β → List (String × β)
  | [], key, value => [(key, value)]
  | entry :: entries, key, value =>
      if entry.1 = key then (key, value) :: entries else entry :: mapSet entries key value

/-- The groups of {lit}`liveOverviewMetrics`. -/
def groups (records : List (RequestTrace ν)) : List (String × List (RequestTrace ν)) :=
  records.foldl (fun groups record =>
    mapSet groups record.actorName ((groups.lookup record.actorName).getD [] ++ [record])) []

/-- {lit}`liveOverviewMetrics`. -/
def liveOverviewMetrics (records : JsArray (RequestTrace ν)) : OverviewMetrics ν where
  total := metrics "" records.toList
  classes := (groups records.toList).map fun (actorName, traces) => metrics actorName traces

end Dashboard

/-! ## What the metrics are -/

section Metrics

/-- The requests that were not rerouted. -/
def attempts (rows : List (RequestTrace ν)) : List (RequestTrace ν) :=
  rows.filter (·.outcome ≠ .rerouted)

/-- Completed requests were not rerouted. -/
theorem countP_attempts (rows : List (RequestTrace ν)) :
    (attempts rows).countP (·.outcome = .completed) = rows.countP (·.outcome = .completed) := by
  rw [attempts, List.countP_filter]
  refine List.countP_congr fun row _ => ?_
  cases row.outcome <;> simp

variable [LinearOrder ν]

open Quantile

/-- The least recorded value such that at least 95 of 100 values are at most that value. -/
def IsP95 (values : List ν) : Option ν → Prop
  | none => values = []
  | some v => IsQuantile 95 100 values v

theorem IsP95.unique {values : List ν} {v w : Option ν} (hv : IsP95 values v)
    (hw : IsP95 values w) : v = w := by
  cases v with
  | none =>
    cases w with
    | none => rfl
    | some w =>
      have hmem := hw.mem
      rw [show values = [] from hv] at hmem
      cases hmem
  | some v =>
    cases w with
    | none =>
      have hmem := hv.mem
      rw [show values = [] from hw] at hmem
      cases hmem
    | some w => rw [IsQuantile.unique hv hw]

theorem IsP95.perm {values others : List ν} {v : Option ν} (h : IsP95 values v)
    (hperm : values.Perm others) : IsP95 others v := by
  cases v with
  | none =>
    rw [show values = [] from h] at hperm
    exact hperm.nil_eq.symm
  | some v => exact IsQuantile.perm h hperm

/-- The value at the rank in sorted values. -/
theorem IsP95.of_sorted {values sorted : List ν} (hperm : sorted.Perm values)
    (hsorted : sorted.Pairwise (· ≤ ·)) (hne : values ≠ []) :
    IsP95 values sorted[rank 95 100 values.length - 1]? := by
  have hpos : 0 < values.length := List.length_pos_iff.mpr hne
  have hlength := hperm.length_eq
  have hi : rank 95 100 values.length - 1 < sorted.length := by
    unfold rank
    omega
  rw [List.getElem?_eq_getElem hi]
  refine IsQuantile.of_sorted hperm hsorted (by decide) hi ?_
  unfold rank
  omega

/-- The metrics of the given requests. -/
structure Summarises (rows : List (RequestTrace ν)) (metrics : ClassMetrics ν) : Prop where
  count : metrics.count = rows.length
  success : metrics.success =
    if 0 < (attempts rows).length then
      some (quotient (product (ofNat 100) (ofNat (rows.countP (·.outcome = .completed))))
        (ofNat (attempts rows).length))
    else none
  p95 : IsP95 ((attempts rows).map RequestTrace.durationMs) metrics.p95
  queueP95 : IsP95 ((attempts rows).filterMap RequestTrace.queueWaitMs) metrics.queueP95

theorem Summarises.nil : Summarises ([] : List (RequestTrace ν)) {} where
  count := rfl
  success := rfl
  p95 := rfl
  queueP95 := rfl

theorem Summarises.perm {rows others : List (RequestTrace ν)} {metrics : ClassMetrics ν}
    (h : Summarises rows metrics) (hperm : rows.Perm others) : Summarises others metrics where
  count := h.count.trans hperm.length_eq
  success := by
    have hattempts : (attempts rows).length = (attempts others).length :=
      (hperm.filter _).length_eq
    rw [← hperm.countP_eq, ← hattempts]
    exact h.success
  p95 := h.p95.perm ((hperm.filter _).map _)
  queueP95 := h.queueP95.perm ((hperm.filter _).filterMap _)

theorem Summarises.unique {rows : List (RequestTrace ν)} {first second : ClassMetrics ν}
    (hfirst : Summarises rows first) (hsecond : Summarises rows second)
    (hname : first.actorName = second.actorName) : first = second := by
  obtain ⟨name, count, success, p95, queueP95⟩ := first
  obtain ⟨name', count', success', p95', queueP95'⟩ := second
  cases hname
  have hcount := hfirst.count.trans hsecond.count.symm
  have hsuccess := hfirst.success.trans hsecond.success.symm
  have hp95 := hfirst.p95.unique hsecond.p95
  have hqueue := hfirst.queueP95.unique hsecond.queueP95
  dsimp only at hcount hsuccess hp95 hqueue
  rw [hcount, hsuccess, hp95, hqueue]

/-- The overview of the given requests: metrics of all of them, and of each class. -/
structure Overview (rows : List (RequestTrace ν)) (metrics : OverviewMetrics ν) : Prop where
  totalName : metrics.total.actorName = ""
  total : Summarises rows metrics.total
  names : (metrics.classes.map ClassMetrics.actorName).Perm
    (rows.map RequestTrace.actorName).dedup
  classes : ∀ row ∈ metrics.classes, Summarises (rows.filter (·.actorName = row.actorName)) row

theorem Overview.perm {rows others : List (RequestTrace ν)} {metrics : OverviewMetrics ν}
    (h : Overview rows metrics) (hperm : rows.Perm others) : Overview others metrics where
  totalName := h.totalName
  total := h.total.perm hperm
  names := h.names.trans ((hperm.map _).dedup)
  classes row hrow := (h.classes row hrow).perm (hperm.filter _)

theorem Overview.nodup {rows : List (RequestTrace ν)} {metrics : OverviewMetrics ν}
    (h : Overview rows metrics) : metrics.classes.Nodup :=
  List.Nodup.of_map _ (h.names.nodup_iff.mpr (List.nodup_dedup _))

/-- Every class of one overview is a class of the other. -/
theorem Overview.subset {rows : List (RequestTrace ν)} {first second : OverviewMetrics ν}
    (hfirst : Overview rows first) (hsecond : Overview rows second) :
    first.classes ⊆ second.classes := by
  intro row hrow
  have hname := (hfirst.names.trans hsecond.names.symm).subset (List.mem_map_of_mem hrow)
  obtain ⟨other, hother, heq⟩ := List.mem_map.mp hname
  have hsummary := hsecond.classes other hother
  rw [heq] at hsummary
  rw [(hfirst.classes row hrow).unique hsummary heq.symm]
  exact hother

/-- The overview of given requests is unique, up to the order of the classes. -/
theorem Overview.unique {rows : List (RequestTrace ν)} {first second : OverviewMetrics ν}
    (hfirst : Overview rows first) (hsecond : Overview rows second) :
    first.total = second.total ∧ first.classes.Perm second.classes := by
  refine ⟨hfirst.total.unique hsecond.total (hfirst.totalName.trans hsecond.totalName.symm), ?_⟩
  exact (List.perm_ext_iff_of_nodup hfirst.nodup hsecond.nodup).mpr fun row =>
    ⟨(hfirst.subset hsecond ·), (hsecond.subset hfirst ·)⟩

/-- The classes' counts add up to the total. -/
theorem Overview.sum {rows : List (RequestTrace ν)} {metrics : OverviewMetrics ν}
    (h : Overview rows metrics) :
    metrics.total.count = (metrics.classes.map ClassMetrics.count).sum := by
  have hcounts : metrics.classes.map ClassMetrics.count =
      (metrics.classes.map ClassMetrics.actorName).map
        ((rows.map RequestTrace.actorName).count ·) := by
    rw [List.map_map]
    refine List.map_congr_left fun row hrow => ?_
    rw [(h.classes row hrow).count, ← List.countP_eq_length_filter, Function.comp_apply,
      List.count, List.countP_map]
    congr
  rw [h.total.count, hcounts, (h.names.map _).sum_eq, List.sum_map_count_dedup_eq_length,
    List.length_map]

end Metrics

/-! ## The rank in floating point -/

section Rank

open Rounding

/-- The double nearest to 0.95 is a little less. -/
theorem nearest95_eq : ∃ u, 2 ^ 53 ≤ u ∧ one = 2 ^ 53 * u ∧
    (Decimal.mk 95 (-2)).nearest = 8556839292003942 * u := by
  refine ⟨2 ^ 1021, by decide +kernel, by decide +kernel, ?_⟩
  unfold Decimal.nearest
  decide +kernel

/-- Counts are doubles. -/
theorem ofNat_eq {n : Nat} (h : n < 2 ^ 53) : ofNat n = n * one := by
  obtain ⟨k, hk⟩ := one_eq_pow
  have hexact : spacing 53 (n * one) ∣ n * one := by
    rw [hk]
    exact spacing_dvd_of_lt (by decide) _ h
  have hround := round_of_dvd Nat.one_pos hexact
  rwa [Nat.mul_one] at hround

/-- The positions that the fraction reaches. -/
theorem fraction_le_iff {n : Nat} (hn : n < 2 ^ 32) (position : Nat) :
    (Decimal.mk 95 (-2)).nearest * n ≤ position * one ↔ Quantile.rank 95 100 n ≤ position := by
  obtain ⟨u, hu, hone, hnearest⟩ := nearest95_eq
  have hpos : 0 < u := by omega
  have hunits : (Decimal.mk 95 (-2)).nearest * n ≤ position * one ↔
      8556839292003942 * n ≤ 2 ^ 53 * position := by
    rw [hone, hnearest, Nat.mul_right_comm, ← Nat.mul_assoc, Nat.mul_comm position,
      Nat.mul_le_mul_right_iff hpos]
  rw [hunits, Quantile.rank_le_iff (by decide)]
  omega

/-- A size is rounded up to a whole number. -/
theorem Dashboard.ceil_eq {units k : Nat} (hle : units ≤ k * one) (hlt : k * one < units + one) :
    ceil units = k := by
  have hone := Numbers.one_pos
  unfold ceil
  refine Nat.div_eq_of_lt_le ?_ ?_
  · omega
  · rw [Nat.succ_mul]
    omega

/-- The position that JavaScript computes.  The product with the double nearest to 0.95 is rounded
up to a whole number when the exact one is whole, and never beyond it. -/
theorem Dashboard.ceil_product {n : Nat} (hpos : 0 < n) (hn : n < 2 ^ 32) :
    ceil (product (ofNat n) (Decimal.mk 95 (-2)).nearest) = Quantile.rank 95 100 n := by
  obtain ⟨u, hu, hone, hnearest⟩ := nearest95_eq
  generalize (Decimal.mk 95 (-2)).nearest = fraction at hnearest ⊢
  have hproduct : product (ofNat n) fraction = round 53 (n * fraction) 1 := by
    rw [product, ofNat_eq (by omega), Nat.mul_right_comm,
      ← round_mul 53 (n * fraction) 1 Numbers.one_pos, Nat.one_mul]
  generalize hk : Quantile.rank 95 100 n = k
  have hrank : 95 * n ≤ 100 * k ∧ 100 * k ≤ 95 * n + 99 := by
    unfold Quantile.rank at hk
    omega
  have hexact : spacing 53 (k * one) ∣ k * one := by
    obtain ⟨e, he⟩ := one_eq_pow
    rw [he]
    exact spacing_dvd_of_lt (by decide) _ (by omega)
  have hlower := le_round 53 (n * fraction) Nat.one_pos
  have hspacing : spacing 53 (n * fraction) * 2 ^ 53 ≤ 2 * (n * fraction) := by
    refine spacing_mul_le ?_
    rw [hnearest, ← Nat.mul_assoc]
    exact hu.trans (Nat.le_mul_of_pos_left _ (by omega))
  have hproducts : k * one = 2 ^ 53 * (k * u) ∧ n * fraction = 8556839292003942 * (n * u) := by
    rw [hone, hnearest]
    constructor <;> ring
  have hless : 95 * (n * u) ≤ 100 * (k * u) ∧ 100 * (k * u) ≤ 95 * (n * u) + 99 * u ∧
      n * u < 2 ^ 32 * u := by
    have hle := Nat.mul_le_mul_right u hrank.1
    have hge := Nat.mul_le_mul_right u hrank.2
    have hlt := Nat.mul_lt_mul_of_pos_right hn (show 0 < u by omega)
    simp only [Nat.add_mul, Nat.mul_assoc] at hle hge
    exact ⟨hle, hge, hlt⟩
  rw [hproduct]
  refine ceil_eq (round_le_of_le Nat.one_pos hexact (by omega)) ?_
  rw [Nat.div_one] at hlower
  omega

end Rank

/-! ## The queries -/

/-- What the loop over the rows leaves. -/
theorem collect_eq (isTotal : OverviewRow ν → Bool) (rows : List (OverviewRow ν)) :
    collect isTotal rows =
      { total := ((rows.filter isTotal).map OverviewRow.metrics).getLast?.getD {}
        classes := (rows.filter (!isTotal ·)).map OverviewRow.metrics } := by
  induction rows using List.reverseRecOn with
  | nil => rfl
  | append_singleton rows row ih =>
    rw [collect, List.foldl_append, ← collect, ih]
    by_cases h : isTotal row <;> simp [h]

namespace Sqlite

/-- The rows of a name among the events: all rows for the total. -/
theorem partition_overviewEvents {rows : List (RequestTrace ν)}
    (hnames : ∀ row ∈ rows, row.actorName ≠ "") (name : String) :
    partition name (overviewEvents rows) =
      if name = "" then rows else rows.filter (·.actorName = name) := by
  rw [partition, overviewEvents, List.filter_append, List.filter_map, List.filter_map,
    List.map_append, List.map_map, List.map_map]
  split
  · rename_i hname
    subst hname
    have hnone : rows.filter ((fun event => event.1 = "") ∘
        fun row : RequestTrace ν => (row.actorName, row)) = [] := by
      refine List.filter_eq_nil_iff.mpr fun row hrow => ?_
      simpa using hnames row hrow
    rw [hnone]
    simp [Function.comp_def]
  · rename_i hname
    simp [Function.comp_def, Ne.symm hname]

theorem partition_filter (name : String) (events : List (String × RequestTrace ν)) :
    partition name (events.filter (·.2.outcome ≠ .rerouted)) =
      (partition name events).filter (·.outcome ≠ .rerouted) := by
  rw [partition, partition, List.filter_map, List.filter_filter, List.filter_filter]
  congr 1
  refine List.filter_congr fun event _ => ?_
  simp [Bool.and_comm]

/-- Only one row has the wanted rank. -/
theorem filterMap_zipIdx (rows : List (RequestTrace ν)) (value : RequestTrace ν → Option ν)
    (wanted start : Nat) :
    ((rows.zipIdx start).filterMap fun (row, rank) =>
        if rank = wanted then value row else none) =
      if start ≤ wanted then (rows[wanted - start]?.bind value).toList else [] := by
  induction rows generalizing start with
  | nil => simp
  | cons row rows ih =>
    rw [List.zipIdx_cons, List.filterMap_cons, ih]
    rcases Nat.lt_trichotomy start wanted with hlt | rfl | hgt
    · obtain ⟨k, rfl⟩ := Nat.exists_eq_add_of_lt hlt
      have hne : start ≠ start + k + 1 := by omega
      have hindex : start + k + 1 - start = k + 1 ∧ start + k + 1 - (start + 1) = k := by omega
      simp only [if_neg hne, hindex.1, hindex.2, List.getElem?_cons_succ]
      rw [if_pos (by omega), if_pos (by omega)]
    · cases hvalue : value row <;> simp [hvalue]
    · have hne : start ≠ wanted := by omega
      simp [hne, Nat.not_le.mpr hgt]
      omega

/-- The names of the events: those of the classes, and the empty one if there is a row. -/
theorem mem_names {rows : List (RequestTrace ν)} {name : String} :
    name ∈ (overviewEvents rows).map Prod.fst ↔
      name ∈ rows.map RequestTrace.actorName ∨ name = "" ∧ rows ≠ [] := by
  rw [overviewEvents, List.map_append, List.mem_append, List.map_map, List.map_map]
  refine or_congr Iff.rfl ?_
  cases rows with
  | nil => simp
  | cons row rows => simp [eq_comm]

/-- The names in the order of the result. -/
def names (rows : List (RequestTrace ν)) : List String :=
  ((overviewEvents rows).map Prod.fst).dedup.insertionSort (· ≤ ·)

theorem names_nodup (rows : List (RequestTrace ν)) : (names rows).Nodup :=
  (List.perm_insertionSort _ _).nodup_iff.mpr (List.nodup_dedup _)

theorem mem_sorted_names {rows : List (RequestTrace ν)} {name : String} :
    name ∈ names rows ↔ name ∈ rows.map RequestTrace.actorName ∨ name = "" ∧ rows ≠ [] := by
  rw [names, List.mem_insertionSort, List.mem_dedup, mem_names]

/-- The names of the result without the empty one are the classes. -/
theorem names_perm {rows : List (RequestTrace ν)} (hnames : ∀ row ∈ rows, row.actorName ≠ "") :
    ((names rows).filter (!·.isEmpty)).Perm (rows.map RequestTrace.actorName).dedup := by
  refine (List.perm_ext_iff_of_nodup ((names_nodup rows).filter _) (List.nodup_dedup _)).mpr
    fun name => ?_
  rw [List.mem_filter, mem_sorted_names, List.mem_dedup]
  constructor
  · rintro ⟨hmem | ⟨rfl, -⟩, hne⟩
    · exact hmem
    · cases hne
  · intro hmem
    obtain ⟨row, hrow, rfl⟩ := List.mem_map.mp hmem
    exact ⟨.inl hmem, by simpa using hnames row hrow⟩

/-- The empty name stands in the result once, if there is a row. -/
theorem names_filter_isEmpty {rows : List (RequestTrace ν)}
    (hnames : ∀ row ∈ rows, row.actorName ≠ "") :
    (names rows).filter (·.isEmpty) = if rows = [] then [] else [""] := by
  have hmem : "" ∈ names rows ↔ rows ≠ [] := by
    rw [mem_sorted_names]
    refine ⟨fun h => h.elim (fun hmem => ?_) And.right, fun hne => .inr ⟨rfl, hne⟩⟩
    obtain ⟨row, hrow, hname⟩ := List.mem_map.mp hmem
    exact absurd hname (hnames row hrow)
  have hfilter : (names rows).filter (·.isEmpty) = (names rows).filter (· == "") :=
    List.filter_congr fun name _ => by
      rw [Bool.eq_iff_iff]
      simp
  rw [hfilter, List.filter_beq, (names_nodup rows).count]
  simp only [hmem]
  by_cases hrows : rows = [] <;> simp [hrows]

theorem length_names_le {rows : List (RequestTrace ν)}
    (hnames : ∀ row ∈ rows, row.actorName ≠ "") :
    (names rows).length ≤ (rows.map RequestTrace.actorName).dedup.length + 1 := by
  have hlength := List.length_eq_length_filter_add (l := names rows) (·.isEmpty)
  rw [(names_perm hnames).length_eq, names_filter_isEmpty hnames] at hlength
  split at hlength
  · simp only [List.length_nil] at hlength
    omega
  · simp only [List.length_singleton] at hlength
    omega

variable [LinearOrder ν]

theorem valueAtRank_eq (rows : List (RequestTrace ν)) {wanted : Nat} (h : 1 ≤ wanted)
    (value : RequestTrace ν → Option ν) :
    valueAtRank rows wanted value = rows[wanted - 1]?.bind value := by
  rw [valueAtRank, filterMap_zipIdx, if_pos h]
  cases rows[wanted - 1]?.bind value <;> simp

/-- Rows without a value stand behind the others. -/
theorem getElem?_bind {rows : List (RequestTrace ν)}
    (h : rows.Pairwise fun a b => waitKey a ≤ waitKey b) {i : Nat}
    (hi : i < (rows.filterMap RequestTrace.queueWaitMs).length) :
    rows[i]?.bind RequestTrace.queueWaitMs = (rows.filterMap RequestTrace.queueWaitMs)[i]? := by
  induction rows generalizing i with
  | nil => cases hi
  | cons row rows ih =>
    obtain ⟨hfirst, hsorted⟩ := List.pairwise_cons.mp h
    cases hwait : row.queueWaitMs with
    | none =>
      have hnone : rows.filterMap RequestTrace.queueWaitMs = [] := by
        refine List.filterMap_eq_nil_iff.mpr fun other hother => ?_
        have hle : row.queueWaitMs.isNone ≤ other.queueWaitMs.isNone :=
          (Prod.Lex.le_iff.mp (hfirst other hother)).elim le_of_lt fun h => le_of_eq h.1
        rw [hwait] at hle
        exact Option.isNone_iff_eq_none.mp (Bool.eq_true_of_true_le hle)
      rw [List.filterMap_cons_none hwait, hnone] at hi
      cases hi
    | some wait =>
      rw [List.filterMap_cons_some hwait] at hi ⊢
      cases i with
      | zero => simp [hwait]
      | succ i => simpa using ih hsorted (by simpa using hi)

/-- The 95th percentile of the durations. -/
theorem isP95_durations (order : RowOrder (RequestTrace ν)) {rows : List (RequestTrace ν)}
    (hne : rows ≠ []) :
    IsP95 (rows.map RequestTrace.durationMs)
      (valueAtRank (order.arrange RequestTrace.durationMs rows)
        (max 1 ((rows.length * 95 + 99) / 100)) (some ·.durationMs)) := by
  have hp95 := IsP95.of_sorted ((order.perm RequestTrace.durationMs rows).map _)
    (List.pairwise_map.mpr (order.sorted RequestTrace.durationMs rows))
    (mt List.map_eq_nil_iff.mp hne)
  have hindex : Quantile.rank 95 100 (rows.map RequestTrace.durationMs).length - 1 =
      max 1 ((rows.length * 95 + 99) / 100) - 1 := by
    rw [List.length_map, Quantile.rank]
    omega
  rw [List.getElem?_map, hindex, Option.map_eq_bind] at hp95
  rw [valueAtRank_eq _ (Nat.le_max_left _ _)]
  exact hp95

/-- Rows in the order of their waits have sorted waits. -/
theorem pairwise_waits {rows : List (RequestTrace ν)}
    (h : rows.Pairwise fun a b => waitKey a ≤ waitKey b) :
    (rows.filterMap RequestTrace.queueWaitMs).Pairwise (· ≤ ·) := by
  refine List.pairwise_filterMap.mpr (h.imp fun {a b} hle wait hwait other hother => ?_)
  have hkey := Prod.Lex.le_iff.mp hle
  simp only [waitKey, hwait, hother] at hkey
  rcases hkey with hlt | ⟨-, hle⟩
  · exact absurd hlt (lt_irrefl _)
  · exact WithBot.coe_le_coe.mp hle

/-- The 95th percentile of the waits. -/
theorem isP95_waits (order : RowOrder (RequestTrace ν)) (rows : List (RequestTrace ν)) :
    IsP95 (rows.filterMap RequestTrace.queueWaitMs)
      (if 0 < rows.countP (·.queueWaitMs.isSome) then
        valueAtRank (order.arrange waitKey rows)
          (max 1 ((rows.countP (·.queueWaitMs.isSome) * 95 + 99) / 100)) RequestTrace.queueWaitMs
      else none) := by
  have hqueued : rows.countP (·.queueWaitMs.isSome) =
      (rows.filterMap RequestTrace.queueWaitMs).length := by
    rw [List.length_filterMap_eq_countP]
  rw [hqueued]
  split
  · rename_i hpos
    have hperm := (order.perm waitKey rows).filterMap RequestTrace.queueWaitMs
    have hp95 := IsP95.of_sorted hperm (pairwise_waits (order.sorted waitKey rows))
      (List.length_pos_iff.mp hpos)
    have hlength := hperm.length_eq
    rw [← getElem?_bind (order.sorted waitKey rows) (by unfold Quantile.rank; omega)] at hp95
    rw [valueAtRank_eq _ (Nat.le_max_left _ _)]
    have hindex : max 1 (((rows.filterMap RequestTrace.queueWaitMs).length * 95 + 99) / 100) - 1 =
        Quantile.rank 95 100 (rows.filterMap RequestTrace.queueWaitMs).length - 1 := by
      rw [Quantile.rank]
      omega
    rw [hindex]
    exact hp95
  · exact List.length_eq_zero_iff.mp (by omega)

/-- The summary of a name, in terms of its attempts. -/
theorem summary_eq (order : RowOrder (RequestTrace ν)) (events : List (String × RequestTrace ν))
    (name : String) :
    summary order events name =
      if (attempts (partition name events)).isEmpty then none else some {
        attempts := (attempts (partition name events)).length
        completed := (partition name events).countP (·.outcome = .completed)
        p95DurationMs := valueAtRank
          (order.arrange RequestTrace.durationMs (attempts (partition name events)))
          (max 1 (((attempts (partition name events)).length * 95 + 99) / 100)) (some ·.durationMs)
        p95QueueWaitMs :=
          if 0 < (attempts (partition name events)).countP (·.queueWaitMs.isSome) then
            valueAtRank (order.arrange waitKey (attempts (partition name events)))
              (max 1 (((attempts (partition name events)).countP (·.queueWaitMs.isSome) * 95 + 99)
                / 100)) RequestTrace.queueWaitMs
          else none } := by
  rw [← countP_attempts, attempts, ← partition_filter]
  rfl

/-- A row of the query holds the metrics of its name. -/
theorem overviewRow_summarises (order : RowOrder (RequestTrace ν))
    (events : List (String × RequestTrace ν)) (name : String) :
    Summarises (partition name events) (overviewRow order events name).metrics := by
  have hsummary := summary_eq order events name
  by_cases hempty : attempts (partition name events) = []
  · rw [if_pos (List.isEmpty_iff.mpr hempty)] at hsummary
    refine ⟨rfl, ?_, ?_, ?_⟩ <;>
      simp [OverviewRow.metrics, overviewRow, hsummary, hempty, IsP95]
  · rw [if_neg (mt List.isEmpty_iff.mp hempty)] at hsummary
    refine ⟨rfl, ?_, ?_, ?_⟩
    · simp [OverviewRow.metrics, overviewRow, hsummary]
    · simp only [OverviewRow.metrics, overviewRow, hsummary, Option.bind_some]
      exact isP95_durations order hempty
    · simp only [OverviewRow.metrics, overviewRow, hsummary, Option.bind_some]
      exact isP95_waits order (attempts (partition name events))

/-- The rows of the result. -/
theorem overviewRows_eq (order : RowOrder (RequestTrace ν)) {rows : List (RequestTrace ν)}
    (hnames : ∀ row ∈ rows, row.actorName ≠ "")
    (hclasses : (rows.map RequestTrace.actorName).dedup.length ≤ 499) :
    overviewRows order rows = (names rows).map (overviewRow order (overviewEvents rows)) := by
  rw [overviewRows, ← names, List.take_of_length_le]
  exact (length_names_le hnames).trans (Nat.succ_le_succ hclasses)

/-- With few enough classes, the query computes the overview. -/
theorem overview_spec (order : RowOrder (RequestTrace ν)) {rows : List (RequestTrace ν)}
    (hnames : ∀ row ∈ rows, row.actorName ≠ "")
    (hclasses : (rows.map RequestTrace.actorName).dedup.length ≤ 499) :
    Overview rows (collect (·.metrics.actorName.isEmpty) (overviewRows order rows)) := by
  rw [overviewRows_eq order hnames hclasses, collect_eq, List.filter_map, List.filter_map,
    List.map_map, List.map_map]
  have htotal : (names rows).filter ((fun row : OverviewRow ν => row.metrics.actorName.isEmpty) ∘
      overviewRow order (overviewEvents rows)) = if rows = [] then [] else [""] :=
    names_filter_isEmpty hnames
  have hnamed : (names rows).filter ((fun row : OverviewRow ν => !row.metrics.actorName.isEmpty) ∘
      overviewRow order (overviewEvents rows)) = (names rows).filter (!·.isEmpty) := rfl
  have hsummary (name : String) := overviewRow_summarises order (overviewEvents rows) name
  simp only [partition_overviewEvents hnames] at hsummary
  rw [htotal, hnamed]
  refine ⟨?_, ?_, ?_, ?_⟩
  · by_cases hrows : rows = [] <;> simp [hrows, OverviewRow.metrics, overviewRow]
  · by_cases hrows : rows = []
    · simpa [hrows] using Summarises.nil
    · simpa [hrows] using hsummary ""
  · rw [List.map_map]
    refine List.Perm.trans (List.Perm.of_eq ?_) (names_perm hnames)
    exact List.map_id' _
  · intro row hrow
    obtain ⟨name, hname, rfl⟩ := List.mem_map.mp hrow
    have hne : name ≠ "" := by simpa using (List.mem_filter.mp hname).2
    have hclass := hsummary name
    rw [if_neg hne] at hclass
    exact hclass

end Sqlite

namespace Postgres

/-- The first position that is not before a given one. -/
theorem find?_zipIdx (values : List ν) {p : Nat → Bool} {wanted : Nat}
    (hp : ∀ position, p position = true ↔ wanted ≤ position) {start : Nat} (h : start ≤ wanted) :
    ((values.zipIdx start).find? fun (_, position) => p position).map Prod.fst =
      values[wanted - start]? := by
  induction values generalizing start with
  | nil => simp
  | cons value values ih =>
    rw [List.zipIdx_cons, List.find?_cons]
    rcases h.eq_or_lt with rfl | hlt
    · have htrue : p start = true := (hp start).mpr (Nat.le_refl _)
      simp [htrue]
    · have hfalse : p start = false := by
        rw [Bool.eq_false_iff, Ne, hp]
        omega
      have hindex : wanted - start = wanted - (start + 1) + 1 := by omega
      simp only [hfalse, hindex, List.getElem?_cons_succ]
      exact ih hlt

variable [LinearOrder ν]

/-- {lit}`percentile_disc` of 0.95. -/
theorem isP95_percentileDisc {values : List ν} (hlength : values.length < 2 ^ 32) :
    IsP95 values (percentileDisc (Decimal.mk 95 (-2)).nearest values) := by
  by_cases hne : values = []
  · rw [hne]
    rfl
  · have hpos : 0 < values.length := List.length_pos_iff.mpr hne
    have hrank : 1 ≤ Quantile.rank 95 100 values.length := by
      unfold Quantile.rank
      omega
    have hfound := find?_zipIdx (values.insertionSort (· ≤ ·))
      (fun position => decide_eq_true_iff.trans (fraction_le_iff hlength position)) hrank
    rw [percentileDisc, hfound]
    exact IsP95.of_sorted (List.perm_insertionSort _ _) (List.pairwise_insertionSort _ _) hne

theorem overviewRow_summarises {rows : List (RequestTrace ν)} (hlength : rows.length < 2 ^ 32)
    (name : Option String) : Summarises rows (overviewRow rows name).metrics := by
  have hattempts : (attempts rows).length ≤ rows.length := List.length_filter_le _ _
  refine ⟨rfl, rfl, isP95_percentileDisc ?_, isP95_percentileDisc ?_⟩
  · rw [List.length_map]
    exact Nat.lt_of_le_of_lt hattempts hlength
  · exact Nat.lt_of_le_of_lt ((List.length_filterMap_le _ _).trans hattempts) hlength

/-- With few enough classes, the query computes the overview. -/
theorem overview_spec {collate : List String → List String}
    (hcollate : ∀ names, (collate names).Perm names) {rows : List (RequestTrace ν)}
    (hlength : rows.length < 2 ^ 32)
    (hclasses : (rows.map RequestTrace.actorName).dedup.length ≤ 499) :
    Overview rows (collect OverviewRow.isTotal (overviewRows collate rows)) := by
  have hnames := hcollate (rows.map RequestTrace.actorName).dedup
  have htake : overviewRows collate rows = overviewRow rows none ::
      (collate (rows.map RequestTrace.actorName).dedup).map fun name =>
        overviewRow (rows.filter (·.actorName = name)) (some name) := by
    rw [overviewRows, List.take_of_length_le]
    rw [List.length_cons, List.length_map, hnames.length_eq]
    exact Nat.succ_le_succ hclasses
  have htotal : (overviewRows collate rows).filter OverviewRow.isTotal =
      [overviewRow rows none] := by
    rw [htake, List.filter_cons_of_pos rfl, List.filter_map]
    simp [Function.comp_def, overviewRow]
  have hclass : ((overviewRows collate rows).filter (!OverviewRow.isTotal ·)).map
      OverviewRow.metrics = (collate (rows.map RequestTrace.actorName).dedup).map fun name =>
        (overviewRow (rows.filter (·.actorName = name)) (some name)).metrics := by
    rw [htake, List.filter_cons_of_neg (by simp [overviewRow]), List.filter_map, List.map_map]
    simp [Function.comp_def, overviewRow]
  rw [collect_eq, htotal, hclass]
  refine ⟨rfl, overviewRow_summarises hlength none, ?_, ?_⟩
  · rw [List.map_map]
    exact (List.Perm.of_eq (List.map_id' _)).trans hnames
  · intro row hrow
    obtain ⟨name, -, rfl⟩ := List.mem_map.mp hrow
    exact overviewRow_summarises (Nat.lt_of_le_of_lt (List.length_filter_le _ _) hlength) _

end Postgres

/-! ## The live metrics -/

namespace Dashboard

theorem lookup_cons_eq {β : Type} (entry : String × β) (entries : List (String × β))
    (name : String) :
    (entry :: entries).lookup name =
      if name = entry.1 then some entry.2 else entries.lookup name := by
  rw [List.lookup_cons]
  by_cases hname : name = entry.1
  · simp [hname]
  · rw [if_neg hname, beq_false_of_ne hname]

theorem lookup_mapSet {β : Type} (entries : List (String × β)) (key name : String) (value : β) :
    (mapSet entries key value).lookup name =
      if name = key then some value else entries.lookup name := by
  induction entries with
  | nil => exact lookup_cons_eq _ _ _
  | cons entry entries ih =>
    rw [mapSet]
    by_cases hentry : entry.1 = key
    · rw [if_pos hentry, lookup_cons_eq, lookup_cons_eq, hentry]
      by_cases hname : name = key <;> simp [hname]
    · rw [if_neg hentry, lookup_cons_eq, lookup_cons_eq, ih]
      by_cases hname : name = key
      · have hne : name ≠ entry.1 := fun h => hentry (h.symm.trans hname)
        rw [if_neg hne, if_pos hname, if_pos hname]
      · rw [if_neg hname, if_neg hname]

theorem keys_mapSet {β : Type} (entries : List (String × β)) (key : String) (value : β) :
    (mapSet entries key value).map Prod.fst =
      if key ∈ entries.map Prod.fst then entries.map Prod.fst
      else entries.map Prod.fst ++ [key] := by
  induction entries with
  | nil => rfl
  | cons entry entries ih =>
    rw [mapSet]
    by_cases hentry : entry.1 = key
    · simp [hentry]
    · rw [if_neg hentry, List.map_cons, ih]
      by_cases hkey : key ∈ entries.map Prod.fst
      · rw [if_pos hkey, if_pos (by simp only [List.map_cons, List.mem_cons, hkey, or_true]),
          List.map_cons]
      · rw [if_neg hkey, if_neg (by simp only [List.map_cons, List.mem_cons, hkey, or_false]
                                    exact Ne.symm hentry), List.map_cons, List.cons_append]

/-- The entries of a map are what it finds. -/
theorem lookup_of_mem {β : Type} {entries : List (String × β)}
    (h : (entries.map Prod.fst).Nodup) {name : String} {value : β}
    (hmem : (name, value) ∈ entries) : entries.lookup name = some value := by
  induction entries with
  | nil => cases hmem
  | cons entry entries ih =>
    obtain ⟨hnot, hnodup⟩ := List.nodup_cons.mp h
    rw [lookup_cons_eq]
    rcases List.mem_cons.mp hmem with rfl | hmem
    · rw [if_pos rfl]
    · have hne : name ≠ entry.1 := by
        rintro rfl
        exact hnot (List.mem_map.mpr ⟨_, hmem, rfl⟩)
      rw [if_neg hne]
      exact ih hnodup hmem

theorem groups_append (rows : List (RequestTrace ν)) (row : RequestTrace ν) :
    groups (rows ++ [row]) = mapSet (groups rows) row.actorName
      (((groups rows).lookup row.actorName).getD [] ++ [row]) := by
  rw [groups, List.foldl_append]
  rfl

/-- The keys of the groups are the classes, once each. -/
theorem keys_groups (rows : List (RequestTrace ν)) :
    ((groups rows).map Prod.fst).Nodup ∧
      ∀ name, name ∈ (groups rows).map Prod.fst ↔ name ∈ rows.map RequestTrace.actorName := by
  induction rows using List.reverseRecOn with
  | nil => simp [groups]
  | append_singleton rows row ih =>
    obtain ⟨hnodup, hmem⟩ := ih
    rw [groups_append, keys_mapSet]
    by_cases hkey : row.actorName ∈ (groups rows).map Prod.fst
    · rw [if_pos hkey]
      refine ⟨hnodup, fun name => ?_⟩
      rw [hmem, List.map_append, List.mem_append, List.map_singleton, List.mem_singleton,
        or_iff_left_of_imp]
      rintro rfl
      exact (hmem _).mp hkey
    · rw [if_neg hkey]
      refine ⟨List.nodup_append.mpr ⟨hnodup, List.nodup_singleton _, ?_⟩, fun name => ?_⟩
      · intro name hname other hother heq
        rw [List.mem_singleton.mp hother] at heq
        exact hkey (heq ▸ hname)
      · rw [List.mem_append, hmem, List.map_append, List.mem_append, List.map_singleton]

/-- The group of a class holds its rows. -/
theorem lookup_groups (rows : List (RequestTrace ν)) (name : String) :
    ((groups rows).lookup name).getD [] = rows.filter (·.actorName = name) := by
  induction rows using List.reverseRecOn with
  | nil => rfl
  | append_singleton rows row ih =>
    rw [groups_append, lookup_mapSet, List.filter_append]
    by_cases hname : name = row.actorName
    · subst hname
      simp [ih]
    · simp [hname, Ne.symm hname, ih]

variable [LinearOrder ν]

theorem isP95_percentile {values : List ν} (hlength : values.length < 2 ^ 32) :
    IsP95 values (percentile values) := by
  rw [percentile]
  split
  · rename_i hempty
    exact List.isEmpty_iff.mp hempty
  · rename_i hempty
    have hne : values ≠ [] := mt List.isEmpty_iff.mpr hempty
    rw [ceil_product (List.length_pos_iff.mpr hne) hlength]
    exact IsP95.of_sorted (List.perm_insertionSort _ _) (List.pairwise_insertionSort _ _) hne

theorem metrics_summarises {rows : List (RequestTrace ν)} (hlength : rows.length < 2 ^ 32)
    (name : String) : Summarises rows (metrics name rows) := by
  have hattempts : (attempts rows).length ≤ rows.length := List.length_filter_le _ _
  have hwaits : (rows.filter fun row =>
        row.outcome ≠ .rerouted && row.queueWaitMs.isSome).filterMap RequestTrace.queueWaitMs =
      (attempts rows).filterMap RequestTrace.queueWaitMs := by
    rw [attempts, List.filterMap_filter, List.filterMap_filter]
    refine List.filterMap_congr fun row _ => ?_
    cases row.queueWaitMs <;> simp
  have hcompleted : ((attempts rows).filter (·.outcome = .completed)).length =
      rows.countP (·.outcome = .completed) := by
    rw [← List.countP_eq_length_filter, countP_attempts]
  refine ⟨rfl, ?_, isP95_percentile ?_, ?_⟩
  · rw [← hcompleted]
    by_cases hempty : (attempts rows).length = 0
    · rw [if_neg (Nat.not_lt.mpr (Nat.le_of_eq hempty))]
      exact if_neg (not_not.mpr hempty)
    · rw [if_pos (Nat.pos_of_ne_zero hempty)]
      exact if_pos hempty
  · rw [List.length_map]
    exact Nat.lt_of_le_of_lt hattempts hlength
  · have hqueue : queueP95 rows =
        percentile ((attempts rows).filterMap RequestTrace.queueWaitMs) :=
      congrArg percentile hwaits
    rw [show (metrics name rows).queueP95 = queueP95 rows from rfl, hqueue]
    exact isP95_percentile
      (Nat.lt_of_le_of_lt ((List.length_filterMap_le _ _).trans hattempts) hlength)

/-- The dashboard computes the overview. -/
theorem liveOverviewMetrics_spec (records : JsArray (RequestTrace ν)) :
    Overview records.toList (liveOverviewMetrics records) := by
  obtain ⟨hnodup, hmem⟩ := keys_groups records.toList
  refine ⟨rfl, metrics_summarises records.length_lt "", ?_, ?_⟩
  · rw [liveOverviewMetrics, List.map_map]
    refine (List.perm_ext_iff_of_nodup ?_ (List.nodup_dedup _)).mpr fun name => ?_
    · exact hnodup
    · rw [List.mem_dedup]
      exact hmem name
  · intro row hrow
    obtain ⟨⟨name, rows⟩, hgroup, rfl⟩ := List.mem_map.mp hrow
    have hrows := lookup_groups records.toList name
    rw [lookup_of_mem hnodup hgroup, Option.getD_some] at hrows
    subst hrows
    exact metrics_summarises
      (Nat.lt_of_le_of_lt (List.length_filter_le _ _) records.length_lt) name

end Dashboard

/-! ## Agreement -/

section Agreement

/-- Validated requests name a class. -/
theorem actorName_ne [Zero ν] [LE ν] [DecidableLE ν] {trace : RequestTrace ν}
    (h : trace.validate = .ok ()) : trace.actorName ≠ "" := by
  have hactor := (bind_eq_ok.mp h).1
  exact (validateComponent_ok (bind_eq_ok.mp (bind_eq_ok.mp hactor).2).1).1

/-- The three computations of the metrics of the same requests agree, for each class and in total.
The percentiles are the least recorded values that enough attempts do not exceed, and the classes'
counts add up to the total. -/
theorem overview_metrics_agree [Zero ν] [LinearOrder ν] (sqlite : Sqlite ν) (postgres : Postgres ν)
    (order : RowOrder (RequestTrace ν)) (collate : List String → List String)
    (hcollate : ∀ names, (collate names).Perm names) (projectId : String) (range : TimeRange)
    (records : JsArray (RequestTrace ν))
    (hvalid : ∀ record ∈ sqlite.traces, record.event.trace.validate = .ok ())
    (hsame : (sqlite.traces.map (·.event.trace)).Perm
      (postgres.traces.map (·.record.event.trace)))
    (hrecords : (inScope projectId range (sqlite.traces.map (·.event.trace))).Perm records.toList)
    (hclasses : (records.toList.map RequestTrace.actorName).dedup.length ≤ 499) :
    Overview records.toList (sqlite.overview order projectId range) ∧
      (sqlite.overview order projectId range).total =
        (postgres.overview collate projectId range).total ∧
      (sqlite.overview order projectId range).classes.Perm
        (postgres.overview collate projectId range).classes ∧
      (sqlite.overview order projectId range).total =
        (Dashboard.liveOverviewMetrics records).total ∧
      (sqlite.overview order projectId range).classes.Perm
        (Dashboard.liveOverviewMetrics records).classes ∧
      (sqlite.overview order projectId range).total.count =
        ((sqlite.overview order projectId range).classes.map ClassMetrics.count).sum := by
  have hnames : ∀ row ∈ inScope projectId range (sqlite.traces.map (·.event.trace)),
      row.actorName ≠ "" := by
    intro row hrow
    obtain ⟨record, hrecord, rfl⟩ := List.mem_map.mp (List.mem_of_mem_filter hrow)
    exact actorName_ne (hvalid record hrecord)
  have hsqlite : Overview records.toList (sqlite.overview order projectId range) := by
    refine Overview.perm (Sqlite.overview_spec order hnames ?_) hrecords
    rw [((hrecords.map _).dedup).length_eq]
    exact hclasses
  have hpostgres : Overview records.toList (postgres.overview collate projectId range) := by
    have hkept : (inScope projectId range (postgres.traces.map (·.record.event.trace))).Perm
        records.toList := (hsame.symm.filter _).trans hrecords
    refine Overview.perm (Postgres.overview_spec hcollate ?_ ?_) hkept
    · rw [hkept.length_eq]
      exact records.length_lt
    · rw [((hkept.map _).dedup).length_eq]
      exact hclasses
  have hlive := Dashboard.liveOverviewMetrics_spec records
  obtain ⟨htotal, hequal⟩ := hsqlite.unique hpostgres
  obtain ⟨htotal', hequal'⟩ := hsqlite.unique hlive
  exact ⟨hsqlite, htotal, hequal, htotal', hequal', hsqlite.sum⟩

/-- Rows with equal keys in the order in which they are stored. -/
def RowOrder.stable (α : Type) : RowOrder α where
  arrange key rows := rows.insertionSort (key · ≤ key ·)
  perm _ _ := List.perm_insertionSort _ _
  sorted _ _ := List.pairwise_insertionSort _ _

/-- The agreement on two requests of one class. -/
theorem overview_metrics_agree_of_two :
    ((twoRequests 1000 2000).overview (RowOrder.stable _) "default" {}).total =
      (Dashboard.liveOverviewMetrics
        ⟨(twoEvents 1000 2000).map (·.2.trace), by decide⟩).total := by
  have hagree := overview_metrics_agree (twoRequests 1000 2000)
    { traces := (twoRequests 1000 2000).traces.map fun record => ⟨record, 0⟩ }
    (RowOrder.stable _) id (fun names => .refl names) "default" {}
    ⟨(twoEvents 1000 2000).map (·.2.trace), by decide⟩
    (by decide +kernel) (by simp [Function.comp_def]) (by decide +kernel) (by decide +kernel)
  exact hagree.2.2.2.1

end Agreement

end Traces
end DurableActors
