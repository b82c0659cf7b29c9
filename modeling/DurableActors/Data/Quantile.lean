import Mathlib

/-!
# Quantiles of recorded values

The least recorded value such that a given part of the values is at most that value.

Main results:

- Theorem {lit}`IsQuantile.of_sorted`: it is the value at a position of the sorted values.
- Theorem {lit}`IsQuantile.unique`: there is only one.
-/

namespace Quantile

variable {α : Type} [LinearOrder α]

/-- The least recorded value such that at least {lit}`num / den` of the values are at most that
value. -/
structure IsQuantile (num den : Nat) (values : List α) (v : α) : Prop where
  mem : v ∈ values
  enough : num * values.length ≤ den * values.countP (· ≤ v)
  least : ∀ w ∈ values, num * values.length ≤ den * values.countP (· ≤ w) → v ≤ w

theorem IsQuantile.unique {num den : Nat} {values : List α} {v w : α}
    (hv : IsQuantile num den values v) (hw : IsQuantile num den values w) : v = w :=
  le_antisymm (hv.least w hw.mem hw.enough) (hw.least v hv.mem hv.enough)

theorem IsQuantile.perm {num den : Nat} {values others : List α} {v : α}
    (h : IsQuantile num den values v) (hperm : values.Perm others) :
    IsQuantile num den others v where
  mem := hperm.subset h.mem
  enough := by
    rw [← hperm.length_eq, ← hperm.countP_eq]
    exact h.enough
  least w hw hle := by
    rw [← hperm.length_eq, ← hperm.countP_eq] at hle
    exact h.least w (hperm.symm.subset hw) hle

/-- The number of values that make up the given part. -/
def rank (num den n : Nat) : Nat := (num * n + (den - 1)) / den

theorem rank_le_iff {num den n k : Nat} (hden : 0 < den) :
    rank num den n ≤ k ↔ num * n ≤ den * k := by
  rw [rank, ← Nat.lt_succ_iff, Nat.div_lt_iff_lt_mul hden, Nat.succ_mul, Nat.mul_comm k]
  omega

/-- In sorted values, more than {lit}`i` are at most {lit}`w` exactly when the one at {lit}`i`
is. -/
theorem lt_countP_iff {values : List α} (h : values.Pairwise (· ≤ ·)) {i : Nat}
    (hi : i < values.length) (w : α) : i < values.countP (· ≤ w) ↔ values[i] ≤ w := by
  induction values generalizing i with
  | nil => cases hi
  | cons a values ih =>
    obtain ⟨hfirst, hsorted⟩ := List.pairwise_cons.mp h
    by_cases ha : a ≤ w
    · cases i with
      | zero => simp [ha]
      | succ i =>
        have hi' : i < values.length := Nat.lt_of_succ_lt_succ hi
        simpa [ha] using ih hsorted hi'
    · have hnone : values.countP (· ≤ w) = 0 := by
        refine List.countP_eq_zero.mpr fun b hb => ?_
        simpa using lt_of_lt_of_le (lt_of_not_ge ha) (hfirst b hb)
      have hlarge : ¬ (a :: values)[i] ≤ w := by
        cases i with
        | zero => exact ha
        | succ i => exact fun hle => ha ((hfirst _ (List.getElem_mem _)).trans hle)
      simp [ha, hnone, hlarge]

/-- The quantile is the value at its rank in the sorted values. -/
theorem IsQuantile.of_sorted {num den i : Nat} {values sorted : List α}
    (hperm : sorted.Perm values) (h : sorted.Pairwise (· ≤ ·)) (hden : 0 < den)
    (hi : i < sorted.length) (hrank : rank num den sorted.length = i + 1) :
    IsQuantile num den values sorted[i] := by
  refine IsQuantile.perm ⟨List.getElem_mem hi, ?_, fun w _ hle => ?_⟩ hperm
  · rw [← rank_le_iff hden, hrank, Nat.succ_le_iff, lt_countP_iff h hi]
  · rw [← rank_le_iff hden, hrank, Nat.succ_le_iff, lt_countP_iff h hi] at hle
    exact hle

end Quantile
