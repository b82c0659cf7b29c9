import Mathlib

/-!
# Pages of a table in descending order

Rows with distinct keys are read in descending order of their keys, a page at a time: each page
holds the first rows below the last key of the page before.

Main results:

- Theorem {lit}`pairwise_descending`: the keys of the sorted rows strictly descend.
- Theorem {lit}`descending_filter`: a condition may be applied before or after sorting.
- Theorem {lit}`filter_below`: the rows below a key are those after its row.
- Theorem {lit}`mem_take_iff`: a first part of ascending rows is told by its last key.
-/

namespace DurableActors
namespace Paging

variable {α κ : Type} [LinearOrder κ] (key : α → κ)

/-- The rows in descending order of their keys. -/
def descending (rows : List α) : List α :=
  rows.insertionSort fun a b => key b ≤ key a

theorem perm_descending (rows : List α) : (descending key rows).Perm rows :=
  List.perm_insertionSort _ rows

@[simp] theorem mem_descending {rows : List α} {a : α} : a ∈ descending key rows ↔ a ∈ rows :=
  (perm_descending key rows).mem_iff

variable {key}

/-- The keys of the sorted rows strictly descend. -/
theorem pairwise_descending {rows : List α} (h : (rows.map key).Nodup) :
    (descending key rows).Pairwise fun a b => key b < key a := by
  have htotal : Std.Total fun a b => key b ≤ key a := ⟨fun a b => le_total (key b) (key a)⟩
  have htrans : IsTrans α fun a b => key b ≤ key a := ⟨fun _ _ _ hab hbc => le_trans hbc hab⟩
  have hsorted : (descending key rows).Pairwise fun a b => key b ≤ key a :=
    List.pairwise_insertionSort _ rows
  have hdistinct : (descending key rows).Pairwise fun a b => key a ≠ key b :=
    List.pairwise_map.mp (((perm_descending key rows).map key).nodup_iff.mpr h)
  exact hsorted.imp₂ (fun _ _ hle hne => lt_of_le_of_ne hle hne.symm) hdistinct

/-- Strictly descending lists with the same rows are equal. -/
theorem eq_of_mem_iff {first second : List α} (hfirst : first.Pairwise fun a b => key b < key a)
    (hsecond : second.Pairwise fun a b => key b < key a) (h : ∀ a, a ∈ first ↔ a ∈ second) :
    first = second := by
  have hirrefl : Std.Irrefl fun a b => key b < key a := ⟨fun a => lt_irrefl (key a)⟩
  have hantisymm : Std.Antisymm fun a b => key b < key a :=
    ⟨fun _ _ hab hba => absurd hab (lt_asymm hba)⟩
  exact hfirst.eq_of_mem_iff hsecond h

/-- A condition may be applied before or after sorting. -/
theorem descending_filter {rows : List α} (h : (rows.map key).Nodup) (p : α → Bool) :
    descending key (rows.filter p) = (descending key rows).filter p := by
  have hsub : ((rows.filter p).map key).Nodup := h.sublist (List.filter_sublist.map key)
  refine eq_of_mem_iff (pairwise_descending hsub) ((pairwise_descending h).filter _) fun a => ?_
  simp

/-- The rows below a key are those after its row. -/
theorem filter_below {before rest : List α} {last : α}
    (h : (before ++ last :: rest).Pairwise fun a b => key b < key a) :
    (before ++ last :: rest).filter (fun a => key a < key last) = rest := by
  have hbefore : ∀ a ∈ before, ¬ key a < key last := fun a ha =>
    lt_asymm ((List.pairwise_append.mp h).2.2 a ha last List.mem_cons_self)
  have hrest : ∀ a ∈ rest, key a < key last :=
    (List.pairwise_cons.mp (List.pairwise_append.mp h).2.1).1
  rw [List.filter_append, List.filter_cons, if_neg (by simp),
    List.filter_eq_nil_iff.mpr (by simpa using hbefore),
    List.filter_eq_self.mpr (by simpa using hrest), List.nil_append]

/-- A first part of ascending rows holds the rows up to its last key. -/
theorem mem_take_iff {rows : List α} {n : Nat} {last a : α}
    (h : rows.Pairwise fun a b => key a < key b) (hlast : (rows.take n).getLast? = some last)
    (ha : a ∈ rows) : a ∈ rows.take n ↔ key a ≤ key last := by
  obtain ⟨before, hbefore⟩ := List.getLast?_eq_some_iff.mp hlast
  have hsplit : before ++ [last] ++ rows.drop n = rows := by
    rw [← hbefore, List.take_append_drop]
  have hsorted := h
  rw [← hsplit] at hsorted ha
  obtain ⟨hfirst, -, hdropped⟩ := List.pairwise_append.mp hsorted
  rw [hbefore]
  constructor
  · intro hmem
    rcases List.mem_append.mp hmem with hmem | hmem
    · exact le_of_lt ((List.pairwise_append.mp hfirst).2.2 a hmem last List.mem_cons_self)
    · rw [List.mem_singleton.mp hmem]
  · intro hle
    rcases List.mem_append.mp ha with hmem | hmem
    · exact hmem
    · exact absurd (hdropped last (by simp) a hmem) (not_lt.mpr hle)

end Paging
end DurableActors
