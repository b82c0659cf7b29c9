import Mathlib

/-!
# The weight of a finite map

The weight of a finite map is the sum of the sizes of its values.  It follows the
entries: a map with fewer entries weighs less, a new entry adds its size, and a
removed one takes its size away.
-/

namespace Weight

variable {κ α : Type} (size : α → Nat)

/-- The sum of the sizes of the values. -/
def weight (table : AList fun _ : κ => α) : Nat :=
  (table.entries.map fun entry => size entry.2).sum

variable {size} {table other : AList fun _ : κ => α} {key : κ} {value : α}

@[simp]
theorem weight_empty : weight size (∅ : AList fun _ : κ => α) = 0 := rfl

variable [DecidableEq κ]

/-- The map with fewer entries weighs less. -/
theorem weight_le_of_lookup
    (h : ∀ key value, table.lookup key = some value → other.lookup key = some value) :
    weight size table ≤ weight size other := by
  have hsubset : table.entries ⊆ other.entries := by
    rintro ⟨key, value⟩ hentry
    exact AList.mem_lookup_iff.mp (h key value (AList.mem_lookup_iff.mpr hentry))
  obtain ⟨entries, hperm, hsublist⟩ :=
    List.subperm_of_subset table.nodupKeys.nodup hsubset
  calc weight size table
      = (entries.map fun entry => size entry.2).sum := ((hperm.map _).sum_eq).symm
    _ ≤ weight size other := (hsublist.map _).sum_le_sum fun _ _ => Nat.zero_le _

theorem weight_insert (h : table.lookup key = none) :
    weight size (table.insert key value) = size value + weight size table := by
  have habsent : key ∉ table := AList.lookup_eq_none.mp h
  rw [weight, AList.entries_insert_of_notMem habsent, List.map_cons, List.sum_cons, weight]

theorem weight_erase (h : table.lookup key = some value) :
    weight size table = size value + weight size (table.erase key) := by
  have hinsert : weight size table = weight size ((table.erase key).insert key value) := by
    apply le_antisymm
    · refine weight_le_of_lookup fun other held hheld => ?_
      by_cases hother : other = key
      · subst hother
        rw [AList.lookup_insert, ← h, hheld]
      · rw [AList.lookup_insert_ne hother, AList.lookup_erase_ne hother, hheld]
    · refine weight_le_of_lookup fun other held hheld => ?_
      by_cases hother : other = key
      · subst hother
        rwa [AList.lookup_insert, ← h] at hheld
      · rwa [AList.lookup_insert_ne hother, AList.lookup_erase_ne hother] at hheld
  rw [hinsert, weight_insert (AList.lookup_erase _ _)]

theorem size_le_weight (h : table.lookup key = some value) : size value ≤ weight size table := by
  rw [weight_erase h]
  exact Nat.le_add_right _ _

end Weight
