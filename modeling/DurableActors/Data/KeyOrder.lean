import Mathlib

/-!
# Association lists in key order

A finite map is kept as the list of its entries with strictly increasing keys.  Two
such lists with the same entries are equal, so a map has one representation.

Main results:

- Theorem {lit}`KeyOrdered.ext`: lists in key order with the same entries are equal.
- Theorem {lit}`collect_perm`: collecting entries with distinct keys puts them in key order.
-/

namespace KeyOrder

variable {κ α β : Type} [LinearOrder κ]

/-- The keys increase strictly. -/
def KeyOrdered (entries : List (κ × α)) : Prop :=
  entries.Pairwise fun first second => first.1 < second.1

namespace KeyOrdered

variable {entries other : List (κ × α)}

theorem head_lt {entry : κ × α} (h : KeyOrdered (entry :: entries)) {later : κ × α}
    (hlater : later ∈ entries) : entry.1 < later.1 :=
  (List.pairwise_cons.mp h).1 later hlater

theorem tail {entry : κ × α} (h : KeyOrdered (entry :: entries)) : KeyOrdered entries :=
  (List.pairwise_cons.mp h).2

theorem nodup (h : KeyOrdered entries) : entries.Nodup := by
  refine List.Pairwise.imp ?_ h
  rintro first second hlt rfl
  exact lt_irrefl _ hlt

/-- A key has one value. -/
theorem value_unique (h : KeyOrdered entries) {key : κ} {first second : α}
    (hfirst : (key, first) ∈ entries) (hsecond : (key, second) ∈ entries) : first = second := by
  induction entries with
  | nil => cases hfirst
  | cons entry entries ih =>
      rcases List.mem_cons.mp hfirst with rfl | hfirst'
      · rcases List.mem_cons.mp hsecond with heq | hsecond'
        · exact (Prod.mk.inj heq).2.symm
        · exact absurd (h.head_lt hsecond') (lt_irrefl _)
      · rcases List.mem_cons.mp hsecond with rfl | hsecond'
        · exact absurd (h.head_lt hfirst') (lt_irrefl _)
        · exact ih h.tail hfirst' hsecond'

/-- Lists in key order with the same entries are equal. -/
theorem ext (h : KeyOrdered entries) (hother : KeyOrdered other)
    (hmem : ∀ entry, entry ∈ entries ↔ entry ∈ other) : entries = other := by
  have hperm : entries.Perm other := (List.perm_ext_iff_of_nodup h.nodup hother.nodup).mpr hmem
  refine hperm.eq_of_pairwise ?_ h hother
  intro first second _ _ hlt hgt
  exact absurd hlt hgt.asymm

theorem filter (h : KeyOrdered entries) (keep : κ × α → Bool) :
    KeyOrdered (entries.filter keep) :=
  h.sublist List.filter_sublist

/-- Entries may be dropped and values changed. -/
theorem filterMap (h : KeyOrdered entries) {f : κ × α → Option (κ × β)}
    (hkey : ∀ entry image, f entry = some image → image.1 = entry.1) :
    KeyOrdered (entries.filterMap f) := by
  refine List.pairwise_filterMap.mpr (h.imp fun hlt image himage image' himage' => ?_)
  rw [hkey _ _ himage, hkey _ _ himage']
  exact hlt

end KeyOrdered

/-! ## Maps from entries -/

/-- The map with an entry put into it.  An entry with the same key is replaced. -/
def put (entry : κ × α) : List (κ × α) → List (κ × α)
  | [] => [entry]
  | first :: entries =>
      if entry.1 < first.1 then entry :: first :: entries
      else if entry.1 = first.1 then entry :: entries
      else first :: put entry entries

/-- The map of the given entries. -/
def collect (entries : List (κ × α)) : List (κ × α) :=
  entries.foldl (fun collected entry => put entry collected) []

theorem mem_put {entry other : κ × α} {entries : List (κ × α)}
    (h : other ∈ put entry entries) : other = entry ∨ other ∈ entries := by
  induction entries with
  | nil => exact .inl (List.mem_singleton.mp h)
  | cons first entries ih =>
    simp only [put] at h
    split at h
    · exact List.mem_cons.mp h
    · split at h
      · rcases List.mem_cons.mp h with heq | hmem
        · exact .inl heq
        · exact .inr (List.mem_cons_of_mem _ hmem)
      · rcases List.mem_cons.mp h with rfl | hmem
        · exact .inr List.mem_cons_self
        · rcases ih hmem with heq | hold
          · exact .inl heq
          · exact .inr (List.mem_cons_of_mem _ hold)

theorem KeyOrdered.put {entries : List (κ × α)} (h : KeyOrdered entries) (entry : κ × α) :
    KeyOrdered (put entry entries) := by
  induction entries with
  | nil => exact List.pairwise_singleton _ _
  | cons first entries ih =>
    simp only [KeyOrder.put]
    split
    · rename_i hlt
      refine List.pairwise_cons.mpr ⟨fun other hother => ?_, h⟩
      rcases List.mem_cons.mp hother with rfl | hlater
      · exact hlt
      · exact hlt.trans (h.head_lt hlater)
    · split
      · rename_i heq
        refine List.pairwise_cons.mpr ⟨fun other hother => ?_, h.tail⟩
        rw [heq]
        exact h.head_lt hother
      · rename_i hlt hne
        refine List.pairwise_cons.mpr ⟨fun other hother => ?_, ih h.tail⟩
        rcases mem_put hother with rfl | hold
        · exact lt_of_le_of_ne (not_lt.mp hlt) (Ne.symm hne)
        · exact h.head_lt hold

/-- An entry with a new key. -/
theorem put_perm {entry : κ × α} {entries : List (κ × α)}
    (h : ∀ other ∈ entries, entry.1 ≠ other.1) : (put entry entries).Perm (entry :: entries) := by
  induction entries with
  | nil => exact .refl _
  | cons first entries ih =>
    obtain ⟨hfirst, hentries⟩ := List.forall_mem_cons.mp h
    simp only [put]
    split
    · exact .refl _
    · exact ((ih hentries).cons first).trans (.swap entry first entries)

private theorem foldl_put {entries collected : List (κ × α)} (h : KeyOrdered collected) :
    KeyOrdered (entries.foldl (fun collected entry => put entry collected) collected) := by
  induction entries generalizing collected with
  | nil => exact h
  | cons entry entries ih => exact ih (h.put entry)

theorem keyOrdered_collect (entries : List (κ × α)) : KeyOrdered (collect entries) :=
  foldl_put List.Pairwise.nil

private theorem mem_foldl_put {entries collected : List (κ × α)} {entry : κ × α}
    (h : entry ∈ entries.foldl (fun collected entry => put entry collected) collected) :
    entry ∈ collected ∨ entry ∈ entries := by
  induction entries generalizing collected with
  | nil => exact .inl h
  | cons first entries ih =>
    rcases ih h with hput | hlater
    · rcases mem_put hput with rfl | hold
      · exact .inr List.mem_cons_self
      · exact .inl hold
    · exact .inr (List.mem_cons_of_mem _ hlater)

theorem mem_of_collect {entries : List (κ × α)} {entry : κ × α} (h : entry ∈ collect entries) :
    entry ∈ entries :=
  (mem_foldl_put h).resolve_left List.not_mem_nil

private theorem foldl_put_perm {entries collected : List (κ × α)}
    (h : ((collected ++ entries).map Prod.fst).Nodup) :
    (entries.foldl (fun collected entry => put entry collected) collected).Perm
      (collected ++ entries) := by
  induction entries generalizing collected with
  | nil => simp
  | cons entry entries ih =>
    have hperm : (put entry collected).Perm (entry :: collected) := by
      refine put_perm fun other hother heq => ?_
      rw [List.map_append, List.nodup_append] at h
      exact h.2.2 other.1 (List.mem_map_of_mem hother) entry.1 (by simp) heq.symm
    have hall : (put entry collected ++ entries).Perm (collected ++ entry :: entries) :=
      (hperm.append_right entries).trans List.perm_middle.symm
    exact (ih ((hall.map Prod.fst).nodup_iff.mpr h)).trans hall

/-- Entries with distinct keys are put in key order, and nothing else. -/
theorem collect_perm {entries : List (κ × α)} (h : (entries.map Prod.fst).Nodup) :
    (collect entries).Perm entries :=
  foldl_put_perm h

/-- Maps do not depend on the order in which their entries are put into them. -/
theorem collect_congr {entries other : List (κ × α)} (h : entries.Perm other)
    (hkeys : (entries.map Prod.fst).Nodup) : collect entries = collect other := by
  have hkeys' : (other.map Prod.fst).Nodup := (h.map Prod.fst).nodup_iff.mp hkeys
  refine (keyOrdered_collect entries).ext (keyOrdered_collect other) fun entry => ?_
  rw [(collect_perm hkeys).mem_iff, (collect_perm hkeys').mem_iff, h.mem_iff]

theorem KeyOrdered.nodup_keys {entries : List (κ × α)} (h : KeyOrdered entries) :
    (entries.map Prod.fst).Nodup :=
  List.pairwise_map.mpr (h.imp fun hlt => ne_of_lt hlt)

theorem KeyOrdered.collect_eq {entries : List (κ × α)} (h : KeyOrdered entries) :
    collect entries = entries := by
  refine (keyOrdered_collect entries).ext h fun entry => ?_
  rw [(collect_perm h.nodup_keys).mem_iff]

end KeyOrder
