import Mathlib

/-!
# The newest of several candidates

Candidates have keys.  One candidate after the other is compared with the newest one so far.  Two
different candidates with one key conflict, which is noticed only if the first one is the newest
when the second one comes.

Main results:

- Theorem {lit}`fold_spec`: a result is a candidate with the greatest key.
- Theorem {lit}`fold_of_consistent`: without conflicts there is a result.
- Theorem {lit}`fold_unique`: without conflicts it does not depend on the order.
- Theorem {lit}`fold_of_conflict`: a conflict that comes first is noticed.
-/

namespace Newest

variable {α κ ε : Type} [DecidableEq α] [LinearOrder κ] (key : α → κ) (conflict : ε)

/-- Compare a candidate with the newest one so far. -/
def advance (current : Option α) (candidate : α) : Except ε (Option α) :=
  match current with
  | none => .ok (some candidate)
  | some current =>
      if key current = key candidate ∧ current ≠ candidate then .error conflict
      else if key current < key candidate then .ok (some candidate)
      else .ok (some current)

/-- Compare several candidates, one after the other. -/
def fold : Option α → List α → Except ε (Option α)
  | current, [] => .ok current
  | current, candidate :: rest =>
      match advance key conflict current candidate with
      | .error error => .error error
      | .ok next => fold next rest

theorem fold_append (current : Option α) (first second : List α) :
    fold key conflict current (first ++ second) =
      (fold key conflict current first).bind (fold key conflict · second) := by
  induction first generalizing current with
  | nil => rfl
  | cons candidate rest ih =>
    rw [List.cons_append, fold, fold]
    cases advance key conflict current candidate with
    | error error => rfl
    | ok next => exact ih next

variable {key conflict}

/-- What one comparison does. -/
theorem advance_eq_ok {current next : Option α} {candidate : α}
    (h : advance key conflict current candidate = .ok next) :
    ∃ newest, next = some newest ∧ key candidate ≤ key newest ∧
      (∀ a ∈ current, key a ≤ key newest) ∧ (newest = candidate ∨ newest ∈ current) := by
  unfold advance at h
  split at h
  · cases h
    exact ⟨candidate, rfl, le_refl _, nofun, .inl rfl⟩
  · rename_i old
    split at h
    · cases h
    split at h
    · cases h
      rename_i hlt
      refine ⟨candidate, rfl, le_refl _, ?_, .inl rfl⟩
      rintro _ ⟨⟩
      exact hlt.le
    · cases h
      rename_i hle
      refine ⟨old, rfl, le_of_not_gt hle, ?_, .inr rfl⟩
      rintro _ ⟨⟩
      exact le_refl _

/-- A result is a candidate with the greatest key. -/
theorem fold_spec {current result : Option α} {candidates : List α}
    (h : fold key conflict current candidates = .ok result) :
    (∀ a, a ∈ current ∨ a ∈ candidates → ∃ newest ∈ result, key a ≤ key newest) ∧
      ∀ newest ∈ result, newest ∈ current ∨ newest ∈ candidates := by
  induction candidates generalizing current with
  | nil =>
    cases h
    refine ⟨fun a ha => ?_, fun newest hnewest => .inl hnewest⟩
    rcases ha with ha | ha
    · exact ⟨a, ha, le_refl _⟩
    · cases ha
  | cons candidate rest ih =>
    rw [fold] at h
    split at h
    · cases h
    rename_i next hnext
    obtain ⟨newest, rfl, hcandidate, hcurrent, horigin⟩ := advance_eq_ok hnext
    obtain ⟨hgreatest, hmem⟩ := ih h
    obtain ⟨last, hlast, hle⟩ := hgreatest newest (.inl rfl)
    refine ⟨fun a ha => ?_, fun found hfound => ?_⟩
    · rcases ha with ha | ha
      · exact ⟨last, hlast, (hcurrent a ha).trans hle⟩
      · rcases List.mem_cons.mp ha with rfl | ha
        · exact ⟨last, hlast, hcandidate.trans hle⟩
        · exact hgreatest a (.inr ha)
    · rcases hmem found hfound with hfound | hfound
      · cases hfound
        rcases horigin with rfl | horigin
        · exact .inr List.mem_cons_self
        · exact .inl horigin
      · exact .inr (List.mem_cons_of_mem _ hfound)

/-- No two different candidates have one key, unless it is below the first one's. -/
def Consistent (key : α → κ) (current : Option α) (candidates : List α) : Prop :=
  ∀ a b, a ∈ current ∨ a ∈ candidates → b ∈ current ∨ b ∈ candidates →
    (∀ c ∈ current, key c ≤ key a) → key a = key b → a = b

theorem fold_of_consistent {current : Option α} {candidates : List α}
    (h : Consistent key current candidates) :
    ∃ result, fold key conflict current candidates = .ok result := by
  induction candidates generalizing current with
  | nil => exact ⟨current, rfl⟩
  | cons candidate rest ih =>
    obtain ⟨next, hnext⟩ : ∃ next, advance key conflict current candidate = .ok next := by
      unfold advance
      split
      · exact ⟨_, rfl⟩
      · rename_i old
        split
        · rename_i hconflict
          refine absurd (h old candidate (.inl rfl) (.inr List.mem_cons_self) ?_ hconflict.1)
            hconflict.2
          rintro _ ⟨⟩
          exact le_refl _
        · split <;> exact ⟨_, rfl⟩
    obtain ⟨newest, rfl, -, hcurrent, horigin⟩ := advance_eq_ok hnext
    have hbefore (a : α) (ha : a ∈ some newest ∨ a ∈ rest) :
        a ∈ current ∨ a ∈ candidate :: rest := by
      rcases ha with ha | ha
      · obtain rfl : newest = a := Option.some.inj ha
        rcases horigin with rfl | horigin
        · exact .inr List.mem_cons_self
        · exact .inl horigin
      · exact .inr (List.mem_cons_of_mem _ ha)
    rw [fold, hnext]
    refine ih fun a b ha hb hle heq => h a b (hbefore a ha) (hbefore b hb) (fun c hc => ?_) heq
    exact (hcurrent c hc).trans (hle newest rfl)

theorem fold_unique {current first second : Option α} {candidates others : List α}
    (h : Consistent key current candidates) (hmem : ∀ a, a ∈ candidates ↔ a ∈ others)
    (hfirst : fold key conflict current candidates = .ok first)
    (hsecond : fold key conflict current others = .ok second) : first = second := by
  obtain ⟨hfirst, hfirstMem⟩ := fold_spec hfirst
  obtain ⟨hsecond, hsecondMem⟩ := fold_spec hsecond
  have hback (a : α) (ha : a ∈ second) : a ∈ current ∨ a ∈ candidates :=
    (hsecondMem a ha).imp_right (hmem a).mpr
  cases first with
  | none =>
    cases second with
    | none => rfl
    | some newest =>
      obtain ⟨_, hnone, -⟩ := hfirst newest (hback newest rfl)
      cases hnone
  | some newest =>
    obtain ⟨other, hother, hle⟩ :=
      hsecond newest ((hfirstMem newest rfl).imp_right (hmem newest).mp)
    cases hother
    obtain ⟨_, ⟨⟩, hge⟩ := hfirst other (hback other rfl)
    rw [h newest other (hfirstMem newest rfl) (hback other rfl) (fun c hc => ?_)
      (le_antisymm hle hge)]
    obtain ⟨_, ⟨⟩, hc⟩ := hfirst c (.inl hc)
    exact hc

/-- Two candidates of one key are noticed when the second is compared with the first. -/
theorem fold_of_current {a b : α} {rest : List α} (hkey : key a = key b) (hne : a ≠ b) :
    fold key conflict (some a) (b :: rest) = .error conflict := by
  simp only [fold, advance, if_pos (And.intro hkey hne)]

theorem fold_of_conflict {current : Option α} {a b : α} {rest : List α}
    (hcurrent : ∀ c ∈ current, key c ≤ key a) (hkey : key a = key b) (hne : a ≠ b) :
    fold key conflict current (a :: b :: rest) = .error conflict := by
  rw [fold]
  cases current with
  | none => exact fold_of_current hkey hne
  | some c =>
    by_cases hfirst : key c = key a ∧ c ≠ a
    · simp only [advance, if_pos hfirst]
    · rw [advance, if_neg hfirst]
      split
      · rename_i herror
        split at herror <;> cases herror
      · rename_i next hnext
        split at hnext
        · cases hnext
          exact fold_of_current hkey hne
        · cases hnext
          rename_i hle
          have heq : key c = key a := le_antisymm (hcurrent c rfl) (le_of_not_gt hle)
          have hca : c = a := not_not.mp fun hca => hfirst ⟨heq, hca⟩
          rw [hca]
          exact fold_of_current hkey hne

/-- Inconsistent candidates are refused when those that conflict come first. -/
theorem exists_noticed (conflict : ε) {current : Option α} {candidates : List α}
    (h : ¬ Consistent key current candidates) :
    ∃ first : List α, first.Nodup ∧ (∀ a ∈ first, a ∈ candidates) ∧
      ∀ rest, fold key conflict current (first ++ rest) = .error conflict := by
  unfold Consistent at h
  push Not at h
  obtain ⟨a, b, ha, hb, hcurrent, hkey, hne⟩ := h
  rcases ha with ha | ha <;> rcases hb with hb | hb
  · exact absurd (Option.mem_unique ha hb) hne
  · obtain rfl := Option.mem_def.mp ha
    exact ⟨[b], List.pairwise_singleton _ b, by simpa using hb, fun rest =>
      fold_of_current hkey hne⟩
  · obtain rfl := Option.mem_def.mp hb
    exact ⟨[a], List.pairwise_singleton _ a, by simpa using ha, fun rest =>
      fold_of_current hkey.symm hne.symm⟩
  · refine ⟨[a, b], by simpa using hne, by simpa using ⟨ha, hb⟩, fun rest => ?_⟩
    exact fold_of_conflict hcurrent hkey hne

omit [DecidableEq α] [LinearOrder κ] in
/-- Answers that report one candidate each can be put first. -/
theorem exists_order [DecidableEq β] (report : β → List α) {first : List α} {answers : List β}
    (hnodup : first.Nodup) (h : ∀ a ∈ first, ∃ answer ∈ answers, report answer = [a]) :
    ∃ chosen rest : List β, (chosen ++ rest).Perm answers ∧ chosen.flatMap report = first := by
  induction first generalizing answers with
  | nil => exact ⟨[], answers, List.Perm.refl _, rfl⟩
  | cons a first ih =>
    obtain ⟨hnotMem, hfirst⟩ := List.nodup_cons.mp hnodup
    obtain ⟨answer, hanswer, hreport⟩ := h a List.mem_cons_self
    have hothers : ∀ b ∈ first, ∃ other ∈ answers.erase answer, report other = [b] := by
      intro b hb
      obtain ⟨other, hother, hreport'⟩ := h b (List.mem_cons_of_mem _ hb)
      refine ⟨other, (List.mem_erase_of_ne ?_).mpr hother, hreport'⟩
      rintro rfl
      rw [hreport] at hreport'
      exact hnotMem (List.singleton_inj.mp hreport' ▸ hb)
    obtain ⟨chosen, rest, hperm, hchosen⟩ := ih hfirst hothers
    refine ⟨answer :: chosen, rest, ?_, ?_⟩
    · exact (hperm.cons answer).trans (List.perm_cons_erase hanswer).symm
    · rw [List.flatMap_cons, hreport, hchosen, List.singleton_append]

end Newest
