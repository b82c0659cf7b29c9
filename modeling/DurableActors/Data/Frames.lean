import Mathlib

/-!
# Frames with a separator

A stream of symbols in which every frame is ended by a separator, cut into its complete
frames and the part that is still open.

Main results:

- Theorem {lit}`split_append`: what comes later only continues the open part.
- Theorem {lit}`split_join`: a stream of ended frames is cut into those frames.
-/

namespace Frames

variable {α : Type} [DecidableEq α] (sep : α)

/-- The complete frames of a stream and its open part. -/
def split : List α → List (List α) × List α
  | [] => ([], [])
  | x :: xs =>
      if x = sep then ([] :: (split xs).1, (split xs).2)
      else
        match (split xs).1 with
        | [] => ([], x :: (split xs).2)
        | frame :: frames => ((x :: frame) :: frames, (split xs).2)

/-- The stream of ended frames. -/
def join (frames : List (List α)) : List α := frames.flatMap (· ++ [sep])

@[simp] theorem split_nil : split sep [] = ([], []) := rfl

/-- A stream without a separator is open. -/
theorem split_of_notMem {xs : List α} (h : sep ∉ xs) : split sep xs = ([], xs) := by
  induction xs with
  | nil => rfl
  | cons x xs ih =>
      rw [List.mem_cons, not_or] at h
      rw [split, if_neg (Ne.symm h.1), ih h.2]

theorem split_cons_sep (xs : List α) :
    split sep (sep :: xs) = ([] :: (split sep xs).1, (split sep xs).2) := by
  rw [split, if_pos rfl]

/-- The first separator ends the first frame. -/
theorem split_frame {frame : List α} (h : sep ∉ frame) (xs : List α) :
    split sep (frame ++ sep :: xs) = (frame :: (split sep xs).1, (split sep xs).2) := by
  induction frame with
  | nil => exact split_cons_sep sep xs
  | cons x frame ih =>
      rw [List.mem_cons, not_or] at h
      rw [List.cons_append, split, if_neg (Ne.symm h.1), ih h.2]

theorem notMem_open (xs : List α) : sep ∉ (split sep xs).2 := by
  induction xs with
  | nil => simp
  | cons x xs ih =>
      rw [split]
      split
      · exact ih
      · rename_i hne
        split
        · exact List.not_mem_cons_of_ne_of_not_mem (Ne.symm hne) ih
        · exact ih

/-- The frames that a longer stream adds come from the open part and what follows it. -/
theorem split_append (xs ys : List α) :
    split sep (xs ++ ys) =
      ((split sep xs).1 ++ (split sep ((split sep xs).2 ++ ys)).1,
        (split sep ((split sep xs).2 ++ ys)).2) := by
  induction xs with
  | nil => simp
  | cons x xs ih =>
      rw [List.cons_append, split, ih]
      by_cases hsep : x = sep
      · rw [split, if_pos hsep, if_pos hsep]
        rfl
      · rw [split, if_neg hsep, if_neg hsep]
        cases hframes : (split sep xs).1 with
        | nil =>
            simp only [List.nil_append, List.cons_append]
            rw [split, if_neg hsep]
        | cons frame frames => rfl

/-- A stream of ended frames is cut into them. -/
theorem split_join {frames : List (List α)} (h : ∀ frame ∈ frames, sep ∉ frame) :
    split sep (join sep frames) = (frames, []) := by
  induction frames with
  | nil => rfl
  | cons frame frames ih =>
      rw [List.forall_mem_cons] at h
      have hjoin : join sep (frame :: frames) = frame ++ sep :: join sep frames := by simp [join]
      rw [hjoin, split_frame sep h.1, ih h.2]

end Frames
