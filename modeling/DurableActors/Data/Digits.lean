import Mathlib

/-!
# Printing and reading natural numbers

Numbers in a radix of at most 16, padded with zeros, and bounded integers read from such texts.

Main results:

- Theorem {lit}`parse_pad`: a padded number is read as the number.
- Theorem {lit}`length_pad`: a number with few digits is padded to the width.
- Theorem {lit}`mem_pad`: the characters of a number.
-/

namespace Digits

/-- The digits of a number, the first one first. -/
def digitsOf (radix n : Nat) : List Nat := if n = 0 then [0] else (radix.digits n).reverse

/-- A number in a radix. -/
def format (radix n : Nat) : List Char := (digitsOf radix n).map Nat.digitChar

/-- A text with zeros in front. -/
def pad (width : Nat) (text : List Char) : List Char :=
  List.replicate (width - text.length) '0' ++ text

/-- The value of a digit, in either case. -/
def digitValue (c : Char) : Option Nat :=
  if 48 ≤ c.toNat ∧ c.toNat ≤ 57 then some (c.toNat - 48)
  else if 97 ≤ c.toNat ∧ c.toNat ≤ 122 then some (c.toNat - 87)
  else if 65 ≤ c.toNat ∧ c.toNat ≤ 90 then some (c.toNat - 55)
  else none

/-- The value of a digit of a radix. -/
def toDigit (radix : Nat) (c : Char) : Option Nat := (digitValue c).filter (· < radix)

/-- Read an unsigned integer below a bound.  A plus sign may stand in front. -/
def parse (radix bound : Nat) (text : List Char) : Option Nat :=
  let digits := if text.head? = some '+' then text.tail else text
  if digits.isEmpty then none
  else do
    let values ← digits.mapM (toDigit radix)
    let n := Nat.ofDigits radix values.reverse
    if n < bound then some n else none

variable {radix : Nat}

theorem digitsOf_ne_nil (radix n : Nat) : digitsOf radix n ≠ [] := by
  unfold digitsOf
  split
  · exact List.cons_ne_nil _ _
  · rename_i hn
    rw [Ne, List.reverse_eq_nil_iff]
    exact Nat.digits_ne_nil_iff_ne_zero.mpr hn

theorem digitsOf_lt (hradix : 2 ≤ radix) {n d : Nat} (h : d ∈ digitsOf radix n) : d < radix := by
  unfold digitsOf at h
  split at h
  · rw [List.mem_singleton.mp h]
    omega
  · exact Nat.digits_lt_base hradix (List.mem_reverse.mp h)

theorem ofDigits_digitsOf (radix n : Nat) :
    Nat.ofDigits radix (digitsOf radix n).reverse = n := by
  unfold digitsOf
  split
  · rename_i hn
    rw [hn]
    simp
  · rw [List.reverse_reverse, Nat.ofDigits_digits]

theorem length_format_le (hradix : 2 ≤ radix) {n k : Nat} (hk : 0 < k) (h : n < radix ^ k) :
    (format radix n).length ≤ k := by
  rw [format, List.length_map, digitsOf]
  split
  · exact hk
  · rw [List.length_reverse]
    exact (Nat.digits_length_le_iff hradix n).mpr h

theorem length_pad {width : Nat} {text : List Char} (h : text.length ≤ width) :
    (pad width text).length = width := by
  rw [pad, List.length_append, List.length_replicate]
  omega

/-- A padded number is made of digits. -/
theorem pad_format (radix width n : Nat) :
    pad width (format radix n) = (List.replicate (width - (format radix n).length) 0 ++
      digitsOf radix n).map Nat.digitChar := by
  rw [List.map_append, List.map_replicate]
  rfl

theorem mem_pad (hradix : 2 ≤ radix) {width n : Nat} {c : Char}
    (h : c ∈ pad width (format radix n)) : ∃ d < radix, c = Nat.digitChar d := by
  rw [pad_format] at h
  obtain ⟨d, hd, rfl⟩ := List.mem_map.mp h
  rcases List.mem_append.mp hd with hzero | hdigit
  · rw [List.eq_of_mem_replicate hzero]
    exact ⟨0, by omega, rfl⟩
  · exact ⟨d, digitsOf_lt hradix hdigit, rfl⟩

theorem toDigit_digitChar (hradix : radix ≤ 16) {d : Nat} (h : d < radix) :
    toDigit radix (Nat.digitChar d) = some d := by
  have hall : ∀ d : Fin 16, digitValue (Nat.digitChar d) = some d.val := by decide
  rw [toDigit, hall ⟨d, h.trans_le hradix⟩]
  simp [h]

theorem mapM_toDigit (hradix : radix ≤ 16) {values : List Nat} (h : ∀ d ∈ values, d < radix) :
    (values.map Nat.digitChar).mapM (toDigit radix) = some values := by
  induction values with
  | nil => rfl
  | cons d values ih =>
    obtain ⟨hd, hvalues⟩ := List.forall_mem_cons.mp h
    simp [List.mapM_cons, toDigit_digitChar hradix hd, ih hvalues]

/-- A digit is not a sign. -/
theorem digitChar_ne_plus {d : Nat} (h : d < 16) : Nat.digitChar d ≠ '+' := by
  have hall : ∀ d : Fin 16, Nat.digitChar d ≠ '+' := by decide
  exact hall ⟨d, h⟩

theorem parse_digits (hradix : radix ≤ 16) {values : List Nat} (hne : values ≠ [])
    (h : ∀ d ∈ values, d < radix) {bound : Nat}
    (hbound : Nat.ofDigits radix values.reverse < bound) :
    parse radix bound (values.map Nat.digitChar) = some (Nat.ofDigits radix values.reverse) := by
  have hsign : (values.map Nat.digitChar).head? ≠ some '+' := by
    intro hhead
    obtain ⟨d, hd, hplus⟩ := List.mem_map.mp (List.mem_of_mem_head? hhead)
    exact digitChar_ne_plus ((h d hd).trans_le hradix) hplus
  have hnonempty : ¬ (values.map Nat.digitChar).isEmpty := by simpa using hne
  simp only [parse, if_neg hsign, if_neg hnonempty, mapM_toDigit hradix h, Option.bind_eq_bind,
    Option.bind_some, if_pos hbound]

theorem parse_pad (hradix : 2 ≤ radix) (hradix' : radix ≤ 16) {n bound : Nat} (h : n < bound)
    (width : Nat) : parse radix bound (pad width (format radix n)) = some n := by
  have hvalue : Nat.ofDigits radix (List.replicate (width - (format radix n).length) 0 ++
      digitsOf radix n).reverse = n := by
    rw [List.reverse_append, Nat.ofDigits_append, ofDigits_digitsOf, List.reverse_replicate,
      Nat.ofDigits_replicate_zero, Nat.mul_zero, Nat.add_zero]
  rw [pad_format, parse_digits hradix', hvalue]
  · exact List.append_ne_nil_of_right_ne_nil _ (digitsOf_ne_nil radix n)
  · intro d hd
    rcases List.mem_append.mp hd with hzero | hdigit
    · rw [List.eq_of_mem_replicate hzero]
      omega
    · exact digitsOf_lt hradix hdigit
  · rw [hvalue]
    exact h

end Digits
