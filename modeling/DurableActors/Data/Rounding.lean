import Mathlib

/-!
# Rounding to a number of binary digits

A binary floating-point format without overflow is a set of multiples of its least
positive value, so its values are natural numbers here.  The format with precision
{lit}`p` has the numbers that are multiples of the spacing at their own size.

Main results:

- Definition {lit}`round`: the nearest such number to a fraction, ties to even.
- Theorem {lit}`spacing_dvd_round`: the result is a number of the format.
- Theorem {lit}`round_of_dvd`: a number of the format is its own rounding.
- Theorem {lit}`round_bounds`: the result is within half a spacing.
- Theorem {lit}`round_le_iff`: which fractions are rounded to at most a number of the format.
-/

namespace Rounding

/-- The integer nearest to a fraction, ties to even. -/
def roundEven (a b : Nat) : Nat :=
  if 2 * (a % b) < b ∨ 2 * (a % b) = b ∧ a / b % 2 = 0 then a / b else a / b + 1

theorem roundEven_mul (a b : Nat) {c : Nat} (hc : 0 < c) :
    roundEven (a * c) (b * c) = roundEven a b := by
  unfold roundEven
  rw [Nat.mul_div_mul_right _ _ hc, Nat.mul_mod_mul_right, ← mul_assoc]
  simp only [Nat.mul_lt_mul_right hc, Nat.mul_left_inj hc.ne']

theorem roundEven_exact (m : Nat) {b : Nat} (hb : 0 < b) : roundEven (m * b) b = m := by
  simp [roundEven, hb]

/-- The integer is within a half of the fraction. -/
theorem roundEven_bounds (a : Nat) {b : Nat} (hb : 0 < b) :
    2 * (roundEven a b * b) ≤ 2 * a + b ∧ 2 * a ≤ 2 * (roundEven a b * b) + b := by
  have hmod := Nat.div_add_mod a b
  have hlt := Nat.mod_lt a hb
  have hcomm : a / b * b = b * (a / b) := Nat.mul_comm _ _
  unfold roundEven
  split
  · rw [hcomm]
    omega
  · rw [Nat.add_mul, hcomm, Nat.one_mul]
    omega

theorem roundEven_le {a b m : Nat} (hb : 0 < b) (h : a ≤ m * b) : roundEven a b ≤ m := by
  rcases h.lt_or_eq with hlt | rfl
  · have hdiv : a / b < m := (Nat.div_lt_iff_lt_mul hb).mpr hlt
    unfold roundEven
    split <;> omega
  · rw [roundEven_exact m hb]

/-- The distance between neighbours of the format at the size of a number. -/
def spacing (p n : Nat) : Nat := 2 ^ (n.log2 + 1 - p)

theorem spacing_pos (p n : Nat) : 0 < spacing p n := Nat.two_pow_pos _

/-- The number of the format that is nearest to a fraction. -/
def round (p a b : Nat) : Nat :=
  roundEven a (b * spacing p (a / b)) * spacing p (a / b)

theorem round_mul (p a b : Nat) {c : Nat} (hc : 0 < c) : round p (a * c) (b * c) = round p a b := by
  unfold round
  rw [Nat.mul_div_mul_right _ _ hc, Nat.mul_right_comm, roundEven_mul _ _ hc]

@[simp] theorem round_zero (p b : Nat) : round p 0 b = 0 := by
  have hzero : roundEven 0 (b * spacing p (0 / b)) = 0 := by
    unfold roundEven
    simp only [Nat.zero_div, Nat.zero_mod, Nat.mul_zero, and_true]
    exact if_pos (Nat.lt_or_eq_of_le (Nat.zero_le _))
  rw [round, hzero, Nat.zero_mul]

theorem round_of_dvd {p u b : Nat} (hb : 0 < b) (h : spacing p u ∣ u) : round p (u * b) b = u := by
  obtain ⟨m, hm⟩ := h
  have hfraction : u * b = m * (b * spacing p u) := by
    conv_lhs => rw [hm]
    ring
  unfold round
  rw [Nat.mul_div_cancel _ hb, hfraction, roundEven_exact _ (Nat.mul_pos hb (spacing_pos p u)),
    Nat.mul_comm, ← hm]

/-- A number with few binary digits before its zeros is a number of the format. -/
theorem spacing_dvd_of_lt {p m : Nat} (hp : 0 < p) (k : Nat) (h : m < 2 ^ p) :
    spacing p (m * 2 ^ k) ∣ m * 2 ^ k := by
  refine (pow_dvd_pow 2 ?_).trans (Dvd.intro_left m rfl)
  by_cases hzero : m * 2 ^ k = 0
  · simp [hzero]
    omega
  · have hsize : m * 2 ^ k < 2 ^ (p + k) := by
      rw [Nat.pow_add]
      exact Nat.mul_lt_mul_of_pos_right h (Nat.two_pow_pos k)
    have hlog := (Nat.log2_lt hzero).mpr hsize
    omega

theorem round_le (p a : Nat) {b : Nat} (hb : 0 < b) :
    2 * (round p a b * b) ≤ 2 * a + b * spacing p (a / b) := by
  have h := (roundEven_bounds a (Nat.mul_pos hb (spacing_pos p (a / b)))).1
  calc 2 * (round p a b * b)
      = 2 * (roundEven a (b * spacing p (a / b)) * (b * spacing p (a / b))) := by
        unfold round
        ring
    _ ≤ _ := h

theorem le_round (p a : Nat) {b : Nat} (hb : 0 < b) :
    2 * a ≤ 2 * (round p a b * b) + b * spacing p (a / b) := by
  have h := (roundEven_bounds a (Nat.mul_pos hb (spacing_pos p (a / b)))).2
  calc 2 * a
      ≤ 2 * (roundEven a (b * spacing p (a / b)) * (b * spacing p (a / b))) +
          b * spacing p (a / b) := h
    _ = _ := by
        unfold round
        ring

/-- A fraction has at most the digits of the format above its spacing. -/
theorem lt_mul_spacing (p a : Nat) {b : Nat} (hb : 0 < b) :
    a < 2 ^ p * (b * spacing p (a / b)) := by
  have hquotient : a / b < 2 ^ p * spacing p (a / b) := by
    calc a / b < 2 ^ ((a / b).log2 + 1) := Nat.lt_log2_self
      _ ≤ 2 ^ (p + ((a / b).log2 + 1 - p)) := Nat.pow_le_pow_right (by decide) (by omega)
      _ = _ := by rw [Nat.pow_add, spacing]
  calc a < 2 ^ p * spacing p (a / b) * b := (Nat.div_lt_iff_lt_mul hb).mp hquotient
    _ = _ := by ring

theorem spacing_dvd_round {p : Nat} (hp : 0 < p) (a : Nat) {b : Nat} (hb : 0 < b) :
    spacing p (round p a b) ∣ round p a b := by
  have hle := roundEven_le (Nat.mul_pos hb (spacing_pos p (a / b))) (lt_mul_spacing p a hb).le
  unfold round
  generalize roundEven a (b * spacing p (a / b)) = m at hle ⊢
  generalize hk : (a / b).log2 + 1 - p = k
  have hspacing : spacing p (a / b) = 2 ^ k := by rw [spacing, hk]
  rw [hspacing]
  rcases hle.lt_or_eq with hlt | rfl
  · exact spacing_dvd_of_lt hp k hlt
  · -- The rounding went up to the next power of two.
    rw [← Nat.pow_add, spacing, Nat.log2_two_pow]
    exact pow_dvd_pow 2 (by omega)

theorem spacing_dvd_spacing {p m n : Nat} (h : m ≤ n) : spacing p m ∣ spacing p n := by
  refine pow_dvd_pow 2 ?_
  have hlog : m.log2 ≤ n.log2 := by
    rw [Nat.log2_eq_log_two, Nat.log2_eq_log_two]
    exact Nat.log_mono_right h
  omega

/-- A fraction is not rounded beyond a number of the format. -/
theorem round_le_of_le {p a b v : Nat} (hb : 0 < b) (hv : spacing p v ∣ v) (h : a ≤ v * b) :
    round p a b ≤ v := by
  have hquotient : a / b ≤ v := Nat.div_le_of_le_mul (by rwa [Nat.mul_comm] at h)
  obtain ⟨m, hm⟩ := (spacing_dvd_spacing hquotient).trans hv
  have hle : a ≤ m * (b * spacing p (a / b)) := by
    calc a ≤ v * b := h
      _ = spacing p (a / b) * m * b := by rw [← hm]
      _ = _ := by ring
  have hround := roundEven_le (Nat.mul_pos hb (spacing_pos p (a / b))) hle
  calc round p a b ≤ m * spacing p (a / b) := Nat.mul_le_mul_right _ hround
    _ = v := by rw [Nat.mul_comm, ← hm]

/-- The spacing is small beside a number with enough digits. -/
theorem spacing_mul_le {p n : Nat} (h : 2 ^ p ≤ n) : spacing p n * 2 ^ p ≤ 2 * n := by
  have hne : n ≠ 0 := by
    have := Nat.two_pow_pos p
    omega
  have hlog := (Nat.le_log2 hne).mpr h
  calc spacing p n * 2 ^ p = 2 ^ (n.log2 + 1) := by
        rw [spacing, ← Nat.pow_add]
        congr 1
        omega
    _ ≤ 2 * n := by
        rw [Nat.pow_succ]
        have := Nat.log2_self_le hne
        omega

/-- Rounding does not go below the power of two under the fraction. -/
theorem two_pow_log2_le_round {p a b : Nat} (hp : 0 < p) (hne : a / b ≠ 0) :
    2 ^ (a / b).log2 ≤ round p a b := by
  have hfloor : a / (b * spacing p (a / b)) ≤ roundEven a (b * spacing p (a / b)) := by
    unfold roundEven
    split <;> omega
  refine le_trans ?_ (Nat.mul_le_mul_right _ hfloor)
  rw [← Nat.div_div_eq_div_mul]
  have hlog := Nat.log2_self_le hne
  unfold spacing
  generalize a / b = q at hne hlog
  by_cases hsmall : q.log2 + 1 ≤ p
  · simpa [Nat.sub_eq_zero_of_le hsmall] using hlog
  · calc 2 ^ q.log2
        = 2 ^ q.log2 / 2 ^ (q.log2 + 1 - p) * 2 ^ (q.log2 + 1 - p) :=
          (Nat.div_mul_cancel (pow_dvd_pow 2 (by omega))).symm
      _ ≤ _ := Nat.mul_le_mul_right _ (Nat.div_le_div_right hlog)

/-- Rounding does not leave the size of the fraction downwards. -/
theorem spacing_le_spacing_round {p : Nat} (hp : 0 < p) (a b : Nat) :
    spacing p (a / b) ≤ spacing p (round p a b) := by
  by_cases hzero : a / b = 0
  · have hone : spacing p (a / b) = 1 := by
      simp [hzero, spacing]
      omega
    rw [hone]
    exact spacing_pos _ _
  · have hdigits := two_pow_log2_le_round hp hzero
    refine Nat.pow_le_pow_right (by decide) ?_
    have hne : round p a b ≠ 0 := by
      have := Nat.two_pow_pos (a / b).log2
      omega
    have hlog := (Nat.le_log2 hne).mpr hdigits
    omega

/-- A fraction is within half a spacing at its rounding. -/
theorem round_bounds {p : Nat} (hp : 0 < p) (a : Nat) {b : Nat} (hb : 0 < b) :
    2 * (round p a b * b) ≤ 2 * a + b * spacing p (round p a b) ∧
      2 * a ≤ 2 * (round p a b * b) + b * spacing p (round p a b) := by
  have hspacing := Nat.mul_le_mul_left b (spacing_le_spacing_round hp a b)
  have hle := round_le p a hb
  have hge := le_round p a hb
  omega

/-- A fraction is not rounded below a number of the format. -/
theorem le_round_of_le {p a b v : Nat} (hp : 0 < p) (hb : 0 < b) (hv : spacing p v ∣ v)
    (h : v * b ≤ a) : v ≤ round p a b := by
  have hquotient : v ≤ a / b := (Nat.le_div_iff_mul_le hb).mpr h
  by_cases hzero : v = 0
  · rw [hzero]
    exact Nat.zero_le _
  have hne : a / b ≠ 0 := by omega
  have hlog : v.log2 ≤ (a / b).log2 :=
    (Nat.le_log2 hne).mpr (le_trans (Nat.log2_self_le hzero) hquotient)
  rcases hlog.lt_or_eq with hlt | heq
  · calc v ≤ 2 ^ (v.log2 + 1) := Nat.lt_log2_self.le
      _ ≤ 2 ^ (a / b).log2 := Nat.pow_le_pow_right (by decide) hlt
      _ ≤ _ := two_pow_log2_le_round hp hne
  · have hspacing : spacing p (a / b) = spacing p v := by rw [spacing, spacing, heq]
    obtain ⟨m, hm⟩ := hv
    have hfloor : m ≤ a / (b * spacing p v) := by
      refine (Nat.le_div_iff_mul_le (Nat.mul_pos hb (spacing_pos p v))).mpr ?_
      calc m * (b * spacing p v) = spacing p v * m * b := by ring
        _ = v * b := by rw [← hm]
        _ ≤ a := h
    have heven : a / (b * spacing p v) ≤ roundEven a (b * spacing p v) := by
      unfold roundEven
      split <;> omega
    calc v = m * spacing p v := by rw [Nat.mul_comm, ← hm]
      _ ≤ roundEven a (b * spacing p v) * spacing p v := Nat.mul_le_mul_right _ (hfloor.trans heven)
      _ = _ := by rw [round, hspacing]

/-- A number of the format and the next one lie below the same power of two. -/
theorem add_spacing_le {p v : Nat} (hp : 0 < p) (hv : spacing p v ∣ v) :
    v + spacing p v ≤ 2 ^ (v.log2 + 1) := by
  have hdvd : spacing p v ∣ 2 ^ (v.log2 + 1) := pow_dvd_pow 2 (by omega)
  obtain ⟨m, hm⟩ := hv
  obtain ⟨k, hk⟩ := hdvd
  have hlt : spacing p v * m < spacing p v * k := by
    rw [← hm, ← hk]
    exact Nat.lt_log2_self
  have hmk : m + 1 ≤ k := Nat.lt_of_mul_lt_mul_left hlt
  calc v + spacing p v = spacing p v * (m + 1) := by rw [Nat.mul_add, ← hm, Nat.mul_one]
    _ ≤ spacing p v * k := Nat.mul_le_mul_left _ hmk
    _ = _ := hk.symm

/-- Between a number of the format and the next one the spacing is that of the number. -/
theorem spacing_eq_of_between {p v q : Nat} (hp : 0 < p) (hv : spacing p v ∣ v) (hle : v ≤ q)
    (hlt : q < v + spacing p v) : spacing p q = spacing p v := by
  by_cases hzero : v = 0
  · have hone : spacing p 0 = 1 := by
      simp [spacing]
      omega
    rw [hzero, hone] at hlt
    obtain rfl : q = v := by omega
    rfl
  · have hne : q ≠ 0 := by omega
    have hupper : q.log2 < v.log2 + 1 :=
      (Nat.log2_lt hne).mpr (lt_of_lt_of_le hlt (add_spacing_le hp hv))
    have hlower : v.log2 ≤ q.log2 :=
      (Nat.le_log2 hne).mpr (le_trans (Nat.log2_self_le hzero) hle)
    rw [spacing, spacing, show q.log2 = v.log2 by omega]

/-- The next number of the format. -/
theorem spacing_dvd_add {p v : Nat} (hp : 0 < p) (hv : spacing p v ∣ v) :
    spacing p (v + spacing p v) ∣ v + spacing p v := by
  by_cases hzero : v = 0
  · have hone : spacing p 0 = 1 := by
      simp [spacing]
      omega
    rw [hzero, hone, Nat.zero_add]
    have hsmall : spacing p 1 = 1 := by
      rw [spacing, show Nat.log2 1 = 0 by decide, Nat.sub_eq_zero_of_le hp, Nat.pow_zero]
    rw [hsmall]
  rcases (add_spacing_le hp hv).lt_or_eq with hlt | heq
  · have hlog : (v + spacing p v).log2 = v.log2 := by
      have hne : v + spacing p v ≠ 0 := by omega
      have hupper := (Nat.log2_lt hne).mpr hlt
      have hlower : v.log2 ≤ (v + spacing p v).log2 :=
        (Nat.le_log2 hne).mpr (le_trans (Nat.log2_self_le hzero) (Nat.le_add_right _ _))
      omega
    rw [spacing, hlog, ← spacing]
    exact Nat.dvd_add hv dvd_rfl
  · rw [heq, spacing, Nat.log2_two_pow]
    exact pow_dvd_pow 2 (by omega)

/-- A fraction is rounded to at most a number of the format exactly if it is below the middle to the
next one, or at the middle and the number is even. -/
theorem round_le_iff {p a b v : Nat} (hp : 0 < p) (hb : 0 < b) (hv : spacing p v ∣ v) :
    round p a b ≤ v ↔ 2 * a < b * (2 * v + spacing p v) ∨
      (2 * a = b * (2 * v + spacing p v) ∧ v / spacing p v % 2 = 0) := by
  have hs := spacing_pos p v
  have hmiddle : b * (2 * v + spacing p v) = 2 * (v * b) + b * spacing p v := by ring
  have hbs : 0 < b * spacing p v := Nat.mul_pos hb hs
  rw [hmiddle]
  by_cases hle : a ≤ v * b
  · refine iff_of_true (round_le_of_le hb hv hle) (.inl ?_)
    omega
  by_cases hnext : (v + spacing p v) * b ≤ a
  · -- The fraction is not below the next number, and is rounded at least to it.
    have hround := le_round_of_le hp hb (spacing_dvd_add hp hv) hnext
    rw [Nat.add_mul, Nat.mul_comm (spacing p v)] at hnext
    refine iff_of_false (by omega) ?_
    omega
  · have hlower : v ≤ a / b := (Nat.le_div_iff_mul_le hb).mpr (by omega)
    have hupper : a / b < v + spacing p v := (Nat.div_lt_iff_lt_mul hb).mpr (by omega)
    have hspacing := spacing_eq_of_between hp hv hlower hupper
    obtain ⟨m, hm⟩ := hv
    have hvb : v * b = m * (b * spacing p v) := by
      conv_lhs => rw [hm]
      ring
    have hnext' : a < (m + 1) * (b * spacing p v) := by
      rw [Nat.add_mul, Nat.mul_comm (spacing p v)] at hnext
      rw [Nat.add_mul, Nat.one_mul, ← hvb]
      omega
    have hdiv : a / (b * spacing p v) = m :=
      Nat.div_eq_of_lt_le (by rw [← hvb]; omega) hnext'
    have hmod : m * (b * spacing p v) + a % (b * spacing p v) = a := by
      rw [← hdiv, Nat.mul_comm]
      exact Nat.div_add_mod a _
    have hvalue : v = m * spacing p v := by rw [Nat.mul_comm, ← hm]
    have hparity : v / spacing p v = m := Nat.div_eq_of_eq_mul_left hs hvalue
    rw [round, hspacing, roundEven, hdiv, hparity]
    split
    · rename_i hdown
      refine iff_of_true hvalue.ge ?_
      omega
    · rename_i hup
      refine iff_of_false ?_ (by omega)
      rw [Nat.add_mul, Nat.one_mul, ← hvalue]
      omega

end Rounding
