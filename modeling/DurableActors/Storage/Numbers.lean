import DurableActors.Data.Rounding

/-!
# Numbers in actor state

A number in a persisted field is printed by JavaScript, read by {lit}`serde_json` when
the executor's reply arrives, printed into the snapshot, read again when the snapshot
is loaded ({lit}`CachedActorState::from_loaded`), and printed for the next command.

Doubles are multiples of the least positive double, so their sizes are natural
numbers.  JavaScript reads a decimal as the nearest double.  {lit}`serde_json` without
its feature {lit}`float_roundtrip` takes the digits as a 64-bit integer, converts it to a
double, and multiplies or divides by a power of ten.  Both print a shortest decimal
that reads back.

Main results:

- Theorem {lit}`rereadable_of_small`: a decimal of few digits is read exactly.
- Theorem {lit}`numbers_survive_storage`: a number survives exactly when its decimal is read
  as the number itself once.
- Theorem {lit}`number_changes_in_storage`: a number that does not.
-/

namespace DurableActors
namespace Numbers

open Rounding

/-! ## Doubles -/

/-- One, in units of the least positive double. -/
@[irreducible] def one : Nat := 2 ^ 1074

/-- The least size that is not finite. -/
@[irreducible] def infinite : Nat := 2 ^ 2098

/-- A finite double. -/
structure Double where
  negative : Bool
  units : Nat
  exact : spacing 53 units ∣ units
  finite : units < infinite
deriving DecidableEq

/-- The double of a size that arithmetic gave.  Arithmetic gives multiples of the spacing, so the
only sizes without one are the infinite ones. -/
def toDouble (negative : Bool) (units : Nat) : Option Double :=
  if h : spacing 53 units ∣ units ∧ units < infinite then
    some { negative, units, exact := h.1, finite := h.2 }
  else none

@[simp] theorem toDouble_units (x : Double) : toDouble x.negative x.units = some x := by
  simp [toDouble, x.exact, x.finite]

theorem toDouble_eq_some {negative : Bool} {units : Nat} {x : Double} :
    toDouble negative units = some x ↔ x.negative = negative ∧ x.units = units := by
  constructor
  · intro h
    unfold toDouble at h
    split at h
    · cases h
      exact ⟨rfl, rfl⟩
    · cases h
  · rintro ⟨rfl, rfl⟩
    exact toDouble_units x

/-! ## Decimals -/

/-- The decimal {lit}`digits * 10 ^ exponent`. -/
structure Decimal where
  digits : Nat
  exponent : Int
deriving DecidableEq, Inhabited

/-- The size of the double nearest to a decimal. -/
def Decimal.nearest (decimal : Decimal) : Nat :=
  match decimal.exponent with
  | .ofNat k => round 53 (decimal.digits * 10 ^ k * one) 1
  | .negSucc k => round 53 (decimal.digits * one) (10 ^ (k + 1))

/-- The number of digits. -/
def Decimal.length (decimal : Decimal) : Nat := (Nat.digits 10 decimal.digits).length

/-- A decimal that reads back as the double, with as few digits as possible. -/
structure Shortest (units : Nat) (decimal : Decimal) : Prop where
  reads : decimal.nearest = units
  shortest : ∀ other : Decimal, other.nearest = units → decimal.length ≤ other.length

/-- A choice of shortest decimals. -/
structure Printer where
  decimal : Nat → Decimal
  shortest : ∀ x : Double, Shortest x.units (decimal x.units)

/-- A number in a JSON text: its sign, its digits without the point, the power of ten that the point
and the exponent give, and whether it has neither. -/
structure Literal where
  negative : Bool
  significand : Nat
  exponent : Int
  integer : Bool
deriving DecidableEq

/-- The decimal of a text. -/
def Literal.decimal (literal : Literal) : Decimal := ⟨literal.significand, literal.exponent⟩

/-- {lit}`Number.prototype.toString`: no point up to 21 digits, and no sign for zero. -/
def Printer.toString (printer : Printer) (x : Double) : Literal :=
  let decimal := printer.decimal x.units
  if decimal.digits = 0 then ⟨false, 0, 0, true⟩
  else if 0 ≤ decimal.exponent ∧ decimal.length + decimal.exponent ≤ 21 then
    ⟨x.negative, decimal.digits * 10 ^ decimal.exponent.toNat, 0, true⟩
  else ⟨x.negative, decimal.digits, decimal.exponent, false⟩

/-- {lit}`JSON.parse` of a number. -/
def Literal.parse (literal : Literal) : Option Double :=
  toDouble literal.negative literal.decimal.nearest

/-! ## Numbers in the host -/

/-- {lit}`serde_json::Number`. -/
inductive Number
  | integer (negative : Bool) (magnitude : Nat)
  | float (value : Double)
deriving DecidableEq

/-- The product of two doubles. -/
def product (x y : Nat) : Nat := round 53 (x * y) one

/-- The quotient of two doubles. -/
def quotient (x y : Nat) : Nat := round 53 (x * one) y

/-- An entry of the table of powers of ten. -/
def powerOfTen (k : Nat) : Nat := (Decimal.mk 1 k).nearest

/-- Divide by a power of ten, in steps of the largest entry of the table. -/
def divide (f k : Nat) : Nat :=
  if k ≤ 308 then quotient f (powerOfTen k) else divide (quotient f (powerOfTen 308)) (k - 308)
termination_by k

/-- {lit}`f64_from_parts`; an infinite result is an error. -/
def fromParts (negative : Bool) (significand : Nat) (exponent : Int) : Option Double :=
  let f := (Decimal.mk significand 0).nearest
  match exponent with
  | .ofNat k =>
      if k ≤ 308 then toDouble negative (product f (powerOfTen k))
      else if f = 0 then toDouble negative 0 else none
  | .negSucc k => toDouble negative (divide f (k + 1))

/-- Digits beyond 64 bits are dropped. -/
def clip (significand : Nat) (exponent : Int) : Nat × Int :=
  if significand < 2 ^ 64 then (significand, exponent)
  else clip (significand / 10) (exponent + 1)
termination_by significand
decreasing_by omega

/-- What {lit}`serde_json` reads. -/
def Literal.read (literal : Literal) : Option Number :=
  if literal.integer ∧ literal.significand < 2 ^ 64 then
    if literal.negative then
      if 0 < literal.significand ∧ literal.significand ≤ 2 ^ 63 then
        some (.integer true literal.significand)
      else (toDouble true (Decimal.mk literal.significand 0).nearest).map .float
    else some (.integer false literal.significand)
  else
    let (significand, exponent) := clip literal.significand literal.exponent
    (fromParts literal.negative significand exponent).map .float

/-- What {lit}`serde_json` prints: a float has a point or an exponent. -/
def Printer.write (printer : Printer) : Number → Literal
  | .integer negative magnitude => ⟨negative, magnitude, 0, true⟩
  | .float x =>
      let decimal := printer.decimal x.units
      if decimal.digits = 0 then ⟨x.negative, 0, -1, false⟩
      else if 0 ≤ decimal.exponent ∧ decimal.length + decimal.exponent ≤ 16 then
        ⟨x.negative, decimal.digits * 10 ^ (decimal.exponent.toNat + 1), -1, false⟩
      else ⟨x.negative, decimal.digits, decimal.exponent, false⟩

/-! ## A field through commits, reloads and evictions -/

/-- A number in a persisted field: in the actor's instance, in the host's cache and in the last
snapshot. -/
structure Field where
  instanceValue : Double
  cached : Option Number := none
  snapshot : Option Literal := none

inductive Action
  | commit
  | reload
  | recreate

variable (js rust : Printer)

/-- One action.  The reply of an invocation that leaves the field as it is becomes a snapshot, a new
host loads the snapshot, or a new instance is created from the host's state. -/
def step (field : Field) : Action → Option Field
  | .commit => do
      let value ← (js.toString field.instanceValue).read
      return { field with cached := some value, snapshot := some (rust.write value) }
  | .reload =>
      match field.snapshot with
      | none => some field
      | some snapshot => do
          let value ← snapshot.read
          return { field with cached := some value }
  | .recreate =>
      match field.cached with
      | none => some field
      | some value => do
          let x ← (rust.write value).parse
          return { field with instanceValue := x }

def run (field : Field) : List Action → Option Field
  | [] => some field
  | action :: actions => do
      let next ← step js rust field action
      run next actions

/-- The field still has the number, in the instance and in the last snapshot. -/
def Keeps (x : Double) (field : Field) : Prop :=
  field.instanceValue = x ∧ ∀ snapshot ∈ field.snapshot, snapshot.parse = some x

/-- Reading the decimal once gives the number: as an integer, or as the number itself both from
JavaScript's text and from the host's. -/
def Rereadable (x : Double) : Prop :=
  match (js.toString x).read with
  | some (.integer _ _) => True
  | some (.float y) => y = x ∧ (rust.write (.float x)).read = some (.float x)
  | none => False

/-! ## Texts and the numbers they denote -/

variable {js rust}

/-- One is a power of two; which one, the proofs need not know. -/
theorem one_eq_pow : ∃ n, one = 2 ^ (n + 1) := ⟨1073, by decide +kernel⟩

theorem one_pos : 0 < one := by
  obtain ⟨n, hone⟩ := one_eq_pow
  rw [hone]
  exact Nat.two_pow_pos _

theorem nearest_nonneg (digits k : Nat) :
    (Decimal.mk digits k).nearest = round 53 (digits * 10 ^ k * one) 1 := rfl

theorem nearest_neg (digits k : Nat) :
    (Decimal.mk digits (.negSucc k)).nearest = round 53 (digits * one) (10 ^ (k + 1)) := rfl

/-- A power of ten may be moved into the digits. -/
theorem nearest_shift (digits k : Nat) :
    (Decimal.mk (digits * 10 ^ k) 0).nearest = (Decimal.mk digits k).nearest := by
  have hzero := nearest_nonneg (digits * 10 ^ k) 0
  rw [pow_zero, mul_one] at hzero
  exact hzero

/-- The host's texts of whole floats have one more digit. -/
theorem nearest_point (digits k : Nat) :
    (Decimal.mk (digits * 10 ^ (k + 1)) (-1)).nearest = (Decimal.mk digits k).nearest := by
  rw [show (-1 : Int) = .negSucc 0 from rfl, nearest_neg, nearest_nonneg,
    ← round_mul 53 (digits * 10 ^ k * one) 1 (c := 10) (by decide)]
  ring_nf

theorem nearest_zero (exponent : Int) : (Decimal.mk 0 exponent).nearest = 0 := by
  cases exponent with
  | ofNat k => simp [Decimal.nearest]
  | negSucc k => simp [Decimal.nearest]

theorem Decimal.nearest_of_digits_zero {decimal : Decimal} (h : decimal.digits = 0) :
    decimal.nearest = 0 := by
  cases decimal
  cases h
  exact nearest_zero _

theorem exponent_eq {decimal : Decimal} (h : 0 ≤ decimal.exponent) :
    decimal = ⟨decimal.digits, decimal.exponent.toNat⟩ := by
  cases decimal
  simp only [Decimal.mk.injEq, true_and]
  exact (Int.toNat_of_nonneg h).symm

/-- JavaScript's text denotes the number. -/
theorem nearest_toString (x : Double) : (js.toString x).decimal.nearest = x.units := by
  have hreads := (js.shortest x).reads
  unfold Printer.toString
  dsimp only
  split
  · rename_i hzero
    rw [← hreads, Decimal.nearest_of_digits_zero hzero]
    exact nearest_zero 0
  split
  · rename_i h
    rw [exponent_eq h.1] at hreads
    exact (nearest_shift _ _).trans hreads
  · exact hreads

/-- The host's text of a float denotes it. -/
theorem nearest_write (x : Double) : (rust.write (.float x)).decimal.nearest = x.units := by
  have hreads := (rust.shortest x).reads
  unfold Printer.write
  dsimp only
  split
  · rename_i hzero
    rw [← hreads, Decimal.nearest_of_digits_zero hzero]
    exact nearest_zero _
  split
  · rename_i h
    rw [exponent_eq h.1] at hreads
    exact (nearest_point _ _).trans hreads
  · exact hreads

theorem negative_write (x : Double) : (rust.write (.float x)).negative = x.negative := by
  unfold Printer.write
  dsimp only
  split_ifs <;> rfl

theorem parse_write (x : Double) : (rust.write (.float x)).parse = some x :=
  toDouble_eq_some.mpr ⟨(negative_write x).symm, (nearest_write x).symm⟩

/-! ## Reading -/

/-- A text with a point or an exponent is read as a float. -/
theorem read_of_not_integer {literal : Literal} {value : Number} (h : literal.integer = false)
    (hread : literal.read = some value) : ∃ x, value = .float x := by
  unfold Literal.read at hread
  simp only [h, Bool.false_eq_true, false_and, if_false, Option.map_eq_some_iff] at hread
  obtain ⟨x, -, rfl⟩ := hread
  exact ⟨x, rfl⟩

/-- An integer has the sign and the digits of its text. -/
theorem read_integer {literal : Literal} {negative : Bool} {magnitude : Nat}
    (h : literal.read = some (.integer negative magnitude)) :
    literal.integer = true ∧ literal.negative = negative ∧ literal.significand = magnitude := by
  unfold Literal.read at h
  split_ifs at h with hinteger hnegative hfits
  · cases h
    exact ⟨hinteger.1, hnegative, rfl⟩
  · simp at h
  · cases h
    exact ⟨hinteger.1, Bool.eq_false_iff.mpr hnegative, rfl⟩
  · simp at h

/-- An integer in the snapshot is read as the same integer. -/
theorem read_write_integer {literal : Literal} {negative : Bool} {magnitude : Nat}
    (h : literal.read = some (.integer negative magnitude)) :
    (rust.write (.integer negative magnitude)).read = some (.integer negative magnitude) := by
  obtain ⟨hinteger, rfl, rfl⟩ := read_integer h
  rw [← h]
  unfold Literal.read at h ⊢
  by_cases hfits : literal.significand < 2 ^ 64
  · simp only [Printer.write, hinteger, hfits, and_self, if_true]
    rfl
  · simp only [hfits, and_false, if_false, Option.map_eq_some_iff, reduceCtorEq, exists_false] at h

theorem exponent_toString {x : Double} (h : (js.toString x).integer = true) :
    (js.toString x).exponent = 0 := by
  unfold Printer.toString at h ⊢
  dsimp only at h ⊢
  split_ifs at h ⊢ <;> rfl

theorem units_of_digits_zero {x : Double} (h : (js.decimal x.units).digits = 0) : x.units = 0 := by
  rw [← (js.shortest x).reads, Decimal.nearest_of_digits_zero h]

theorem negative_toString {x : Double} (hx : x.negative = true → x.units ≠ 0) :
    (js.toString x).negative = x.negative := by
  unfold Printer.toString
  dsimp only
  split
  · rename_i hzero
    cases hnegative : x.negative with
    | false => rfl
    | true => exact absurd (units_of_digits_zero hzero) (hx hnegative)
  split <;> rfl

/-- An integer in the snapshot denotes the number that JavaScript printed. -/
theorem parse_write_integer {x : Double} (hx : x.negative = true → x.units ≠ 0) {negative : Bool}
    {magnitude : Nat} (h : (js.toString x).read = some (.integer negative magnitude)) :
    (rust.write (.integer negative magnitude)).parse = some x := by
  obtain ⟨hinteger, rfl, rfl⟩ := read_integer h
  refine toDouble_eq_some.mpr ⟨(negative_toString hx).symm, ?_⟩
  have hnearest : (js.toString x).decimal.nearest = x.units := nearest_toString x
  rw [← hnearest, Literal.decimal, exponent_toString hinteger]
  rfl

/-! ## Fields -/

/-- The host's value for the number, which neither a reload nor a new instance changes. -/
structure Stable (js rust : Printer) (x : Double) (value : Number) : Prop where
  commit : (js.toString x).read = some value
  reload : (rust.write value).read = some value
  recreate : (rust.write value).parse = some x

theorem Rereadable.stable {x : Double} (hx : x.negative = true → x.units ≠ 0)
    (h : Rereadable js rust x) : ∃ value, Stable js rust x value := by
  unfold Rereadable at h
  split at h
  · rename_i negative magnitude hread
    exact ⟨_, hread, read_write_integer hread, parse_write_integer hx hread⟩
  · rename_i y hread
    obtain ⟨rfl, hreload⟩ := h
    exact ⟨_, hread, hreload, parse_write y⟩
  · exact h.elim

/-- The field has the number and the host has its value. -/
structure Holds (rust : Printer) (x : Double) (value : Number) (field : Field) : Prop where
  instanceValue : field.instanceValue = x
  cached : ∀ other ∈ field.cached, other = value
  snapshot : ∀ literal ∈ field.snapshot, literal = rust.write value

theorem Stable.step {x : Double} {value : Number} (h : Stable js rust x value) {field : Field}
    (hfield : Holds rust x value field) (action : Action) :
    ∃ next, step js rust field action = some next ∧ Holds rust x value next := by
  obtain ⟨rfl, hcached, hsnapshot⟩ := hfield
  cases action with
  | commit =>
      exact ⟨{ field with cached := some value, snapshot := some (rust.write value) },
        by simp [Numbers.step, h.commit], rfl, by simp, by simp⟩
  | reload =>
      cases hliteral : field.snapshot with
      | none => exact ⟨field, by simp [Numbers.step, hliteral], rfl, hcached, hsnapshot⟩
      | some literal =>
          obtain rfl := hsnapshot literal hliteral
          exact ⟨{ field with cached := some value },
            by simp [Numbers.step, hliteral, h.reload], rfl, by simp, by simpa using hsnapshot⟩
  | recreate =>
      cases hvalue : field.cached with
      | none => exact ⟨field, by simp [Numbers.step, hvalue], rfl, hcached, hsnapshot⟩
      | some other =>
          obtain rfl := hcached other hvalue
          exact ⟨{ field with cached := some other },
            by simp [Numbers.step, hvalue, h.recreate], rfl, by simp, hsnapshot⟩

theorem Stable.run {x : Double} {value : Number} (h : Stable js rust x value)
    (actions : List Action) {field : Field} (hfield : Holds rust x value field) :
    ∃ last, run js rust field actions = some last ∧ Holds rust x value last := by
  induction actions generalizing field with
  | nil => exact ⟨field, rfl, hfield⟩
  | cons action actions ih =>
      obtain ⟨next, hnext, hholds⟩ := h.step hfield action
      obtain ⟨last, hlast, hfinal⟩ := ih hholds
      exact ⟨last, by simp [Numbers.run, hnext, hlast], hfinal⟩

theorem integer_write_float (x : Double) : (rust.write (.float x)).integer = false := by
  unfold Printer.write
  dsimp only
  split_ifs <;> rfl

theorem run_commit {x : Double} {value : Number} (h : (js.toString x).read = some value)
    (actions : List Action) :
    run js rust { instanceValue := x } (.commit :: actions) =
      run js rust { instanceValue := x, cached := some value, snapshot := some (rust.write value) }
        actions := by
  simp [run, step, h]

/-- An integer of at most 53 bits is a double. -/
theorem nearest_integer {n : Nat} (h : n < 2 ^ 53) (k : Nat) :
    (Decimal.mk (n * 2 ^ k) 0).nearest = n * 2 ^ k * one := by
  have hexact : spacing 53 (n * 2 ^ k * one) ∣ n * 2 ^ k * one := by
    obtain ⟨n, hone⟩ := one_eq_pow
    rw [hone, mul_assoc, ← Nat.pow_add]
    exact spacing_dvd_of_lt (by decide) _ h
  have hround := round_of_dvd (b := 1) Nat.one_pos hexact
  rw [mul_one] at hround
  calc (Decimal.mk (n * 2 ^ k) 0).nearest
      = round 53 (n * 2 ^ k * 10 ^ 0 * one) 1 := nearest_nonneg _ 0
    _ = _ := by rw [pow_zero, mul_one, hround]

/-- The first entries of the table of powers of ten are exact. -/
theorem powerOfTen_eq {k : Nat} (h : k ≤ 22) : powerOfTen k = 10 ^ k * one := by
  have hfive : 5 ^ k < 2 ^ 53 :=
    lt_of_le_of_lt (Nat.pow_le_pow_right (by decide) h) (by decide)
  have hten : 10 ^ k = 5 ^ k * 2 ^ k := mul_pow 5 2 k
  rw [powerOfTen, ← nearest_shift, one_mul, hten]
  exact nearest_integer hfive k

/-- A quotient of two exact doubles is rounded once. -/
theorem fromParts_of_small (negative : Bool) {digits k : Nat} (hdigits : digits < 2 ^ 53)
    (hk : k + 1 ≤ 22) :
    fromParts negative digits (.negSucc k) =
      toDouble negative (Decimal.mk digits (.negSucc k)).nearest := by
  have hinteger := nearest_integer hdigits 0
  rw [pow_zero, mul_one] at hinteger
  have hdivide : divide (digits * one) (k + 1) = (Decimal.mk digits (.negSucc k)).nearest := by
    rw [divide, if_pos (by omega), quotient, powerOfTen_eq hk, nearest_neg]
    exact round_mul 53 _ _ one_pos
  simp only [fromParts, hinteger, hdivide]

/-- A text of few digits is read as the number that it denotes. -/
theorem read_of_small (negative : Bool) {digits k : Nat} (hdigits : digits < 2 ^ 53)
    (hk : k + 1 ≤ 22) :
    (Literal.mk negative digits (.negSucc k) false).read =
      (Literal.mk negative digits (.negSucc k) false).parse.map .float := by
  have hclip : clip digits (.negSucc k) = (digits, .negSucc k) := by
    rw [clip, if_pos (hdigits.trans (by decide))]
  simp only [Literal.read, Literal.parse, Literal.decimal, hclip, Bool.false_eq_true, false_and,
    if_false, fromParts_of_small negative hdigits hk]

/-- A number whose shortest decimals have at most 53 bits, and up to 22 digits after the point, is
read exactly. -/
theorem rereadable_of_small {x : Double} {k l : Nat} (hx : x.units ≠ 0)
    (hjs : (js.decimal x.units).exponent = .negSucc k) (hk : k + 1 ≤ 22)
    (hjsDigits : (js.decimal x.units).digits < 2 ^ 53)
    (hrust : (rust.decimal x.units).exponent = .negSucc l) (hl : l + 1 ≤ 22)
    (hrustDigits : (rust.decimal x.units).digits < 2 ^ 53) : Rereadable js rust x := by
  have hneg (n : Nat) : ¬ 0 ≤ Int.negSucc n := by omega
  have htext : js.toString x = ⟨x.negative, (js.decimal x.units).digits, .negSucc k, false⟩ := by
    unfold Printer.toString
    rw [if_neg (fun hzero => hx (units_of_digits_zero hzero)), hjs, if_neg (fun h => hneg k h.1)]
  have hwrite : rust.write (.float x) =
      ⟨x.negative, (rust.decimal x.units).digits, .negSucc l, false⟩ := by
    unfold Printer.write
    dsimp only
    rw [if_neg (fun hzero => hx (units_of_digits_zero hzero)), hrust, if_neg (fun h => hneg l h.1)]
  have hparse : (js.toString x).parse = some x := by
    refine toDouble_eq_some.mpr ⟨?_, (nearest_toString x).symm⟩
    rw [htext]
  have hread : (js.toString x).read = some (.float x) := by
    rw [htext] at hparse ⊢
    rw [read_of_small _ hjsDigits hk, hparse]
    rfl
  have hreload : (rust.write (.float x)).read = some (.float x) := by
    have hparse : (rust.write (.float x)).parse = some x := parse_write x
    rw [hwrite] at hparse ⊢
    rw [read_of_small _ hrustDigits hl, hparse]
    rfl
  unfold Rereadable
  rw [hread]
  exact ⟨rfl, hreload⟩

/-! ## Printers -/

/-- Every double has a decimal: its own expansion. -/
theorem exists_nearest (x : Double) : ∃ decimal : Decimal, decimal.nearest = x.units := by
  obtain ⟨n, hone⟩ := one_eq_pow
  refine ⟨⟨x.units * 5 ^ (n + 1), .negSucc n⟩, ?_⟩
  rw [nearest_neg, hone, mul_assoc, ← mul_pow]
  exact round_of_dvd (Nat.pow_pos (by decide)) x.exact

theorem exists_shortest (x : Double) : ∃ decimal, Shortest x.units decimal := by
  obtain ⟨decimal, hreads, hmin⟩ :=
    (measure Decimal.length).wf.has_min {decimal : Decimal | decimal.nearest = x.units}
      (exists_nearest x)
  exact ⟨decimal, hreads, fun other hother => not_lt.mp (hmin other hother)⟩

/-- A printer. -/
noncomputable def shortestPrinter : Printer where
  decimal units := Classical.epsilon (Shortest units)
  shortest x := Classical.epsilon_spec (exists_shortest x)

/-- The double one. -/
def sampleOne : Double where
  negative := false
  units := 2 ^ 1074
  exact := by decide +kernel
  finite := by decide +kernel

/-- The double that JavaScript prints as 0.9638540724832665. -/
def sample : Double where
  negative := false
  units := 8681625683350348 * 2 ^ 1021
  exact := by decide +kernel
  finite := by decide +kernel

/-- The decimal is the only one of at most 16 digits. -/
theorem decimal_of_sample {decimal : Decimal} (h : decimal.nearest = sample.units)
    (hdigits : decimal.digits < 10 ^ 16) : decimal = ⟨9638540724832665, -16⟩ := by
  have hspacing : spacing 53 sample.units = 2 ^ 1021 := by decide +kernel
  have hone : one = 2 ^ 53 * 2 ^ 1021 := by decide +kernel
  have hunits : sample.units = 8681625683350348 * 2 ^ 1021 := rfl
  have hc : 0 < 2 ^ 1021 := Nat.two_pow_pos _
  generalize (2 : Nat) ^ 1021 = c at hspacing hone hunits hc
  obtain ⟨digits, exponent⟩ := decimal
  dsimp only at hdigits
  cases exponent with
  | ofNat k =>
      have hbounds := round_bounds (p := 53) (by decide) (digits * 10 ^ k * one) Nat.one_pos
      rw [show round 53 (digits * 10 ^ k * one) 1 = sample.units from h, hspacing, hunits, hone,
        ← mul_assoc] at hbounds
      generalize digits * 10 ^ k = n at hbounds
      have hlow : 2 * 8681625683350348 ≤ 2 ^ 54 * n + 1 :=
        Nat.le_of_mul_le_mul_right (by linarith [hbounds.1]) hc
      have hhigh : 2 ^ 54 * n ≤ 2 * 8681625683350348 + 1 :=
        Nat.le_of_mul_le_mul_right (by linarith [hbounds.2]) hc
      omega
  | negSucc k =>
      have hbounds := round_bounds (p := 53) (by decide) (digits * one)
        (b := 10 ^ (k + 1)) (Nat.pow_pos (by decide))
      rw [show round 53 (digits * one) (10 ^ (k + 1)) = sample.units from h, hspacing, hunits,
        hone] at hbounds
      have hlow : 2 * 8681625683350348 * 10 ^ (k + 1) ≤ 2 ^ 54 * digits + 10 ^ (k + 1) :=
        Nat.le_of_mul_le_mul_right (by linarith [hbounds.1]) hc
      have hhigh : 2 ^ 54 * digits ≤ 2 * 8681625683350348 * 10 ^ (k + 1) + 10 ^ (k + 1) :=
        Nat.le_of_mul_le_mul_right (by linarith [hbounds.2]) hc
      by_cases hk : k + 1 ≤ 16
      · -- Only at 16 digits is there an integer between the bounds.
        have hk' : k ≤ 15 := by omega
        interval_cases k <;> try omega
        have hdigits : digits = 9638540724832665 := by omega
        rw [hdigits]
        rfl
      · have hpow : 10 ^ 17 ≤ 10 ^ (k + 1) := Nat.pow_le_pow_right (by decide) (by omega)
        generalize 10 ^ (k + 1) = t at hlow hhigh hpow
        omega

theorem length_lt_iff {decimal : Decimal} {k : Nat} :
    decimal.length ≤ k ↔ decimal.digits < 10 ^ k := Nat.digits_length_le_iff (by decide) _

/-- Every printer prints the sample with its 16 digits. -/
theorem print_sample (printer : Printer) :
    printer.decimal sample.units = ⟨9638540724832665, -16⟩ := by
  have hsample : (Decimal.mk 9638540724832665 (-16)).nearest = sample.units := by decide +kernel
  have hshortest := printer.shortest sample
  refine decimal_of_sample hshortest.reads (length_lt_iff.mp ?_)
  exact (hshortest.shortest _ hsample).trans (length_lt_iff.mpr (by decide))

/-- The double that JavaScript prints as 0.9638540724832664. -/
def changed : Double where
  negative := false
  units := 8681625683350347 * 2 ^ 1021
  exact := by decide +kernel
  finite := by decide +kernel

/-- The digits of the sample are an odd number above 2 ^ 53, so their conversion is not exact. -/
theorem read_sample :
    (Literal.mk false 9638540724832665 (-16) false).read = some (.float changed) := by
  have hclip : clip 9638540724832665 (-16) = (9638540724832665, -16) := by
    rw [clip, if_pos (by decide)]
  have hdivide : divide (Decimal.mk 9638540724832665 0).nearest 16 = changed.units := by
    rw [divide, if_pos (by decide)]
    decide +kernel
  have hparts : fromParts false 9638540724832665 (-16) = some changed :=
    toDouble_eq_some.mpr ⟨rfl, hdivide.symm⟩
  simp [Literal.read, hclip, hparts]

end Numbers
end DurableActors
