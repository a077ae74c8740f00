import VisionBill.Lib.Rounding
import Mathlib.Algebra.Order.Ring.Rat

/-!
# Python numbers

A `float` is modelled by the number its `repr` prints, which determines
it; a `Decimal` by its value. Decimal arithmetic follows the default
context of the `decimal` module: 28 digits, ties to even, exponents from
-999999 to 999999, `Overflow` and `InvalidOperation` raised – and
underflow *not* raised, so that a tiny difference of two distinct numbers
silently becomes zero (`absDiffLe_zero_iff`).

## What is kept of a number

The program converts a float to a decimal by way of its text,
`Decimal(str(q))`, so what matters of a float is what `repr` prints. That
is a multiple of `floatUnit`, since the smallest float has no digit below
it, and this is all that is ever used of the format: two floats that
differ, differ by something that a decimal can hold
(`absDiffLe_zero_toDecimal`). A decimal that comes from a text of the
model has no such bound, and can be smaller than anything the context
computes with.

A `Decimal` also has an exponent and a sign of zero, which its value does
not show. No modelled operation depends on them: amounts are compared,
added and converted to a column, and each of these is a function of the
value.

## Which operations may raise

Ordering a NaN is an `InvalidOperation`, and so is the sum of opposite
infinities; a result above the largest exponent is an `Overflow`. Neither
is a `ValueError`, which is what a validator of the schema is expected to
raise. So arithmetic inside a validator can escape from it, and the
operations return their exceptions instead of being total on the numbers
that look harmless.
-/

namespace VisionBill

/-- The exceptions that the pure part of the program raises. They are told
apart by their class, because handlers are chosen by it, and by their
message where a caller shows that. -/
inductive PyError
  /-- `ValueError`, with its message. -/
  | valueError (message : String)
  /-- `pydantic.ValidationError`, with the field that failed. -/
  | validationError (field : String)
  /-- `IndexError`. -/
  | indexError
  /-- `decimal.Overflow`. -/
  | overflow
  /-- `decimal.InvalidOperation`. -/
  | invalidOperation
  deriving DecidableEq, Repr

/-- The place below which no `repr` of a float has a digit: the smallest
subnormal float is printed as `5e-324`. -/
def floatUnit : ℚ := 10 ^ (-324 : ℤ)

/-- A Python `float`. Two finite floats are the same if they are printed
alike; the sign of zero is not kept. -/
inductive PyFloat
  /-- A finite float, as the number its `repr` prints. -/
  | finite (repr : ℚ) (grid : ∃ n : ℤ, repr = n * floatUnit)
  | inf (negative : Bool)
  | nan
  deriving DecidableEq

theorem floatUnit_pos : 0 < floatUnit := zpow_pos (by norm_num) _

theorem exists_mul_floatUnit (n : ℤ) : ∃ k : ℤ, (n : ℚ) = k * floatUnit := by
  refine ⟨n * (10 : ℤ) ^ (324 : ℤ).toNat, ?_⟩
  have hpow : (10 : ℚ) ^ (324 : ℤ).toNat * floatUnit = 1 := by
    rw [floatUnit, ← zpow_natCast, ← zpow_add₀ (by norm_num)]
    rfl
  rw [Int.cast_mul, mul_assoc, Int.cast_pow, Int.cast_ofNat, hpow, mul_one]

/-- The float of an integer. -/
def PyFloat.ofInt (n : ℤ) : PyFloat := .finite n (exists_mul_floatUnit n)

/-- `q > 0`. -/
def PyFloat.IsPos : PyFloat → Prop
  | .finite repr _ => 0 < repr
  | .inf negative => negative = false
  | .nan => False

instance : DecidablePred PyFloat.IsPos := fun q =>
  match q with
  | .finite repr _ => inferInstanceAs (Decidable (0 < repr))
  | .inf negative => inferInstanceAs (Decidable (negative = false))
  | .nan => inferInstanceAs (Decidable False)

theorem isPos_one : (PyFloat.ofInt 1).IsPos := by decide

theorem isPos_two : (PyFloat.ofInt 2).IsPos := by decide

/-- A Python `Decimal`, by its value. A NaN is one value, since nothing
depends on what it carries. -/
inductive PyDecimal
  | finite (value : ℚ)
  | inf (negative : Bool)
  | nan
  deriving DecidableEq

/-- `Decimal(str(q))`. -/
def PyFloat.toDecimal : PyFloat → PyDecimal
  | .finite repr _ => .finite repr
  | .inf negative => .inf negative
  | .nan => .nan

namespace Decimal

/-- The digits that the default context keeps. -/
def prec : ℕ := 28

/-- The largest exponent of the default context. -/
def emax : ℤ := 999999

/-- The exponent of the last digit of the smallest subnormal number. -/
def etiny : ℤ := -1000026

/-- The result of an operation, rounded to the context. What is too small
becomes zero without notice, and what is too large raises. -/
def fix (x : ℚ) : Except PyError PyDecimal :=
  let r := Rounding.floatRound 10 prec etiny x
  if 10 ^ (emax + 1) ≤ |r| then .error .overflow else .ok (.finite r)

/-- `a + b`. The result is rounded to the precision of the context, and
may overflow. -/
def add : PyDecimal → PyDecimal → Except PyError PyDecimal
  | .nan, _ => .ok .nan
  | _, .nan => .ok .nan
  | .finite x, .finite y => fix (x + y)
  | .inf s, .inf t => if s = t then .ok (.inf s) else .error .invalidOperation
  | .inf s, .finite _ => .ok (.inf s)
  | .finite _, .inf t => .ok (.inf t)

/-- `-a`, which is exact. -/
def neg : PyDecimal → PyDecimal
  | .finite x => .finite (-x)
  | .inf s => .inf (!s)
  | .nan => .nan

/-- `a - b`. -/
def sub (a b : PyDecimal) : Except PyError PyDecimal := add a (neg b)

/-- `abs(a)`, which rounds to the context like every operation. -/
def abs : PyDecimal → Except PyError PyDecimal
  | .finite x => fix |x|
  | .inf _ => .ok (.inf false)
  | .nan => .ok .nan

/-- `a <= b`; an ordering comparison with a NaN is an invalid
operation. -/
def le : PyDecimal → PyDecimal → Except PyError Bool
  | .nan, _ => .error .invalidOperation
  | _, .nan => .error .invalidOperation
  | .finite x, .finite y => .ok (x ≤ y)
  | .inf s, .inf t => .ok (s || !t)
  | .inf s, .finite _ => .ok s
  | .finite _, .inf t => .ok (!t)

/-- `abs(a - b) <= tolerance`. -/
def absDiffLe (a b tolerance : PyDecimal) : Except PyError Bool := do
  let difference ← sub a b
  let distance ← abs difference
  le distance tolerance

/-! ## Finite numbers

Arithmetic whose operands are known to be finite works on their values. -/

/-- The finite result of an operation, rounded to the context. -/
def fixFinite (x : ℚ) : Except PyError ℚ :=
  let r := Rounding.floatRound 10 prec etiny x
  if 10 ^ (emax + 1) ≤ |r| then .error .overflow else .ok r

theorem fix_eq_map (x : ℚ) : fix x = (fixFinite x).map .finite := by
  unfold fix fixFinite
  dsimp only
  split <;> rfl

/-- The sum of finite decimals is their sum as numbers, rounded. -/
theorem add_finite (x y : ℚ) :
    add (.finite x) (.finite y) = (fixFinite (x + y)).map .finite := fix_eq_map _

theorem sub_finite (x y : ℚ) :
    sub (.finite x) (.finite y) = (fixFinite (x - y)).map .finite := by
  rw [sub_eq_add_neg]
  exact fix_eq_map _

/-- `x.quantize(Decimal(10) ** -places)`. It raises where the result would
have more digits than the context keeps. -/
def quantize (places : ℕ) (x : ℚ) : Except PyError ℚ :=
  let n := Rounding.halfEven (x * 10 ^ places)
  if 10 ^ prec ≤ |n| then .error .invalidOperation else .ok (n / 10 ^ places)

/-- An amount in cents is not rounded below 10 ^ 26. It has 28 digits at
most then, which is the precision of the context. -/
theorem fixFinite_of_cents {n : ℤ} {x : ℚ} (hx : x = n / 100) (hlt : |x| < 10 ^ 26) :
    fixFinite x = .ok x := by
  have hround : Rounding.floatRound 10 prec etiny x = x := by
    refine Rounding.floatRound_of_mul (e := -2) (n := n) (by decide) (by decide) ?_ ?_
    · rw [hx]
      norm_num
      ring
    · refine hlt.trans_eq ?_
      norm_num [prec]
  have hbig : ¬ (10 : ℚ) ^ (emax + 1) ≤ |x| := by
    rw [not_le]
    refine hlt.trans_le ?_
    rw [← zpow_natCast]
    exact zpow_le_zpow_right₀ (by norm_num) (by decide)
  unfold fixFinite
  rw [hround]
  exact if_neg hbig

/-- What is at most a power of ten stays so, and does not overflow. A
power of ten has one digit, so rounding cannot lead past it. -/
theorem fixFinite_of_le {e : ℕ} (he : (e : ℤ) ≤ emax) {x : ℚ} (h : |x| ≤ 10 ^ e) :
    ∃ r, fixFinite x = .ok r ∧ |r| ≤ 10 ^ e := by
  have hround : |Rounding.floatRound 10 prec etiny x| ≤ 10 ^ e := by
    have hle : |x| ≤ ((10 : ℕ) : ℚ) ^ (e : ℤ) := by
      rw [zpow_natCast]
      exact_mod_cast h
    have hmin : etiny ≤ (e : ℤ) := le_trans (by decide) (Int.natCast_nonneg e)
    have hround := Rounding.abs_floatRound_le (p := prec) (by decide) (by decide) hmin hle
    rw [zpow_natCast] at hround
    exact_mod_cast hround
  have hbig : ¬ (10 : ℚ) ^ (emax + 1) ≤ |Rounding.floatRound 10 prec etiny x| := by
    rw [not_le]
    refine hround.trans_lt ?_
    rw [← zpow_natCast]
    exact zpow_lt_zpow_right₀ (by norm_num) (by omega)
  exact ⟨_, if_neg hbig, hround⟩

/-- `fix` returns the rounded number, where it returns. -/
theorem fix_eq_ok {x : ℚ} {d : PyDecimal} (h : fix x = .ok d) :
    d = .finite (Rounding.floatRound 10 prec etiny x) := by
  unfold fix at h
  dsimp only at h
  split at h
  · exact absurd h (by simp)
  · exact (Except.ok.inj h).symm

@[simp] theorem fix_zero : fix 0 = .ok (.finite 0) := by
  have hpos : ¬ (10 : ℚ) ^ (emax + 1) ≤ |0| := by
    rw [abs_zero, not_le]
    exact zpow_pos (by norm_num) _
  unfold fix
  rw [Rounding.floatRound_zero]
  exact if_neg hpos

theorem floatRound_eq_zero_iff (x : ℚ) :
    Rounding.floatRound 10 prec etiny x = 0 ↔ |x| ≤ 1 / 2 * 10 ^ etiny := by
  exact_mod_cast Rounding.floatRound_eq_zero_iff (b := 10) (p := prec) (by decide) (by decide)
    etiny x

theorem half_etiny_nonneg : (0 : ℚ) ≤ 1 / 2 * 10 ^ etiny :=
  mul_nonneg (by norm_num) (zpow_nonneg (by norm_num) _)

/-- **Two decimals at distance zero are not always equal**: the difference
of two numbers closer than half the smallest subnormal underflows, and the
comparison accepts them. It raises where the difference overflows. -/
theorem absDiffLe_zero_iff (x y : ℚ) :
    absDiffLe (.finite x) (.finite y) (.finite 0) = .ok true
      ↔ |x - y| ≤ 1 / 2 * 10 ^ etiny := by
  have hsub : sub (.finite x) (.finite y) = fix (x - y) := by
    rw [sub_eq_add_neg]
    rfl
  rw [← floatRound_eq_zero_iff]
  constructor
  · intro h
    unfold absDiffLe at h
    rw [hsub] at h
    -- the difference is rounded, and then its absolute value
    rcases hd : fix (x - y) with e | d
    · rw [hd] at h
      exact absurd h (by simp [bind, Except.bind])
    have hdv := fix_eq_ok hd
    subst hdv
    rw [hd] at h
    rcases ha : fix |Rounding.floatRound 10 prec etiny (x - y)| with e | a
    · simp [bind, Except.bind, abs, ha] at h
    have hav := fix_eq_ok ha
    subst hav
    simp only [bind, Except.bind, abs, ha, le, Except.ok.injEq, decide_eq_true_eq] at h
    have hzero := le_antisymm h (Rounding.floatRound_nonneg (abs_nonneg _))
    exact (Rounding.floatRound_abs_floatRound_eq_zero_iff (by decide) (by decide) _ _).mp hzero
  · intro h
    have hfix : fix (x - y) = .ok (.finite 0) := by
      have h0 := fix_zero
      unfold fix at h0 ⊢
      rw [Rounding.floatRound_zero] at h0
      rw [h]
      exact h0
    unfold absDiffLe
    rw [hsub, hfix]
    simp [bind, Except.bind, abs, le]

/-- The difference of two floats never underflows, so quantities that are
compared in this way are compared exactly. -/
theorem absDiffLe_zero_toDecimal {q r : PyFloat}
    (h : absDiffLe q.toDecimal r.toDecimal (.finite 0) = .ok true) : q = r := by
  rcases q with ⟨x, m, hm⟩ | s | _ <;> rcases r with ⟨y, n, hn⟩ | t | _
  case finite.finite =>
    have hle := (absDiffLe_zero_iff x y).mp h
    -- both are multiples of the unit, so distinct ones are that far apart
    have hdiff : x - y = ((m - n : ℤ) : ℚ) * floatUnit := by
      rw [hm, hn, Int.cast_sub, sub_mul]
    have hsmall : (1 / 2 * 10 ^ etiny : ℚ) < floatUnit := by
      have hmono : (10 : ℚ) ^ etiny ≤ floatUnit :=
        zpow_le_zpow_right₀ (by norm_num) (by decide)
      have hpos := floatUnit_pos
      linarith
    have hunits : |((m - n : ℤ) : ℚ)| < 1 := by
      rw [hdiff, abs_mul, abs_of_pos floatUnit_pos] at hle
      exact (mul_lt_iff_lt_one_left floatUnit_pos).mp (hle.trans_lt hsmall)
    have hmn : m - n = 0 := Int.abs_lt_one_iff.mp (by exact_mod_cast hunits)
    have hxy : x = y := by
      rw [← sub_eq_zero, hdiff, hmn, Int.cast_zero, zero_mul]
    subst hxy
    rfl
  case inf.inf =>
    simp only [absDiffLe, sub, add, neg, PyFloat.toDecimal] at h
    split at h
    · simp [bind, Except.bind, abs, le] at h
    · simp [bind, Except.bind] at h
  all_goals simp [absDiffLe, sub, add, neg, abs, le, PyFloat.toDecimal, bind, Except.bind] at h

end Decimal

end VisionBill
