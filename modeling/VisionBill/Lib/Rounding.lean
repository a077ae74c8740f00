import Mathlib.Data.Rat.Floor
import Mathlib.Data.Int.Log
import Mathlib.Algebra.Order.Round
import Mathlib.Tactic.Linarith
import Mathlib.Tactic.Positivity
import Mathlib.Tactic.GCongr
import Mathlib.Tactic.FieldSimp
import Mathlib.Tactic.Ring

/-!
# Rounding a rational to a floating-point grid

A floating-point format of radix `b` keeps `p` digits and no exponent
below `emin`: a number is rounded to the multiples of `b ^ e`, where `e`
is the exponent that leaves `p` digits, or `emin` if that is larger. The
second case is gradual underflow, and it is the only one in which a
non-zero number rounds to zero: `floatRound_eq_zero_iff` says exactly
which do.

Ties go to the even neighbour, as in IEEE 754 and in the General Decimal
Arithmetic specification.

## What is rounded, and what is not

A format is used here for numbers that a person has typed or read off a
paper, which have few digits. So the question is mostly whether such a
number survives (`floatRound_of_mul`), and by how much a sum of them can
be off (`abs_sub_floatRound_le`). The largest exponent of a format does
not occur: what happens above it is up to the operations that use the
format.

## Rounding to a unit

Databases round to a fixed number of places, and away from zero where the
number lies halfway (`halfAway`). That is another rounding than the one
above, and the two do not agree on ties: what a database rounds is bounded
on its own (`abs_le_abs_halfAway_add`).
-/

namespace Rounding

/-- The nearest integer, ties to the even one. -/
def halfEven (x : ℚ) : ℤ :=
  if x - ⌊x⌋ < 1 / 2 then ⌊x⌋
  else if 1 / 2 < x - ⌊x⌋ then ⌊x⌋ + 1
  else if ⌊x⌋ % 2 = 0 then ⌊x⌋ else ⌊x⌋ + 1

/-- Only the numbers within one half of zero round to zero. One half
itself does, since zero is the even one of its neighbours. -/
theorem halfEven_eq_zero_iff (x : ℚ) : halfEven x = 0 ↔ |x| ≤ 1 / 2 := by
  have hfloor : (⌊x⌋ : ℚ) ≤ x := Int.floor_le x
  have hlt : x < ⌊x⌋ + 1 := Int.lt_floor_add_one x
  rw [abs_le]
  constructor
  · intro h
    unfold halfEven at h
    split_ifs at h with h₁ h₂ h₃
    · rw [h, Int.cast_zero] at hfloor h₁
      constructor <;> linarith
    · have hm : (⌊x⌋ : ℚ) = -1 := by exact_mod_cast eq_neg_of_add_eq_zero_left h
      constructor <;> linarith
    · rw [h, Int.cast_zero] at hfloor h₁ h₂
      constructor <;> linarith
    · have hm : (⌊x⌋ : ℚ) = -1 := by exact_mod_cast eq_neg_of_add_eq_zero_left h
      constructor <;> linarith
  · rintro ⟨hl, hu⟩
    -- the floor is zero on the one side and minus one on the other
    by_cases hx : 0 ≤ x
    · have hz : ⌊x⌋ = 0 := Int.floor_eq_zero_iff.mpr ⟨hx, by linarith⟩
      have hnot : ¬ 1 / 2 < x - ⌊x⌋ := by
        rw [hz, Int.cast_zero]
        linarith
      unfold halfEven
      rw [if_neg hnot, hz]
      simp
    · have hm : ⌊x⌋ = -1 := Int.floor_eq_iff.mpr ⟨by push_cast; linarith, by push_cast; linarith⟩
      have hnot : ¬ x - ⌊x⌋ < 1 / 2 := by
        rw [hm]
        push_cast
        linarith
      unfold halfEven
      rw [if_neg hnot, hm]
      simp

theorem halfEven_nonneg {x : ℚ} (hx : 0 ≤ x) : 0 ≤ halfEven x := by
  have hfloor : 0 ≤ ⌊x⌋ := Int.floor_nonneg.mpr hx
  unfold halfEven
  split_ifs <;> omega

/-- Rounding loses at most a half. -/
theorem abs_sub_halfEven_le (x : ℚ) : |x - halfEven x| ≤ 1 / 2 := by
  have hfloor : (⌊x⌋ : ℚ) ≤ x := Int.floor_le x
  have hlt : x < ⌊x⌋ + 1 := Int.lt_floor_add_one x
  rw [abs_le]
  unfold halfEven
  split_ifs <;> push_cast <;> constructor <;> linarith

/-- An integer is its own rounding. -/
@[simp] theorem halfEven_intCast (n : ℤ) : halfEven n = n := by
  unfold halfEven
  rw [Int.floor_intCast, sub_self, if_pos (by norm_num)]

/-- Rounding stays between the integers that a number is between. So what
is bounded by an integer stays bounded by it. -/
theorem abs_halfEven_le {x : ℚ} {n : ℤ} (h : |x| ≤ n) : |halfEven x| ≤ n := by
  have hlow : -n ≤ ⌊x⌋ := Int.le_floor.mpr (by push_cast; exact (abs_le.mp h).1)
  have hfloor : (⌊x⌋ : ℚ) ≤ x := Int.floor_le x
  have hx : x ≤ n := (abs_le.mp h).2
  have hle : ⌊x⌋ ≤ n := by exact_mod_cast hfloor.trans hx
  rw [abs_le]
  rcases eq_or_lt_of_le hle with heq | hlt
  · -- then the number is that integer
    have hxn : x = n := le_antisymm hx (heq ▸ hfloor)
    rw [hxn, halfEven_intCast]
    omega
  · unfold halfEven
    split_ifs <;> omega

@[simp] theorem halfEven_zero : halfEven 0 = 0 := (halfEven_eq_zero_iff 0).mpr (by norm_num)

/-- The exponent of the grid that a number is rounded to: the one that
leaves `p` digits, but never below `emin`. It depends on the size of the
number. -/
def quantum (b p : ℕ) (emin : ℤ) (x : ℚ) : ℤ :=
  max (Int.log b |x| - (p - 1)) emin

/-- **Rounding to a floating-point format** of radix `b`, precision `p`
and least exponent `emin`. Zero has no leading digit and stays zero. -/
def floatRound (b p : ℕ) (emin : ℤ) (x : ℚ) : ℚ :=
  halfEven (x / (b : ℚ) ^ quantum b p emin x) * (b : ℚ) ^ quantum b p emin x

@[simp] theorem floatRound_zero (b p : ℕ) (emin : ℤ) : floatRound b p emin 0 = 0 := by
  unfold floatRound
  rw [zero_div, halfEven_zero, Int.cast_zero, zero_mul]

/-- **What underflows to zero**: the numbers within half a unit of the
least exponent, and no others. With digits left to keep, a number is at
least as large as its leading unit, so only the bound on the exponent can
lose it. -/
theorem floatRound_eq_zero_iff {b p : ℕ} (hb : 1 < b) (hp : 1 ≤ p) (emin : ℤ) (x : ℚ) :
    floatRound b p emin x = 0 ↔ |x| ≤ 1 / 2 * (b : ℚ) ^ emin := by
  have hb₀ : (0 : ℚ) < b := by exact_mod_cast (zero_lt_one.trans hb)
  have hb₁ : (1 : ℚ) ≤ b := by exact_mod_cast hb.le
  have hpow : ∀ e : ℤ, (0 : ℚ) < (b : ℚ) ^ e := fun e => zpow_pos hb₀ e
  have hkey : floatRound b p emin x = 0
      ↔ |x| ≤ 1 / 2 * (b : ℚ) ^ quantum b p emin x := by
    unfold floatRound
    rw [mul_eq_zero_iff_right (hpow _).ne', Int.cast_eq_zero, halfEven_eq_zero_iff,
      abs_div, abs_of_pos (hpow _), div_le_iff₀ (hpow _)]
  rw [hkey]
  rcases le_total (Int.log b |x| - (p - 1)) emin with h | h
  · rw [quantum, max_eq_right h]
  · -- with all its digits kept, a non-zero number is at least one unit
    rw [quantum, max_eq_left h]
    rcases eq_or_ne x 0 with rfl | hx
    · rw [abs_zero]
      have h₁ := hpow (Int.log b (0 : ℚ) - (p - 1))
      have h₂ := hpow emin
      constructor <;> intro _ <;> positivity
    · have hlog : (b : ℚ) ^ Int.log b |x| ≤ |x| := Int.zpow_log_le_self hb (abs_pos.mpr hx)
      have hdig : (b : ℚ) ^ (Int.log b |x| - (p - 1)) ≤ (b : ℚ) ^ Int.log b |x| :=
        zpow_le_zpow_right₀ hb₁ (by omega)
      have hmin : (b : ℚ) ^ emin ≤ (b : ℚ) ^ (Int.log b |x| - (p - 1)) :=
        zpow_le_zpow_right₀ hb₁ h
      have h₁ := hpow (Int.log b |x| - (p - 1))
      constructor <;> intro hle <;> linarith

/-- **What has few enough digits is kept**: a multiple of a power of the
radix is not rounded as long as its digits from that place on fit. The
number lies on the grid, and the grid of a larger number is only coarser
as far as the digits allow. -/
theorem floatRound_of_mul {b p : ℕ} (hb : 1 < b) {emin e : ℤ} (hemin : emin ≤ e) {n : ℤ} {x : ℚ}
    (hx : x = n * (b : ℚ) ^ e) (hdigits : |x| < (b : ℚ) ^ (e + p)) :
    floatRound b p emin x = x := by
  have hb₀ : (0 : ℚ) < b := by exact_mod_cast (zero_lt_one.trans hb)
  rcases eq_or_ne x 0 with h0 | h0
  · rw [h0, floatRound_zero]
  have hlog : Int.log b |x| < e + p := (Int.lt_zpow_iff_log_lt hb (abs_pos.mpr h0)).mp hdigits
  have hq : quantum b p emin x ≤ e := max_le (by omega) hemin
  have hpow : (0 : ℚ) < (b : ℚ) ^ quantum b p emin x := zpow_pos hb₀ _
  obtain ⟨k, hk⟩ := Int.le.dest hq
  -- in units of the quantum the number is an integer
  have hunits : x / (b : ℚ) ^ quantum b p emin x = ((n * (b : ℤ) ^ k : ℤ) : ℚ) := by
    rw [← hk, zpow_add₀ hb₀.ne', zpow_natCast] at hx
    rw [div_eq_iff hpow.ne']
    refine hx.trans ?_
    push_cast
    ring
  unfold floatRound
  rw [hunits, halfEven_intCast, ← hunits, div_mul_cancel₀ _ hpow.ne']

/-- Rounding does not leave the range between two opposite powers of the
radix. A power of the radix is itself in the format, and rounding is
monotone. -/
theorem abs_floatRound_le {b p : ℕ} (hb : 1 < b) (hp : 1 ≤ p) {emin e : ℤ} (hemin : emin ≤ e)
    {x : ℚ} (h : |x| ≤ (b : ℚ) ^ e) : |floatRound b p emin x| ≤ (b : ℚ) ^ e := by
  have hb₀ : (0 : ℚ) < b := by exact_mod_cast (zero_lt_one.trans hb)
  rcases eq_or_ne x 0 with h0 | h0
  · rw [h0, floatRound_zero, abs_zero]
    exact (zpow_pos hb₀ e).le
  have hlog : Int.log b |x| ≤ e := by
    have hle := Int.log_mono_right (b := b) (abs_pos.mpr h0) h
    rwa [Int.log_zpow hb] at hle
  have hq : quantum b p emin x ≤ e := max_le (by omega) hemin
  have hpow : (0 : ℚ) < (b : ℚ) ^ quantum b p emin x := zpow_pos hb₀ _
  obtain ⟨k, hk⟩ := Int.le.dest hq
  have hsplit : (b : ℚ) ^ e = ((b ^ k : ℕ) : ℤ) * (b : ℚ) ^ quantum b p emin x := by
    rw [← hk, zpow_add₀ hb₀.ne', zpow_natCast]
    push_cast
    ring
  have hunits : |x / (b : ℚ) ^ quantum b p emin x| ≤ ((b ^ k : ℕ) : ℤ) := by
    rw [abs_div, abs_of_pos hpow, div_le_iff₀ hpow, ← hsplit]
    exact h
  have hround : (|halfEven (x / (b : ℚ) ^ quantum b p emin x)| : ℚ) ≤ ((b ^ k : ℕ) : ℤ) := by
    exact_mod_cast abs_halfEven_le hunits
  unfold floatRound
  rw [abs_mul, abs_of_pos hpow, hsplit]
  exact mul_le_mul_of_nonneg_right hround hpow.le

theorem floatRound_nonneg {b p : ℕ} {emin : ℤ} {x : ℚ} (hx : 0 ≤ x) :
    0 ≤ floatRound b p emin x := by
  have hpow : (0 : ℚ) ≤ (b : ℚ) ^ quantum b p emin x := zpow_nonneg (Nat.cast_nonneg b) _
  have hdigits : 0 ≤ halfEven (x / (b : ℚ) ^ quantum b p emin x) :=
    halfEven_nonneg (div_nonneg hx hpow)
  exact mul_nonneg (by exact_mod_cast hdigits) hpow

/-- What does not round to zero rounds to at least one unit. Underflow is
thereby all or nothing: there is no value between zero and the least
one. -/
theorem le_abs_floatRound {b p : ℕ} (hb : 1 < b) {emin : ℤ} {x : ℚ}
    (h : floatRound b p emin x ≠ 0) : (b : ℚ) ^ emin ≤ |floatRound b p emin x| := by
  have hb₁ : (1 : ℚ) ≤ b := by exact_mod_cast hb.le
  have hgrid : (b : ℚ) ^ emin ≤ (b : ℚ) ^ quantum b p emin x :=
    zpow_le_zpow_right₀ hb₁ (le_max_right _ _)
  have hpow : (0 : ℚ) < (b : ℚ) ^ quantum b p emin x := zpow_pos (by linarith) _
  have hdigits : halfEven (x / (b : ℚ) ^ quantum b p emin x) ≠ 0 := by
    intro h0
    rw [floatRound, h0, Int.cast_zero, zero_mul] at h
    exact h rfl
  have hone : (1 : ℚ) ≤ |(halfEven (x / (b : ℚ) ^ quantum b p emin x) : ℚ)| := by
    exact_mod_cast Int.one_le_abs hdigits
  rw [floatRound, abs_mul, abs_of_pos hpow]
  nlinarith

/-- **What is lost** is at most half a unit of any place from which on the
digits fit. The place is that of the caller, not of the number, so the
bound is one for all numbers of a sum. -/
theorem abs_sub_floatRound_le {b p : ℕ} (hb : 1 < b) {emin e : ℤ} (hemin : emin ≤ e) {x : ℚ}
    (hdigits : |x| < (b : ℚ) ^ (e + p)) :
    |x - floatRound b p emin x| ≤ 1 / 2 * (b : ℚ) ^ e := by
  have hb₀ : (0 : ℚ) < b := by exact_mod_cast zero_lt_one.trans hb
  rcases eq_or_ne x 0 with rfl | h0
  · rw [floatRound_zero, sub_zero, abs_zero]
    exact mul_nonneg one_half_pos.le (zpow_pos hb₀ e).le
  have hlog : Int.log b |x| < e + p := (Int.lt_zpow_iff_log_lt hb (abs_pos.mpr h0)).mp hdigits
  have hq : quantum b p emin x ≤ e := max_le (by omega) hemin
  have hpow : (0 : ℚ) < (b : ℚ) ^ quantum b p emin x := zpow_pos hb₀ _
  have hsplit : x - floatRound b p emin x = (x / (b : ℚ) ^ quantum b p emin x
      - halfEven (x / (b : ℚ) ^ quantum b p emin x)) * (b : ℚ) ^ quantum b p emin x := by
    unfold floatRound
    rw [sub_mul, div_mul_cancel₀ _ hpow.ne']
  calc |x - floatRound b p emin x|
      = |x / (b : ℚ) ^ quantum b p emin x - halfEven (x / (b : ℚ) ^ quantum b p emin x)|
          * (b : ℚ) ^ quantum b p emin x := by rw [hsplit, abs_mul, abs_of_pos hpow]
    _ ≤ 1 / 2 * (b : ℚ) ^ quantum b p emin x :=
        mul_le_mul_of_nonneg_right (abs_sub_halfEven_le _) hpow.le
    _ ≤ 1 / 2 * (b : ℚ) ^ e :=
        mul_le_mul_of_nonneg_left (zpow_le_zpow_right₀ (by exact_mod_cast hb.le) hq)
          one_half_pos.le

/-- A number of normal size keeps at least half of itself. That is a weak
bound, and enough to tell that something has not vanished. -/
theorem abs_le_two_mul_abs_floatRound {b p : ℕ} (hb : 1 < b) (hp : 1 ≤ p) {emin : ℤ} {x : ℚ}
    (h : (b : ℚ) ^ emin ≤ |x|) : |x| ≤ 2 * |floatRound b p emin x| := by
  have hb₀ : (0 : ℚ) < b := by exact_mod_cast zero_lt_one.trans hb
  have hx : |x| ≠ 0 := ((zpow_pos hb₀ emin).trans_le h).ne'
  have hlog : emin ≤ Int.log b |x| := by
    have hmono := Int.log_mono_right (b := b) (zpow_pos hb₀ emin) h
    rwa [Int.log_zpow hb] at hmono
  have hq : quantum b p emin x ≤ Int.log b |x| := max_le (by omega) hlog
  have hpow : (0 : ℚ) < (b : ℚ) ^ quantum b p emin x := zpow_pos hb₀ _
  -- the number has at least one unit, and loses at most half of one
  have hunit : (b : ℚ) ^ quantum b p emin x ≤ |x| :=
    (zpow_le_zpow_right₀ (by exact_mod_cast hb.le) hq).trans
      (Int.zpow_log_le_self hb (abs_pos.mpr (abs_ne_zero.mp hx)))
  have hround := abs_sub_halfEven_le (x / (b : ℚ) ^ quantum b p emin x)
  have hdist : |x - floatRound b p emin x| ≤ 1 / 2 * (b : ℚ) ^ quantum b p emin x := by
    have hsplit : x - floatRound b p emin x = (x / (b : ℚ) ^ quantum b p emin x
        - halfEven (x / (b : ℚ) ^ quantum b p emin x)) * (b : ℚ) ^ quantum b p emin x := by
      unfold floatRound
      rw [sub_mul, div_mul_cancel₀ _ hpow.ne']
    rw [hsplit, abs_mul, abs_of_pos hpow]
    exact mul_le_mul_of_nonneg_right hround hpow.le
  have htriangle : |x| ≤ |x - floatRound b p emin x| + |floatRound b p emin x| := by
    calc |x| = |(x - floatRound b p emin x) + floatRound b p emin x| := by rw [sub_add_cancel]
      _ ≤ _ := abs_add_le _ _
  linarith

/-- Rounding again does not turn a result into zero, so a difference that
is compared with zero after its absolute value was taken is lost in the
first rounding or not at all. -/
theorem floatRound_abs_floatRound_eq_zero_iff {b p : ℕ} (hb : 1 < b) (hp : 1 ≤ p)
    (emin : ℤ) (x : ℚ) :
    floatRound b p emin |floatRound b p emin x| = 0 ↔ floatRound b p emin x = 0 := by
  constructor
  · intro h
    by_contra hne
    have hunit := le_abs_floatRound hb hne
    have hsmall := (floatRound_eq_zero_iff hb hp emin _).mp h
    have hpow : (0 : ℚ) < (b : ℚ) ^ emin :=
      zpow_pos (by exact_mod_cast zero_lt_one.trans hb) _
    rw [abs_abs] at hsmall
    linarith
  · intro h
    rw [h, abs_zero, floatRound_zero]

/-- Rounding to a multiple of a unit, ties away from zero, as a column
with a fixed number of places stores a number. -/
def halfAway (unit x : ℚ) : ℚ :=
  if 0 ≤ x then ⌊x / unit + 1 / 2⌋ * unit else -(⌊-x / unit + 1 / 2⌋ * unit)

theorem halfAway_nonneg {unit x : ℚ} (hunit : 0 < unit) (hx : 0 ≤ x) : 0 ≤ halfAway unit x := by
  have hdigits : (0 : ℚ) ≤ x / unit + 1 / 2 := by positivity
  have hfloor : (0 : ℚ) ≤ ⌊x / unit + 1 / 2⌋ := by exact_mod_cast Int.floor_nonneg.mpr hdigits
  unfold halfAway
  rw [if_pos hx]
  exact mul_nonneg hfloor hunit.le

/-- Rounding to a multiple of a unit loses at most a unit. It is half of
one in fact, but a whole one is enough for bounds. -/
theorem abs_le_abs_halfAway_add {unit x : ℚ} (hunit : 0 < unit) :
    |x| ≤ |halfAway unit x| + unit := by
  have hstep : ∀ y : ℚ, y ≤ ⌊y / unit + 1 / 2⌋ * unit + unit := by
    intro y
    have hlt := Int.lt_floor_add_one (y / unit + 1 / 2)
    have hdiv : y / unit ≤ ⌊y / unit + 1 / 2⌋ + 1 := by linarith
    rw [div_le_iff₀ hunit] at hdiv
    linarith
  unfold halfAway
  split
  · next hx =>
    rw [abs_of_nonneg hx]
    exact (hstep x).trans (by linarith [le_abs_self (⌊x / unit + 1 / 2⌋ * unit)])
  · next hx =>
    rw [abs_of_neg (not_le.mp hx), abs_neg]
    exact (hstep (-x)).trans (by linarith [le_abs_self (⌊-x / unit + 1 / 2⌋ * unit)])

/-- A number that is less than half a unit away from a multiple of it
rounds to that multiple. -/
theorem halfAway_of_abs_sub_lt {unit x : ℚ} (hunit : 0 < unit) {n : ℤ}
    (h : |x - n * unit| < 1 / 2 * unit) : halfAway unit x = n * unit := by
  obtain ⟨hlow, hhigh⟩ := abs_lt.mp h
  unfold halfAway
  split
  · have hfloor : ⌊x / unit + 1 / 2⌋ = n := by
      rw [Int.floor_eq_iff, ← sub_le_iff_le_add, ← lt_sub_iff_add_lt, le_div_iff₀ hunit,
        div_lt_iff₀ hunit]
      constructor <;> linarith
    rw [hfloor]
  · have hfloor : ⌊-x / unit + 1 / 2⌋ = -n := by
      rw [Int.floor_eq_iff, ← sub_le_iff_le_add, ← lt_sub_iff_add_lt, le_div_iff₀ hunit,
        div_lt_iff₀ hunit, Int.cast_neg]
      constructor <;> linarith
    rw [hfloor, Int.cast_neg, neg_mul, neg_neg]

/-- What is rounded is a multiple of the unit. -/
theorem exists_halfAway_eq (unit x : ℚ) : ∃ n : ℤ, halfAway unit x = n * unit := by
  unfold halfAway
  split
  · exact ⟨_, rfl⟩
  · exact ⟨-⌊-x / unit + 1 / 2⌋, by push_cast; ring⟩

end Rounding
