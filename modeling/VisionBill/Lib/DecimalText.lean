import VisionBill.Lib.Numerals
import Mathlib.Data.List.DropRight
import Mathlib.Algebra.Order.Field.Basic
import Mathlib.Algebra.Order.Ring.Rat
import Mathlib.Tactic.FieldSimp
import Mathlib.Tactic.Linarith

/-!
# Decimal texts

A decimal is written with digits, perhaps a point and more digits, perhaps
a sign before all that. `decimalValue` reads such a text. Many texts mean
the same number: zeros may stand before the digits and after those behind
the point, and zero may have a sign. A canonical text has no zero that
could be left out and no sign that says nothing.

## What is shown

Printing a number of units of a given decimal place, and leaving the zeros
at the end out, gives the canonical text (`isCanonical_format`). Printing
it with all its places gives a text that means the number
(`decimalValue_fixed`). Both are about integers, the units, so that no
rounding is involved: this is the part of a decimal arithmetic that works
on texts.

## How texts are taken apart

A text is looked at as a sign and two sequences of digits (`signed`,
`plain`). What it means is then read off these (`decimalValue_signed`),
and every statement about texts becomes one about digits.
-/

namespace DecimalText

open Numerals

/-! ## Reading -/

/-- Decimal digits. -/
def Digits (l : List Char) : Prop := ∀ c ∈ l, isDigit 10 c = true

/-- A number without a sign. What stands before the first point is its
whole part, and the rest counts by its length. -/
def magnitude (l : List Char) : ℚ :=
  let frac := (l.dropWhile (· ≠ '.')).tail
  value 10 (l.takeWhile (· ≠ '.')) + value 10 frac / 10 ^ frac.length

/-- What a text means. -/
def decimalValue : List Char → ℚ
  | '-' :: l => -magnitude l
  | l => magnitude l

/-- The sign. -/
def signed (negative : Bool) (l : List Char) : List Char := if negative then '-' :: l else l

/-- Digits before a point and after it, which stands only between
digits. -/
def plain (int frac : List Char) : List Char := int ++ if frac = [] then [] else '.' :: frac

/-- What digits before and after a point mean. -/
def number (int frac : List Char) : ℚ := value 10 int + value 10 frac / 10 ^ frac.length

variable {int frac : List Char}

theorem Digits.ne {l : List Char} (hl : Digits l) {c d : Char} (hc : c ∈ l)
    (hd : isDigit 10 d = false) : c ≠ d := by
  rintro rfl
  exact absurd ((hl c hc).symm.trans hd) (by simp)

theorem digits_toDigits (n : ℕ) : Digits (Nat.toDigits 10 n) := fun _ =>
  isDigit_of_mem_toDigits (by decide) (by decide)

theorem isDigit_zero : isDigit 10 '0' = true := by decide

theorem digits_replicate_zero (k : ℕ) : Digits (List.replicate k '0') := fun c hc => by
  rw [List.eq_of_mem_replicate hc]
  exact isDigit_zero

theorem Digits.append {l m : List Char} (hl : Digits l) (hm : Digits m) : Digits (l ++ m) :=
  fun c hc => (List.mem_append.mp hc).elim (hl c) (hm c)

/-- A text without a sign. -/
theorem magnitude_plain (hint : Digits int) : magnitude (plain int frac) = number int frac := by
  have hpoint : ∀ c ∈ int, decide (c ≠ '.') = true := fun c hc =>
    decide_eq_true (hint.ne hc (by decide))
  unfold magnitude plain number
  by_cases hfrac : frac = []
  · rw [if_pos hfrac, List.append_nil, List.takeWhile_eq_self_iff.mpr hpoint,
      List.dropWhile_eq_nil_iff.mpr hpoint, hfrac]
    rfl
  · rw [if_neg hfrac, List.takeWhile_append_of_pos hpoint, List.dropWhile_append_of_pos hpoint,
      List.takeWhile_cons_of_neg (by decide), List.dropWhile_cons_of_neg (by decide),
      List.append_nil, List.tail_cons]

/-- A text that has digits before its point does not start with a sign. -/
theorem decimalValue_of_digits {l : List Char} (hint : Digits int) (hne : int ≠ []) :
    decimalValue (int ++ l) = magnitude (int ++ l) := by
  obtain ⟨c, rest, rfl⟩ := List.exists_cons_of_ne_nil hne
  have hsign : c ≠ '-' := hint.ne List.mem_cons_self (by decide)
  unfold decimalValue
  split
  · next heq => exact absurd (List.cons.inj heq).1 hsign
  · rfl

/-- **What a text means** is read off its digits and its sign. With it a
result about printing is one about digits, and no parser occurs in it any
more. -/
theorem decimalValue_signed (negative : Bool) (hint : Digits int) (hne : int ≠ []) :
    decimalValue (signed negative (plain int frac))
      = (if negative then -1 else 1) * number int frac := by
  unfold signed
  cases negative with
  | true =>
    show -magnitude (plain int frac) = -1 * _
    rw [magnitude_plain hint, neg_one_mul]
  | false =>
    show decimalValue (plain int frac) = 1 * _
    rw [one_mul, ← magnitude_plain hint]
    exact decimalValue_of_digits hint hne

/-! ## Zeros at the end -/

/-- A zero. -/
def isZero (c : Char) : Bool := c == '0'

/-- The digits without the zeros at their end. Behind a point these mean
nothing (`number_stripZeros`); before one they would. -/
def stripZeros (l : List Char) : List Char := l.rdropWhile isZero

theorem stripZeros_append (l : List Char) : ∃ k, l = stripZeros l ++ List.replicate k '0' := by
  refine ⟨(l.rtakeWhile isZero).length, ?_⟩
  have hzeros : l.rtakeWhile isZero = List.replicate (l.rtakeWhile isZero).length '0' :=
    List.eq_replicate_of_mem fun c hc => beq_iff_eq.mp (List.mem_rtakeWhile_imp (p := isZero) hc)
  rw [← hzeros]
  exact List.rdropWhile_append_rtakeWhile.symm

theorem digits_stripZeros {l : List Char} (hl : Digits l) : Digits (stripZeros l) := fun c hc =>
  hl c ((List.rdropWhile_prefix isZero l).subset hc)

theorem getLast?_stripZeros (l : List Char) : (stripZeros l).getLast? ≠ some '0' := by
  intro h
  have hne : stripZeros l ≠ [] := by
    intro hnil
    rw [hnil] at h
    exact absurd h (by simp)
  rw [List.getLast?_eq_some_getLast hne] at h
  exact List.rdropWhile_last_not isZero l hne (beq_iff_eq.mpr (Option.some.inj h))

/-- Zeros at the end mean nothing. The digits get fewer, and what each of
them counts for stays. -/
theorem number_stripZeros (int frac : List Char) :
    number int (stripZeros frac) = number int frac := by
  obtain ⟨k, hk⟩ := stripZeros_append frac
  have hvalue : value 10 frac = value 10 (stripZeros frac) * 10 ^ k := by
    conv_lhs => rw [hk]
    rw [value_append _ (digits_replicate_zero k), value_replicate_zero, List.length_replicate,
      Nat.add_zero]
  have hlength : frac.length = (stripZeros frac).length + k := by
    conv_lhs => rw [hk]
    rw [List.length_append, List.length_replicate]
  unfold number
  rw [hvalue, hlength, pow_add, Nat.cast_mul, Nat.cast_pow, Nat.cast_ofNat,
    mul_div_mul_right _ _ (by positivity)]

/-! ## Canonical texts -/

/-- The digits and the sign of a canonical text: no zero leads unless it
is the whole part, none ends the places behind the point, and zero has no
sign. -/
structure CanonicalParts (negative : Bool) (int frac : List Char) : Prop where
  int_digits : Digits int
  frac_digits : Digits frac
  int_ne_nil : int ≠ []
  /-- No zero stands in front of another digit. -/
  no_leading : int.head? = some '0' → int = ['0']
  no_trailing : frac.getLast? ≠ some '0'
  /-- Only what is not zero has a sign. -/
  not_zero : negative = true → number int frac ≠ 0

/-- A text from which nothing can be left out. Each number has one such
text, which is why two computations that give the same canonical text
agree. -/
def IsCanonical (l : List Char) : Prop :=
  ∃ negative int frac, l = signed negative (plain int frac) ∧ CanonicalParts negative int frac

/-- A printed number starts with a zero only if it is zero. By strong
induction: without its last digit it is a smaller number, which starts
alike. -/
theorem toDigits_no_leading (n : ℕ) :
    (Nat.toDigits 10 n).head? = some '0' → Nat.toDigits 10 n = ['0'] := by
  induction n using Nat.strong_induction_on with
  | _ n ih =>
    intro h
    rw [Nat.toDigits_eq_if (by decide)] at h ⊢
    split at h
    · next hn =>
      rw [if_pos hn]
      exact congrArg ([·]) (Option.some.inj h)
    · next hn =>
      -- the quotient is not zero, but would have to be
      obtain ⟨c, l, hcl⟩ := List.exists_cons_of_ne_nil (Nat.toDigits_ne_nil (n := n / 10) (b := 10))
      have hhead : (Nat.toDigits 10 (n / 10)).head? = some '0' := by
        rw [hcl] at h ⊢
        exact h
      have hzero := ih (n / 10) (Nat.div_lt_self (by omega) (by decide)) hhead
      have hvalue : value 10 (Nat.toDigits 10 (n / 10)) = n / 10 :=
        value_toDigits (by decide) (by decide) _
      rw [hzero] at hvalue
      have hquotient : n / 10 = 0 := hvalue.symm
      omega

/-- The digits of a number, at least as many as asked for: zeros stand
before those that there are. -/
def padStart (digits n : ℕ) : List Char := (Nat.toDigits 10 n).leftpad digits '0'

theorem digits_padStart (digits n : ℕ) : Digits (padStart digits n) :=
  (digits_replicate_zero _).append (digits_toDigits n)

theorem value_padStart (digits n : ℕ) : value 10 (padStart digits n) = n :=
  (value_replicate_zero_append _ _).trans (value_toDigits (by decide) (by decide) n)

theorem length_padStart {digits n : ℕ} (hpos : 0 < digits) (h : n < 10 ^ digits) :
    (padStart digits n).length = digits := by
  unfold padStart
  rw [List.length_leftpad, max_eq_left]
  exact Nat.toDigits_length 10 n digits hpos h

/-- A number of units of a decimal place, as a text. -/
def format (n : ℤ) (digits : ℕ) : List Char :=
  signed (decide (n < 0)) (plain (Nat.toDigits 10 (n.natAbs / 10 ^ digits))
    (stripZeros (if 0 < digits then padStart digits (n.natAbs % 10 ^ digits) else [])))

/-- What the digits of a printed number mean. The quotient stands before
the point and the remainder behind it, padded to its number of digits. -/
theorem number_format (n digits : ℕ) :
    number (Nat.toDigits 10 (n / 10 ^ digits))
        (stripZeros (if 0 < digits then padStart digits (n % 10 ^ digits) else []))
      = n / 10 ^ digits := by
  rw [number_stripZeros]
  unfold number
  rw [value_toDigits (by decide) (by decide)]
  by_cases hdigits : 0 < digits
  · have hbase : 0 < 10 ^ digits := by positivity
    rw [if_pos hdigits, value_padStart, length_padStart hdigits (Nat.mod_lt _ hbase)]
    have hsplit : (n : ℚ) = 10 ^ digits * (n / 10 ^ digits : ℕ) + (n % 10 ^ digits : ℕ) := by
      exact_mod_cast (Nat.div_add_mod n (10 ^ digits)).symm
    rw [hsplit]
    field_simp
  · obtain rfl := Nat.eq_zero_of_not_pos hdigits
    simp [value]

/-- **A formatted number is canonical, and means the number.** The digits
are padded first, so that a point can be put before the last ones, and the
zeros at the end go after that. -/
theorem isCanonical_format (n : ℤ) (digits : ℕ) :
    IsCanonical (format n digits) ∧ decimalValue (format n digits) = n / 10 ^ digits := by
  have hint := digits_toDigits (n.natAbs / 10 ^ digits)
  have hfrac :
      Digits (stripZeros (if 0 < digits then padStart digits (n.natAbs % 10 ^ digits) else [])) := by
    refine digits_stripZeros ?_
    split
    · exact digits_padStart _ _
    · exact fun c hc => absurd hc List.not_mem_nil
  have hnumber := number_format n.natAbs digits
  refine ⟨⟨_, _, _, rfl, hint, hfrac, Nat.toDigits_ne_nil, toDigits_no_leading _,
    getLast?_stripZeros _, fun hneg => ?_⟩, ?_⟩
  · have hlt : n < 0 := of_decide_eq_true hneg
    rw [hnumber]
    have habs : (n.natAbs : ℚ) ≠ 0 := by
      rw [Nat.cast_ne_zero, Int.natAbs_ne_zero]
      exact hlt.ne
    positivity
  · unfold format
    rw [decimalValue_signed _ hint Nat.toDigits_ne_nil, hnumber]
    by_cases hlt : n < 0
    · have habs : (n.natAbs : ℚ) = -n := by
        rw [Nat.cast_natAbs, abs_of_neg hlt, Int.cast_neg]
      rw [if_pos (decide_eq_true hlt), habs]
      ring
    · have habs : (n.natAbs : ℚ) = n := by
        rw [Nat.cast_natAbs, abs_of_nonneg (not_lt.mp hlt)]
      rw [if_neg (by simpa using hlt), habs, one_mul]

/-- A number of units of a decimal place, with all its places. -/
def fixed (n : ℤ) (digits : ℕ) : List Char :=
  signed (decide (n < 0)) (plain (Nat.toDigits 10 (n.natAbs / 10 ^ digits))
    (if 0 < digits then padStart digits (n.natAbs % 10 ^ digits) else []))

/-- The digits that stand after the point. -/
theorem digits_fixed (n digits : ℕ) :
    Digits (if 0 < digits then padStart digits (n % 10 ^ digits) else []) := by
  split
  · exact digits_padStart _ _
  · exact fun c hc => absurd hc List.not_mem_nil

/-- A number with all its places means the number. -/
theorem decimalValue_fixed (n : ℤ) (digits : ℕ) :
    decimalValue (fixed n digits) = n / 10 ^ digits := by
  have hnumber := number_format n.natAbs digits
  rw [number_stripZeros] at hnumber
  unfold fixed
  rw [decimalValue_signed _ (digits_toDigits _) Nat.toDigits_ne_nil, hnumber, Nat.cast_natAbs]
  by_cases hlt : n < 0
  · rw [if_pos (decide_eq_true hlt), abs_of_neg hlt, Int.cast_neg]
    ring
  · rw [if_neg (by simpa using hlt), abs_of_nonneg (not_lt.mp hlt), one_mul]

end DecimalText
