import Mathlib.Data.Nat.Digits.Defs
import Mathlib.Data.List.Basic

/-!
# Numerals

A numeral is a sequence of digits of some base up to 36, most significant
digit first. A lenient reader lets single separators stand between digits,
as programming languages do.

`value_toDigits` says that such a reader takes a printed number back to
itself, and `value_lt` bounds what a numeral of a given length can mean.
With `value_append`, which says what digits that follow do to those before
them, this is what fixed-width fields need: a date, an identifier, the
places behind a decimal point.
-/

namespace Numerals

/-- The value of a digit: the letters of either case follow the decimal
digits. -/
def digitValue (c : Char) : Option ℕ :=
  let n := c.toNat
  if 0x30 ≤ n ∧ n ≤ 0x39 then some (n - 0x30)
  else if 0x61 ≤ n ∧ n ≤ 0x7A then some (n - 0x61 + 10)
  else if 0x41 ≤ n ∧ n ≤ 0x5A then some (n - 0x41 + 10)
  else none

/-- Whether a character is a digit of a base. -/
def isDigit (base : ℕ) (c : Char) : Bool := (digitValue c).any (· < base)

/-- What a numeral means. Characters that are no digits do not count;
where that matters, it is asked for that there are none. -/
def value (base : ℕ) (l : List Char) : ℕ := Nat.ofDigits base (l.filterMap digitValue).reverse

/-- The digits of a numeral in which single separators may stand between
digits; `none` if there are no digits, or a separator stands elsewhere. -/
def ungroup (sep : Char) (l : List Char) : Option (List Char) :=
  if (l.splitOn sep).any List.isEmpty then none else some (l.filter (· ≠ sep))

variable {base : ℕ}

theorem digitValue_digitChar {d : ℕ} (h : d < 16) : digitValue d.digitChar = some d := by
  have hall : ∀ e ∈ List.range 16, digitValue e.digitChar = some e := by decide
  exact hall d (List.mem_range.mpr h)

theorem isDigit_digitChar (hbase : base ≤ 16) {d : ℕ} (h : d < base) :
    isDigit base d.digitChar = true := by
  unfold isDigit
  rw [digitValue_digitChar (h.trans_le hbase)]
  exact decide_eq_true h

/-- The digits that a number is printed with. The bound on the base is
that of the digits which have a character. -/
theorem isDigit_of_mem_toDigits (hone : 1 < base) (hbase : base ≤ 16) {n : ℕ} {c : Char}
    (hc : c ∈ Nat.toDigits base n) : isDigit base c = true := by
  induction n using Nat.strong_induction_on with
  | _ n ih =>
    rw [Nat.toDigits_eq_if hone] at hc
    split at hc
    · next hn =>
      rw [List.mem_singleton.mp hc]
      exact isDigit_digitChar hbase hn
    · next hn =>
      rcases List.mem_append.mp hc with hc | hc
      · exact ih (n / base) (Nat.div_lt_self (by omega) hone) hc
      · rw [List.mem_singleton.mp hc]
        exact isDigit_digitChar hbase (Nat.mod_lt n (by omega))

/-- **Reading takes a printed number back to itself.** By strong
induction: what is printed is the last digit behind what is printed for
the quotient. -/
theorem value_toDigits (hone : 1 < base) (hbase : base ≤ 16) (n : ℕ) :
    value base (Nat.toDigits base n) = n := by
  induction n using Nat.strong_induction_on with
  | _ n ih =>
    rw [Nat.toDigits_eq_if hone]
    split
    · next hn =>
      unfold value
      rw [List.filterMap_cons_some (digitValue_digitChar (hn.trans_le hbase)), List.filterMap_nil,
        List.reverse_singleton, Nat.ofDigits_singleton]
    · next hn =>
      have hlast : digitValue (n % base).digitChar = some (n % base) :=
        digitValue_digitChar ((Nat.mod_lt n (by omega)).trans_le hbase)
      have hrest := ih (n / base) (Nat.div_lt_self (by omega) hone)
      unfold value at hrest ⊢
      rw [List.filterMap_append, List.filterMap_cons_some hlast, List.filterMap_nil,
        List.reverse_append, List.reverse_singleton, List.singleton_append, Nat.ofDigits_cons,
        hrest]
      exact Nat.mod_add_div n base

theorem value_replicate_zero_append (k : ℕ) (l : List Char) :
    value base (List.replicate k '0' ++ l) = value base l := by
  have hzero : digitValue '0' = some 0 := rfl
  unfold value
  rw [List.filterMap_append, List.filterMap_replicate_of_some hzero, List.reverse_append,
    List.reverse_replicate, Nat.ofDigits_append_replicate_zero]

theorem value_replicate_zero (k : ℕ) : value base (List.replicate k '0') = 0 := by
  have h : value base (List.replicate k '0' ++ []) = value base [] :=
    value_replicate_zero_append k []
  rw [List.append_nil] at h
  exact h.trans rfl

/-- A digit has a value. -/
theorem exists_digitValue {c : Char} (h : isDigit base c = true) :
    ∃ d, digitValue c = some d ∧ d < base := by
  unfold isDigit at h
  obtain ⟨d, hd, hlt⟩ := (Option.any_eq_true _ _).mp h
  exact ⟨d, hd, of_decide_eq_true hlt⟩

/-- The decimal digits. They are neighbours among the characters, which no
other proof has to look at again. -/
theorem isDigit_ten {c : Char} (h : isDigit 10 c = true) : 0x30 ≤ c.toNat ∧ c.toNat ≤ 0x39 := by
  obtain ⟨d, hd, hlt⟩ := exists_digitValue h
  unfold digitValue at hd
  dsimp only at hd
  split at hd
  · assumption
  · split at hd
    · have heq := Option.some.inj hd
      omega
    · split at hd
      · have heq := Option.some.inj hd
        omega
      · exact absurd hd (by simp)

theorem length_filterMap_digitValue {l : List Char} (hl : ∀ c ∈ l, isDigit base c = true) :
    (l.filterMap digitValue).length = l.length := by
  induction l with
  | nil => rfl
  | cons c l ih =>
    obtain ⟨d, hd, -⟩ := exists_digitValue (hl c List.mem_cons_self)
    rw [List.filterMap_cons_some hd, List.length_cons, List.length_cons,
      ih fun e he => hl e (List.mem_cons_of_mem c he)]

/-- **The digits that follow** shift those before them. By this a numeral
is read in pieces: an integer part and a fraction, or the digits before a
padding and after. -/
theorem value_append (l : List Char) {m : List Char} (hm : ∀ c ∈ m, isDigit base c = true) :
    value base (l ++ m) = value base l * base ^ m.length + value base m := by
  unfold value
  rw [List.filterMap_append, List.reverse_append, Nat.ofDigits_append, List.length_reverse,
    length_filterMap_digitValue hm, Nat.add_comm, Nat.mul_comm]

/-- A numeral means less than the power of the base to its length. So the
length of a text bounds what can be written in it. -/
theorem value_lt (hone : 1 < base) {l : List Char} (hl : ∀ c ∈ l, isDigit base c = true) :
    value base l < base ^ l.length := by
  have hdigits : ∀ d ∈ (l.filterMap digitValue).reverse, d < base := by
    intro d hd
    obtain ⟨c, hc, hcd⟩ := List.mem_filterMap.mp (List.mem_reverse.mp hd)
    have hdigit := hl c hc
    unfold isDigit at hdigit
    rw [hcd] at hdigit
    exact of_decide_eq_true hdigit
  refine (Nat.ofDigits_lt_base_pow_length hone hdigits).trans_le ?_
  rw [List.length_reverse]
  exact Nat.pow_le_pow_right (by omega) (List.length_filterMap_le _ _)

/-- Without separators every digit stands as it is. -/
theorem ungroup_of_not_mem {sep : Char} {l : List Char} (hne : l ≠ []) (hl : sep ∉ l) :
    ungroup sep l = some l := by
  unfold ungroup
  have hfilter : l.filter (· ≠ sep) = l :=
    List.filter_eq_self.mpr fun c hc => decide_eq_true fun h => hl (h ▸ hc)
  rw [List.splitOn_eq_singleton hl, hfilter, if_neg (by simpa using hne)]

/-- What `ungroup` returns are the digits themselves. -/
theorem mem_of_ungroup {sep : Char} {l digits : List Char} (h : ungroup sep l = some digits)
    {c : Char} (hc : c ∈ digits) : c ∈ l ∧ c ≠ sep := by
  unfold ungroup at h
  split at h
  · exact absurd h (by simp)
  · obtain rfl := Option.some.inj h
    obtain ⟨hmem, hne⟩ := List.mem_filter.mp hc
    exact ⟨hmem, of_decide_eq_true hne⟩

end Numerals
