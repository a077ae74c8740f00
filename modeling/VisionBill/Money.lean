import VisionBill.Lib.DecimalText
import VisionBill.Text

/-!
# Amounts on the screen

The helpers of the editor that compute with amounts as texts. A number of
the language is what it prints, and an amount is read as an integer and a
number of decimal places, so that nothing is rounded. `formatScaled`
prints what it is given (`formatScaled_eq`). `toScaled` makes room for the
digits after the point, and then leaves them out (`toScaled_signed`): what
`decMul` multiplies are the integer parts.

## What the helpers are meant to do

The comment above them asks for exact integer arithmetic, because a float
has no representation of most amounts. An amount is to become an integer
number of its smallest units, integers are multiplied without rounding,
and the product is printed with the decimal places of both factors. All of
that works, except that the integer is computed from the part before the
point alone. So two for 1.50 each are 2 (`twoForOneFifty_wrong`), and the
product is right exactly where there is nothing behind either point, or a
factor is zero (`decMul_exact_iff`).

## How texts are followed

A number of the language is printed with the fewest digits that are read
as it, and with an exponent where the point would be too far away. Whether
a quantity is finite and not negative is checked before, an exponent is
not: what is proved is about quantities that are printed without one,
which is from a millionth on and below ten to the twenty-first.
-/

namespace VisionBill

open DecimalText

/-! ## Strings and numbers of the language

`BigInt` and `Number` accept different texts, and neither is the decimal
of the server. They are modelled as the language defines them, with signs,
prefixes and white space. -/

/-- White space, as `trim` knows it. -/
def isJsSpace (c : Char) : Bool :=
  let n := c.toNat
  (0x09 ≤ n && n ≤ 0x0D) || n == 0x20 || n == 0xA0 || n == 0x1680 || (0x2000 ≤ n && n ≤ 0x200A)
    || n == 0x2028 || n == 0x2029 || n == 0x202F || n == 0x205F || n == 0x3000 || n == 0xFEFF

/-- `s.trim()`. -/
def jsTrim (l : List Char) : List Char := (l.dropWhile isJsSpace).rdropWhile isJsSpace

/-- What is thrown: by the check of the quantity, or by `BigInt`, which
reads no text but that of an integer. -/
inductive JsError
  | error (message : String)
  | syntaxError
  deriving DecidableEq, Repr

/-- The base of a literal with a prefix, and its digits. `BigInt` reads
such literals, though nobody enters them. -/
def radix : List Char → Option (ℕ × List Char)
  | '0' :: c :: digits =>
    if c = 'x' ∨ c = 'X' then some (16, digits)
    else if c = 'o' ∨ c = 'O' then some (8, digits)
    else if c = 'b' ∨ c = 'B' then some (2, digits)
    else none
  | _ => none

/-- The digits of an integer. -/
def bigIntDigits (base : ℕ) (digits : List Char) : Except JsError ℤ :=
  if digits ≠ [] ∧ digits.all (Numerals.isDigit base) then .ok (Numerals.value base digits)
  else .error .syntaxError

/-- `BigInt(s)`. A text that is empty or blank is zero, and one that is no
literal raises a `SyntaxError`. -/
def bigInt (s : List Char) : Except JsError ℤ :=
  match jsTrim s with
  | [] => .ok 0
  | '-' :: digits => (bigIntDigits 10 digits).map fun n => -n
  | '+' :: digits => bigIntDigits 10 digits
  | l =>
    match radix l with
    | some (base, digits) => bigIntDigits base digits
    | none => bigIntDigits 10 l

/-- A number. A finite one is the shortest decimal that is read as it,
with some digits and a power of ten. How a float is rounded to when it is
read does not matter: only its text is used. -/
inductive JsNumber
  | nan
  | infinity (negative : Bool)
  | zero
  | finite (negative : Bool) (digits : ℕ) (exponent : ℤ) (shortest : ¬ 10 ∣ digits)

namespace JsNumber

/-- `Number.isFinite(x)`. -/
def isFinite : JsNumber → Bool
  | .nan | .infinity _ => false
  | .zero | .finite .. => true

/-- `x < 0`. -/
def isNegative : JsNumber → Bool
  | .infinity negative | .finite negative .. => negative
  | .nan | .zero => false

/-- What a finite number is. -/
def value : JsNumber → ℚ
  | .finite negative digits exponent _ => (if negative then -1 else 1) * (digits * 10 ^ exponent)
  | _ => 0

/-- The digits of a number with the point after the first `n` of them,
which may be more or fewer than there are; an exponent where the point is
too far away. -/
def positional (digits : List Char) (n : ℤ) : List Char :=
  if digits.length ≤ n ∧ n ≤ 21 then digits ++ List.replicate (n - digits.length).toNat '0'
  else if 0 < n ∧ n ≤ 21 then digits.take n.toNat ++ '.' :: digits.drop n.toNat
  else if -6 < n ∧ n ≤ 0 then '0' :: '.' :: List.replicate (-n).toNat '0' ++ digits
  else
    let exponent := 'e' :: (if n - 1 < 0 then '-' else '+') :: Nat.toDigits 10 (n - 1).natAbs
    if digits.length = 1 then digits ++ exponent
    else digits.take 1 ++ '.' :: digits.drop 1 ++ exponent

/-- `String(x)`. Very large and very small numbers are written with an
exponent. -/
def text : JsNumber → List Char
  | .nan => "NaN".toList
  | .infinity negative => signed negative "Infinity".toList
  | .zero => ['0']
  | .finite negative digits exponent _ =>
    let ds := Nat.toDigits 10 digits
    signed negative (positional ds (exponent + ds.length))

end JsNumber

/-! ## Decimals

A decimal is kept as an integer and a number of places. The digits before
the point become the integer; what is done with those after it is where
the defect lies. -/

/-- `SIGNED_RE`. It asks for a digit before the point, and for one after
it if there is a point. -/
def signedRe (l : List Char) : Bool :=
  let unsigned := if l.head? = some '-' then l.tail else l
  let rest := unsigned.dropWhile (Numerals.isDigit 10)
  !(unsigned.takeWhile (Numerals.isDigit 10)).isEmpty
    && (rest.isEmpty || (rest.head? == some '.' && !rest.tail.isEmpty
      && rest.tail.all (Numerals.isDigit 10)))

/-- `isSignedDecimal`. -/
def isSignedDecimal : Option String → Bool
  | none => false
  | some value => signedRe (jsTrim value.toList)

/-- `Scaled`: an integer and a number of decimal places. It stands for the
integer divided by that power of ten, so that nothing is rounded. -/
structure Scaled where
  int : ℤ
  digits : ℕ
  deriving DecidableEq, Repr

/-- `toScaled`. The digits behind the point count for the number of
places, and take no part in the integer. -/
def toScaled (value : List Char) : Except JsError Scaled := do
  let parts := (jsTrim value).splitOn '.'
  let intPart := parts.headD []
  let fracPart := parts.tail.headD []
  let int ← bigInt (if intPart = [] then ['0'] else intPart)
  return { int := int * 10 ^ fracPart.length, digits := fracPart.length }

/-- `formatScaled`: an integer of units, printed with its places and
without zeros at the end. -/
def formatScaled (int : ℤ) (digits : ℕ) : List Char :=
  let sign := if int < 0 then ['-'] else []
  let abs := if int < 0 then -int else int
  let base := 10 ^ digits
  let intPart := abs / base
  let fracRaw := if digits > 0 then (Nat.toDigits 10 (abs % base).toNat).leftpad digits '0' else []
  let frac := fracRaw.rdropWhile (· == '0')
  sign ++ Nat.toDigits 10 intPart.toNat ++ (if frac.length > 0 then '.' :: frac else [])

/-- `decMul`. The integers of both operands are multiplied and their
digits are added, which would be exact if the integers were those of the
operands. -/
def decMul (quantity : JsNumber) (unitPrice : String) : Except JsError String :=
  if quantity.isFinite = false ∨ quantity.isNegative then
    .error (.error ("Invalid quantity: " ++ String.ofList quantity.text))
  else do
    let pq ← toScaled quantity.text
    let pu ← toScaled unitPrice.toList
    return String.ofList (formatScaled (pq.int * pu.int) (pq.digits + pu.digits))

/-! ## Printing

What is printed has exactly as many places as the number is kept with. -/

/-- **`formatScaled` prints what it is given**, canonically. So where a
result of the module is wrong, the digits were lost before they were
printed. -/
theorem formatScaled_eq (int : ℤ) (digits : ℕ) : formatScaled int digits = format int digits := by
  have habs : (if int < 0 then -int else int) = (int.natAbs : ℤ) := by
    split <;> omega
  have hdiv : ((int.natAbs : ℤ) / 10 ^ digits).toNat = int.natAbs / 10 ^ digits := by
    rw [← Int.toNat_natCast (int.natAbs / 10 ^ digits)]
    push_cast
    rfl
  have hmod : ((int.natAbs : ℤ) % 10 ^ digits).toNat = int.natAbs % 10 ^ digits := by
    rw [← Int.toNat_natCast (int.natAbs % 10 ^ digits)]
    push_cast
    rfl
  have hsign : ∀ l, signed (decide (int < 0)) l = (if int < 0 then ['-'] else []) ++ l := by
    intro l
    unfold signed
    by_cases h : int < 0
    · rw [if_pos (decide_eq_true h), if_pos h, List.singleton_append]
    · rw [if_neg (by simpa using h), if_neg h, List.nil_append]
  unfold formatScaled format
  dsimp only
  rw [hsign, habs, hdiv, hmod, List.append_assoc]
  unfold plain
  congr 2
  -- no digits are left after the point, or some
  by_cases hfrac :
      stripZeros (if 0 < digits then padStart digits (int.natAbs % 10 ^ digits) else []) = []
  · have hlength : ¬ 0 < (stripZeros
        (if 0 < digits then padStart digits (int.natAbs % 10 ^ digits) else [])).length := by
      rw [hfrac]
      exact Nat.lt_irrefl 0
    rw [if_pos hfrac]
    exact if_neg hlength
  · rw [if_neg hfrac]
    exact if_pos (List.length_pos_iff.mpr hfrac)

/-! ## Reading

A text that has the form of a decimal is read without an exception. Its
integer is made of the digits before the point only, and its places are
counted after it. -/

theorem isJsSpace_of_isDigit {c : Char} (h : Numerals.isDigit 10 c = true) :
    isJsSpace c = false := by
  have hrange := Numerals.isDigit_ten h
  unfold isJsSpace
  dsimp only
  simp only [Bool.or_eq_false_iff, Bool.and_eq_false_iff, decide_eq_false_iff_not,
    beq_eq_false_iff_ne]
  omega

/-- A text without white space is not trimmed. -/
theorem jsTrim_eq_self {l : List Char} (h : ∀ c ∈ l, isJsSpace c = false) : jsTrim l = l := by
  unfold jsTrim
  rw [dropWhile_eq_self fun c hc => h c (List.mem_of_head? hc), List.rdropWhile,
    dropWhile_eq_self fun c hc => ?_, List.reverse_reverse]
  exact h c (List.mem_reverse.mp (List.mem_of_head? hc))

theorem isJsSpace_signed (negative : Bool) {int frac : List Char} (hint : Digits int)
    (hfrac : Digits frac) : ∀ c ∈ signed negative (plain int frac), isJsSpace c = false := by
  have hplain : ∀ c ∈ plain int frac, isJsSpace c = false := by
    intro c hc
    unfold plain at hc
    rcases List.mem_append.mp hc with hc | hc
    · exact isJsSpace_of_isDigit (hint c hc)
    · split at hc
      · exact absurd hc List.not_mem_nil
      · rcases List.mem_cons.mp hc with rfl | hc
        · decide
        · exact isJsSpace_of_isDigit (hfrac c hc)
  intro c hc
  unfold signed at hc
  split at hc
  · rcases List.mem_cons.mp hc with rfl | hc
    · decide
    · exact hplain c hc
  · exact hplain c hc

theorem bigIntDigits_of_digits {l : List Char} (hl : Digits l) (hne : l ≠ []) :
    bigIntDigits 10 l = .ok (Numerals.value 10 l) :=
  if_pos ⟨hne, List.all_eq_true.mpr hl⟩

/-- `BigInt` reads digits with a sign. -/
theorem bigInt_signed (negative : Bool) {int : List Char} (hint : Digits int) (hne : int ≠ []) :
    bigInt (signed negative int) = .ok ((if negative then -1 else 1) * Numerals.value 10 int) := by
  have htrim : jsTrim (signed negative int) = signed negative int := by
    have hnone : Digits [] := fun c hc => absurd hc List.not_mem_nil
    have h := isJsSpace_signed negative hint hnone
    unfold plain at h
    rw [if_pos rfl, List.append_nil] at h
    exact jsTrim_eq_self h
  obtain ⟨c, rest, rfl⟩ := List.exists_cons_of_ne_nil hne
  have hc : Numerals.isDigit 10 c = true := hint c List.mem_cons_self
  unfold bigInt
  rw [htrim]
  cases negative with
  | true =>
    show (bigIntDigits 10 (c :: rest)).map _ = _
    rw [bigIntDigits_of_digits hint hne]
    show Except.ok _ = Except.ok _
    simp
  | false =>
    -- digits are not taken for a number in another base: no letter follows a zero
    have hradix : radix (c :: rest) = none := by
      unfold radix
      split
      · next d digits heq =>
        obtain ⟨-, rfl⟩ := List.cons.inj heq
        have hd : Numerals.isDigit 10 d = true := hint d (by simp)
        have hne : ∀ e : Char, Numerals.isDigit 10 e = false → d ≠ e := by
          rintro e he rfl
          exact absurd (hd.symm.trans he) (by simp)
        simp only [hne 'x' (by decide), hne 'X' (by decide), hne 'o' (by decide),
          hne 'O' (by decide), hne 'b' (by decide), hne 'B' (by decide), or_self, if_false]
      · rfl
    unfold signed
    rw [if_neg (by simp)]
    split
    · next heq => exact absurd heq (by simp)
    · next heq =>
      obtain ⟨rfl, -⟩ := List.cons.inj heq
      exact absurd hc (by decide)
    · next heq =>
      obtain ⟨rfl, -⟩ := List.cons.inj heq
      exact absurd hc (by decide)
    · rw [hradix]
      dsimp only
      rw [bigIntDigits_of_digits hint hne]
      simp

/-- **`toScaled` reads the integer part** and counts the other digits. The
power of ten that makes room for these is multiplied in, and they are
never added. -/
theorem toScaled_signed (negative : Bool) {int frac : List Char} (hint : Digits int)
    (hne : int ≠ []) (hfrac : Digits frac) {l : List Char}
    (hl : jsTrim l = signed negative (plain int frac)) :
    toScaled l = .ok ⟨(if negative then -1 else 1) * Numerals.value 10 int * 10 ^ frac.length,
      frac.length⟩ := by
  have hpoint : '.' ∉ signed negative int := by
    intro hmem
    unfold signed at hmem
    split at hmem
    · rcases List.mem_cons.mp hmem with heq | hmem
      · exact absurd heq (by decide)
      · exact absurd (hint '.' hmem) (by decide)
    · exact absurd (hint '.' hmem) (by decide)
  have hnil : signed negative int ≠ [] := by
    unfold signed
    split
    · exact List.cons_ne_nil _ _
    · exact hne
  have happend : signed negative (plain int frac)
      = signed negative int ++ if frac = [] then [] else '.' :: frac := by
    unfold signed plain
    split <;> rfl
  -- there is one point at most, so the text has one part or two
  have hparts : ((jsTrim l).splitOn '.').headD [] = signed negative int
      ∧ ((jsTrim l).splitOn '.').tail.headD [] = frac := by
    rw [hl, happend]
    by_cases hempty : frac = []
    · rw [if_pos hempty, List.append_nil, List.splitOn_eq_singleton hpoint, hempty]
      exact ⟨rfl, rfl⟩
    · have hrest : '.' ∉ frac := fun hmem => absurd (hfrac '.' hmem) (by decide)
      rw [if_neg hempty, List.splitOn_append_cons_self_of_not_mem hpoint,
        List.splitOn_eq_singleton hrest]
      exact ⟨rfl, rfl⟩
  unfold toScaled
  dsimp only
  rw [hparts.1, hparts.2, if_neg hnil, bigInt_signed negative hint hne]
  rfl

/-- What `isSignedDecimal` accepts. The pattern becomes a shape with a
sign, digits, and digits behind a point, on which the other functions are
described. -/
theorem signed_of_signedRe {l : List Char} (h : signedRe l = true) :
    ∃ negative int frac, l = signed negative (plain int frac) ∧ Digits int ∧ int ≠ []
      ∧ Digits frac := by
  have hunsigned : ∃ negative, l = signed negative (if l.head? = some '-' then l.tail else l) := by
    by_cases hsign : l.head? = some '-'
    · obtain ⟨rest, rfl⟩ := List.head?_eq_some_iff.mp hsign
      exact ⟨true, rfl⟩
    · exact ⟨false, (if_neg hsign).symm⟩
  obtain ⟨negative, hl⟩ := hunsigned
  unfold signedRe at h
  dsimp only at h
  generalize (if l.head? = some '-' then l.tail else l) = unsigned at hl h
  rw [Bool.and_eq_true, Bool.or_eq_true, Bool.and_eq_true, Bool.and_eq_true] at h
  obtain ⟨hint, hrest⟩ := h
  have hsplit := (List.takeWhile_append_dropWhile (p := Numerals.isDigit 10) (l := unsigned)).symm
  have hdigits : Digits (unsigned.takeWhile (Numerals.isDigit 10)) := fun c hc =>
    List.mem_takeWhile_imp hc
  have hne : unsigned.takeWhile (Numerals.isDigit 10) ≠ [] := by simpa using hint
  -- digits alone, or a point and digits behind them
  rcases hrest with hrest | ⟨⟨hpoint, hfrac⟩, hall⟩
  · refine ⟨negative, _, [], ?_, hdigits, hne, fun c hc => absurd hc List.not_mem_nil⟩
    rw [List.isEmpty_iff.mp hrest, List.append_nil] at hsplit
    unfold plain
    rw [if_pos rfl, List.append_nil, ← hsplit]
    exact hl
  · obtain ⟨frac, hfrac'⟩ := List.head?_eq_some_iff.mp (beq_iff_eq.mp hpoint)
    rw [hfrac'] at hsplit hfrac hall
    refine ⟨negative, _, frac, ?_, hdigits, hne, fun c hc => List.all_eq_true.mp hall c hc⟩
    unfold plain
    rw [if_neg (by simpa using hfrac), ← hsplit]
    exact hl

/-! ## Texts of numbers -/

namespace JsNumber

/-- **A text without an exponent** is a decimal that means the number. The
point lies behind the digits, among them or before them, and in the first
and the last case zeros fill the gap. -/
theorem positional_spec {s : ℕ} {exponent : ℤ}
    (h : 'e' ∉ positional (Nat.toDigits 10 s) (exponent + (Nat.toDigits 10 s).length)) :
    ∃ int frac, positional (Nat.toDigits 10 s) (exponent + (Nat.toDigits 10 s).length)
        = plain int frac ∧ Digits int ∧ int ≠ [] ∧ Digits frac
      ∧ number int frac = s * 10 ^ exponent := by
  have hds := digits_toDigits s
  have hvalue : Numerals.value 10 (Nat.toDigits 10 s) = s :=
    Numerals.value_toDigits (by decide) (by decide) s
  have hpos : 0 < (Nat.toDigits 10 s).length := Nat.length_toDigits_pos
  generalize Nat.toDigits 10 s = ds at h hds hvalue hpos
  unfold positional at h ⊢
  split at h
  · -- zeros are added
    next hcase =>
    obtain ⟨k, rfl⟩ := Int.eq_ofNat_of_zero_le (a := exponent) (by omega)
    have hzeros : ((k : ℤ) + ds.length - ds.length).toNat = k := by omega
    refine ⟨ds ++ List.replicate k '0', [], ?_, hds.append (digits_replicate_zero k), ?_,
      fun c hc => absurd hc List.not_mem_nil, ?_⟩
    · rw [if_pos hcase, hzeros]
      unfold plain
      rw [if_pos rfl, List.append_nil]
    · simp [List.length_pos_iff.mp hpos]
    · unfold number
      rw [Numerals.value_append _ (digits_replicate_zero k), hvalue, List.length_replicate]
      rw [Numerals.value_replicate_zero]
      simp [Numerals.value]
  · split at h
    · -- the point is among the digits
      next hnot hcase =>
      obtain ⟨n, hn⟩ := Int.eq_ofNat_of_zero_le (a := exponent + ds.length) (by omega)
      have hlt : n < ds.length := by omega
      refine ⟨ds.take n, ds.drop n, ?_, fun c hc => hds c (List.mem_of_mem_take hc), ?_,
        fun c hc => hds c (List.mem_of_mem_drop hc), ?_⟩
      · rw [if_neg hnot, if_pos hcase, hn]
        unfold plain
        rw [if_neg (by simpa using hlt)]
        rfl
      · intro hnil
        rcases List.take_eq_nil_iff.mp hnil with hzero | hzero
        · omega
        · rw [hzero] at hpos
          exact absurd hpos (Nat.lt_irrefl 0)
      · have hrest : Digits (ds.drop n) := fun c hc => hds c (List.mem_of_mem_drop hc)
        have hsplit := Numerals.value_append (ds.take n) hrest
        rw [List.take_append_drop, hvalue] at hsplit
        have hexp : exponent = -((ds.drop n).length : ℤ) := by
          rw [List.length_drop]
          omega
        unfold number
        rw [hexp, zpow_neg, zpow_natCast, hsplit]
        push_cast
        field_simp
    · split at h
      · -- zeros come first
        next hnot hnot' hcase =>
        obtain ⟨k, hk⟩ := Int.eq_ofNat_of_zero_le (a := -(exponent + ds.length)) (by omega)
        have hfrac : Digits (List.replicate k '0' ++ ds) := (digits_replicate_zero k).append hds
        refine ⟨['0'], List.replicate k '0' ++ ds, ?_, digits_replicate_zero 1, by simp, hfrac, ?_⟩
        · rw [if_neg hnot, if_neg hnot', if_pos hcase, hk]
          unfold plain
          rw [if_neg (by simp [List.length_pos_iff.mp hpos])]
          rfl
        · have hexp : exponent = -((List.replicate k '0' ++ ds).length : ℤ) := by
            rw [List.length_append, List.length_replicate]
            omega
          have hzero : Numerals.value 10 ['0'] = 0 := rfl
          unfold number
          rw [hexp, zpow_neg, zpow_natCast, Numerals.value_replicate_zero_append, hvalue, hzero]
          rw [Nat.cast_zero, zero_add, div_eq_mul_inv]
      · -- an exponent
        refine absurd ?_ h
        dsimp only
        split <;> simp

/-- The text of a number that is not negative. JavaScript prints it
plainly unless it needs an exponent, and then the text means the
number. -/
theorem text_spec {q : JsNumber} (hfinite : q.isFinite = true) (hnonneg : q.isNegative = false)
    (hexponent : 'e' ∉ q.text) :
    ∃ int frac, q.text = plain int frac ∧ Digits int ∧ int ≠ [] ∧ Digits frac
      ∧ number int frac = q.value := by
  cases q with
  | nan => exact absurd hfinite (by simp [isFinite])
  | infinity negative => exact absurd hfinite (by simp [isFinite])
  | zero =>
    refine ⟨['0'], [], rfl, digits_replicate_zero 1, by simp,
      fun c hc => absurd hc List.not_mem_nil, ?_⟩
    simp [number, value, Numerals.value, show Numerals.digitValue '0' = some 0 from rfl]
  | finite negative digits exponent shortest =>
    obtain rfl : negative = false := hnonneg
    obtain ⟨int, frac, htext, hint, hne, hfrac, hnumber⟩ := positional_spec hexponent
    refine ⟨int, frac, htext, hint, hne, hfrac, hnumber.trans ?_⟩
    show _ = 1 * _
    rw [one_mul]

end JsNumber

/-! ## Products

The product of the integers is exact, and the places add up. What is
missing are the digits after the points, so the result is right where
there are none, and where a factor is zero. -/

/-- An amount as it is typed. -/
def amount (value : String) : ℚ := decimalValue (jsTrim value.toList)

/-- The product is printed exactly, as a canonical decimal. This is what
the comment on `decMul` promises. Exact means the number that one gets on
paper; the form of the text is asked for as well, as the text is put into
an input. -/
def MultipliesExactly (quantity : JsNumber) (unitPrice : String) : Prop :=
  ∃ s, decMul quantity unitPrice = .ok s ∧ IsCanonical s.toList
    ∧ decimalValue s.toList = quantity.value * amount unitPrice

/-- A whole number. -/
def IsWhole (x : ℚ) : Prop := ∃ n : ℤ, x = n

/-- What the digits after the point mean. -/
theorem number_eq_add (int : List Char) {frac : List Char} (hfrac : Digits frac) :
    ∃ f : ℚ, number int frac = Numerals.value 10 int + f ∧ 0 ≤ f ∧ f < 1 := by
  refine ⟨Numerals.value 10 frac / 10 ^ frac.length, rfl, by positivity, ?_⟩
  rw [div_lt_one (by positivity)]
  exact_mod_cast Numerals.value_lt (by decide) hfrac

theorem isWhole_add_iff {n : ℕ} {f : ℚ} (hpos : 0 ≤ f) (hlt : f < 1) :
    IsWhole (n + f) ↔ f = 0 := by
  constructor
  · rintro ⟨m, hm⟩
    have hf : f = ((m - n : ℤ) : ℚ) := by
      push_cast
      linarith
    rw [hf] at hpos hlt ⊢
    have hpos' : 0 ≤ m - (n : ℤ) := by exact_mod_cast hpos
    have hlt' : m - (n : ℤ) < 1 := by exact_mod_cast hlt
    have hzero : m - (n : ℤ) = 0 := by omega
    rw [hzero, Int.cast_zero]
  · rintro rfl
    exact ⟨n, by push_cast; ring⟩

theorem isWhole_sign_iff (negative : Bool) (x : ℚ) :
    IsWhole ((if negative then -1 else 1) * x) ↔ IsWhole x := by
  cases negative with
  | true =>
    have hneg : ∀ y : ℚ, IsWhole y → IsWhole (-y) := by
      rintro y ⟨n, rfl⟩
      exact ⟨-n, by push_cast; rfl⟩
    simp only [if_true, neg_one_mul]
    exact ⟨fun h => neg_neg x ▸ hneg _ h, hneg x⟩
  | false => simp

/-- **The product of the integer parts** is the product only if nothing
stands after the points, or a factor is zero. What is left out are
products of numbers that are not negative, so they vanish one by one. -/
theorem mul_eq_mul_add_iff {a b : ℕ} {f g : ℚ} (hf : 0 ≤ f) (hg : 0 ≤ g) :
    (a * b : ℚ) = (a + f) * (b + g) ↔ a + f = 0 ∨ b + g = 0 ∨ (f = 0 ∧ g = 0) := by
  have ha : (0 : ℚ) ≤ a := Nat.cast_nonneg a
  have hb : (0 : ℚ) ≤ b := Nat.cast_nonneg b
  constructor
  · intro h
    -- three products that are not negative add up to nothing
    have hag : 0 ≤ a * g := mul_nonneg ha hg
    have hfb : 0 ≤ f * b := mul_nonneg hf hb
    have hfg : 0 ≤ f * g := mul_nonneg hf hg
    have hsum : a * g + f * b + f * g = 0 := by linarith [h]
    have hag' : a * g = 0 := by linarith
    have hfb' : f * b = 0 := by linarith
    have hfg' : f * g = 0 := by linarith
    by_cases hf0 : f = 0
    · rcases mul_eq_zero.mp hag' with ha0 | hg0
      · exact .inl (by rw [ha0, hf0, add_zero])
      · exact .inr (.inr ⟨hf0, hg0⟩)
    · have hb0 := (mul_eq_zero.mp hfb').resolve_left hf0
      have hg0 := (mul_eq_zero.mp hfg').resolve_left hf0
      exact .inr (.inl (by rw [hb0, hg0, add_zero]))
  · rintro (h | h | ⟨rfl, rfl⟩)
    · have ha0 : (a : ℚ) = 0 := by linarith
      rw [h, ha0, zero_mul, zero_mul]
    · have hb0 : (b : ℚ) = 0 := by linarith
      rw [h, hb0, mul_zero, mul_zero]
    · rw [add_zero, add_zero]

/-- **What `decMul` computes** for a quantity that is printed without an
exponent and an amount: the product of their integer parts. It is
canonical whatever it means. -/
theorem decMul_spec {quantity : JsNumber} {unitPrice : String}
    (hfinite : quantity.isFinite = true) (hnonneg : quantity.isNegative = false)
    (hexponent : 'e' ∉ quantity.text) (hprice : isSignedDecimal (some unitPrice) = true) :
    ∃ (negative : Bool) (a b : ℕ) (f g : ℚ) (s : String),
      decMul quantity unitPrice = .ok s ∧ IsCanonical s.toList
        ∧ decimalValue s.toList = (if negative then -1 else 1) * (a * b)
        ∧ quantity.value = a + f ∧ amount unitPrice = (if negative then -1 else 1) * (b + g)
        ∧ 0 ≤ f ∧ f < 1 ∧ 0 ≤ g ∧ g < 1 := by
  obtain ⟨qint, qfrac, htext, hqint, hqne, hqfrac, hqvalue⟩ :=
    JsNumber.text_spec hfinite hnonneg hexponent
  obtain ⟨negative, pint, pfrac, hptext, hpint, hpne, hpfrac⟩ := signed_of_signedRe hprice
  obtain ⟨f, hf, hfpos, hflt⟩ := number_eq_add qint hqfrac
  obtain ⟨g, hg, hgpos, hglt⟩ := number_eq_add pint hpfrac
  have hqtrim : jsTrim quantity.text = signed false (plain qint qfrac) := by
    rw [htext]
    exact jsTrim_eq_self (isJsSpace_signed false hqint hqfrac)
  -- of both factors only the integer parts are left
  have hq := toScaled_signed false hqint hqne hqfrac hqtrim
  have hp := toScaled_signed negative hpint hpne hpfrac hptext
  obtain ⟨n, hn⟩ : ∃ n : ℤ, n = (if false then -1 else 1) * Numerals.value 10 qint
      * 10 ^ qfrac.length
      * ((if negative then -1 else 1) * Numerals.value 10 pint * 10 ^ pfrac.length) := ⟨_, rfl⟩
  obtain ⟨hcanonical, hvalue⟩ := isCanonical_format n (qfrac.length + pfrac.length)
  refine ⟨negative, Numerals.value 10 qint, Numerals.value 10 pint, f, g,
    String.ofList (formatScaled n (qfrac.length + pfrac.length)), ?_, ?_, ?_, hqvalue.symm.trans hf,
    ?_, hfpos, hflt, hgpos, hglt⟩
  · unfold decMul
    rw [if_neg (by simp [hfinite, hnonneg]), hq, hp, hn]
    rfl
  · rw [String.toList_ofList, formatScaled_eq]
    exact hcanonical
  · rw [String.toList_ofList, formatScaled_eq, hvalue, hn, pow_add]
    push_cast
    field_simp
  · unfold amount
    rw [hptext, decimalValue_signed negative hpint hpne, hg]

/-- **`decMul` is exact if nothing stands after the points**, or a factor
is zero, and only then. Each operand loses its fraction, and what is
missing of a product of nonnegative factors cannot be made up for by the
other one. -/
theorem decMul_exact_iff {quantity : JsNumber} {unitPrice : String}
    (hfinite : quantity.isFinite = true) (hnonneg : quantity.isNegative = false)
    (hexponent : 'e' ∉ quantity.text) (hprice : isSignedDecimal (some unitPrice) = true) :
    MultipliesExactly quantity unitPrice ↔ quantity.value = 0 ∨ amount unitPrice = 0
      ∨ (IsWhole quantity.value ∧ IsWhole (amount unitPrice)) := by
  obtain ⟨negative, a, b, f, g, s, hs, hcanonical, hvalue, hq, hp, hf, hf1, hg, hg1⟩ :=
    decMul_spec hfinite hnonneg hexponent hprice
  have hsign : (if negative then (-1 : ℚ) else 1) ≠ 0 := by cases negative <;> simp
  have hexact : MultipliesExactly quantity unitPrice
      ↔ (a * b : ℚ) = (a + f) * (b + g) := by
    unfold MultipliesExactly
    rw [hq, hp]
    constructor
    · rintro ⟨t, ht, -, heq⟩
      obtain rfl := Except.ok.inj (hs.symm.trans ht)
      rw [hvalue] at heq
      exact mul_left_cancel₀ hsign (heq.trans (mul_left_comm _ _ _))
    · intro heq
      refine ⟨s, hs, hcanonical, ?_⟩
      rw [hvalue, heq]
      exact mul_left_comm _ _ _
  rw [hexact, mul_eq_mul_add_iff hf hg, hq, hp, isWhole_sign_iff, isWhole_add_iff hf hf1,
    isWhole_add_iff hg hg1, mul_eq_zero]
  simp only [hsign, false_or]

/-! ## Two for 1.50 each -/

/-- A quantity. -/
def two : JsNumber := .finite false 2 0 (by decide)

/-- Whole numbers are multiplied exactly. -/
theorem twoForThree_exact : MultipliesExactly two "-3.00" :=
  (decMul_exact_iff rfl rfl (by decide +kernel) (by decide +kernel)).mpr
    (.inr (.inr ⟨⟨2, by norm_num [two, JsNumber.value]⟩, ⟨-3, by decide +kernel⟩⟩))

/-- **Two for 1.50 each are 2.** Both texts are plain decimals, and the
fraction is lost all the same: 1.50 is read as 100 hundredths. -/
theorem twoForOneFifty_wrong : two.isFinite = true ∧ two.isNegative = false ∧ 'e' ∉ two.text
    ∧ isSignedDecimal (some "1.50") = true ∧ decMul two "1.50" = .ok "2"
    ∧ ¬ MultipliesExactly two "1.50" := by
  have hresult : decMul two "1.50" = .ok "2" := by decide +kernel
  refine ⟨rfl, rfl, by decide +kernel, by decide +kernel, hresult, ?_⟩
  rintro ⟨s, hs, -, hvalue⟩
  obtain rfl := Except.ok.inj (hresult.symm.trans hs)
  revert hvalue
  decide +kernel

end VisionBill
