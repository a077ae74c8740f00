import VisionBill.GroundTruth
import VisionBill.Money
import Mathlib.Data.Nat.MaxPowDiv

/-!
# Values as texts

A page shows the values of a receipt as texts and sends texts back. A date
and a time are shown in their ISO 8601 forms, an amount with two decimals,
a number with its shortest digits. What is read from the text of a stored
value is that value, and a column returns what it has returned before:
both roundings on the way into it, the one to a float and the one to the
decimals of the column, leave a number of the column alone.

## Numbers of the browser

The browser prints a number with as few digits as tell it apart from all
other floats, and with an exponent if it is large or small. Numbers of the
columns are neither, and have few digits, so their texts are digits with a
point among them (`JsNumber.IsPlain`). How the browser parses a text is
otherwise left open: it returns a float, and the number itself for the
text of a plain one (`JsNumbers`). That there is such a reading at all has
to be shown, for a text could be that of two numbers; it is that of one,
because digits without a zero at the end determine the number that they
are (`JsNumber.eq_of_value_eq`).

## Columns

A value goes into a column as the decimal of a float, and is rounded to
the places of the column. What comes out has these places, and when it
goes in again the float next to it is taken first. The result is the same
number only if floats are finer than the places of the column over its
whole range, and that is what `floatColumn_of_returned` asks for and the
columns of receipts satisfy.
-/

namespace VisionBill

open DecimalText

/-! ## Digits -/

/-- A number that is written with some digits. -/
def digits? (l : List Char) : Option ℕ :=
  (l.mapM digit?).map fun digits => digits.foldl (fun n d => 10 * n + d) 0

/-- A padded number that fits is written with zeros before its digits. -/
theorem toList_padded {width n : ℕ} (hpos : 0 < width) (h : n < 10 ^ width) :
    (padded width n).toList = padStart width n := by
  have hrepr : (Nat.repr n).toList = Nat.toDigits 10 n := by
    rw [Nat.repr, String.toList_ofList]
  have hlen : (Nat.toDigits 10 n).length ≤ width := Nat.toDigits_length 10 n width hpos h
  unfold padded padStart List.leftpad
  rw [String.toList_ofList, ← String.length_toList, hrepr,
    List.drop_append_of_le_length (by rw [List.length_replicate]; exact hlen),
    List.drop_replicate]

/-- A digit is read as its value. -/
theorem digit?_of_digitValue {c : Char} (hc : Numerals.isDigit 10 c = true) {d : ℕ}
    (hd : Numerals.digitValue c = some d) : digit? c = some d := by
  obtain ⟨hlow, hhigh⟩ := Numerals.isDigit_ten hc
  have hrange : '0' ≤ c ∧ c ≤ '9' := ⟨hlow, hhigh⟩
  unfold Numerals.digitValue at hd
  dsimp only at hd
  rw [if_pos ⟨hlow, hhigh⟩] at hd
  unfold digit?
  rw [if_pos hrange]
  exact hd

/-- Digits are read as the number they mean. The number that was read so
far is generalised, since the fold starts from it. -/
theorem mapM_digit? {l : List Char} (hl : Digits l) :
    ∃ digits, l.mapM digit? = some digits ∧ digits.length = l.length
      ∧ ∀ k, digits.foldl (fun n d => 10 * n + d) k = k * 10 ^ l.length + Numerals.value 10 l := by
  induction l with
  | nil => exact ⟨[], rfl, rfl, fun k => by simp [Numerals.value]⟩
  | cons c l ih =>
    have hc : Numerals.isDigit 10 c = true := hl c List.mem_cons_self
    have hrest : Digits l := fun e he => hl e (List.mem_cons_of_mem c he)
    obtain ⟨digits, hdigits, hlen, hfold⟩ := ih hrest
    obtain ⟨d, hd, -⟩ := Numerals.exists_digitValue hc
    have hvalue : Numerals.value 10 (c :: l) = d * 10 ^ l.length + Numerals.value 10 l := by
      rw [← List.singleton_append, Numerals.value_append [c] hrest]
      unfold Numerals.value
      rw [List.filterMap_cons_some hd]
      rfl
    refine ⟨d :: digits, ?_, ?_, fun k => ?_⟩
    · rw [List.mapM_cons, digit?_of_digitValue hc hd, hdigits]
      rfl
    · rw [List.length_cons, List.length_cons, hlen]
    · rw [List.foldl_cons, hfold, hvalue, List.length_cons, pow_succ]
      ring

/-- Zeros before a number do not matter. -/
theorem digits?_padStart (width n : ℕ) : digits? (padStart width n) = some n := by
  obtain ⟨digits, hdigits, -, hfold⟩ := mapM_digit? (digits_padStart width n)
  unfold digits?
  rw [hdigits, Option.map_some, hfold, Nat.zero_mul, Nat.zero_add, value_padStart]

/-- Two digits, and what follows them. Times and dates are made of these,
so their readers go from one such step to the next. -/
theorem twoDigits_append {l : List Char} (hl : Digits l) (hlen : l.length = 2) (m : List Char) :
    twoDigits (l ++ m) = some (Numerals.value 10 l, m) := by
  obtain ⟨c, d, rfl⟩ := List.length_eq_two.mp hlen
  have hc := hl c List.mem_cons_self
  have hd := hl d (List.mem_cons_of_mem c List.mem_cons_self)
  obtain ⟨a, ha, -⟩ := Numerals.exists_digitValue hc
  obtain ⟨b, hb, -⟩ := Numerals.exists_digitValue hd
  have hvalue : Numerals.value 10 [c, d] = 10 * a + b := by
    unfold Numerals.value
    rw [List.filterMap_cons_some ha, List.filterMap_cons_some hb]
    show b + 10 * (a + 10 * 0) = 10 * a + b
    omega
  show (do return (10 * (← digit? c) + (← digit? d), m)) = _
  rw [digit?_of_digitValue hc ha, digit?_of_digitValue hd hb, hvalue]
  rfl

/-- Two digits as they are printed. -/
theorem twoDigits_padStart {n : ℕ} (h : n < 100) (m : List Char) :
    twoDigits (padStart 2 n ++ m) = some (n, m) := by
  rw [twoDigits_append (digits_padStart 2 n) (length_padStart two_pos h), value_padStart]

/-- A fraction of a second in all its digits. -/
theorem fraction?_padStart {n : ℕ} (h : n < 1000000) : fraction? ('.' :: padStart 6 n) = some n := by
  have hlen : (padStart 6 n).length = 6 := length_padStart (by decide) h
  obtain ⟨digits, hdigits, hlen', hfold⟩ := mapM_digit? (digits_padStart 6 n)
  have hne : padStart 6 n ≠ [] := List.ne_nil_of_length_pos (by rw [hlen]; decide)
  have htake : (digits ++ List.replicate 6 0).take 6 = digits :=
    List.take_left' (hlen'.trans hlen)
  unfold fraction?
  dsimp only
  rw [if_pos ⟨.inl rfl, hne⟩, hdigits]
  show some (List.foldl _ 0 _) = _
  rw [htake, hfold, Nat.zero_mul, Nat.zero_add, value_padStart]

/-! ## Times and dates

What is printed is read back as the same value. The printed texts have
fixed widths, so reading them is taking them apart at fixed places. -/

/-- The characters of a time. -/
def Time.clock (t : Time) : List Char :=
  padStart 2 t.hour ++ ':' :: (padStart 2 t.minute ++ ':' :: (padStart 2 t.second
    ++ if t.microsecond = 0 then [] else '.' :: padStart 6 t.microsecond))

theorem Time.toList_isoformat (t : Time) : t.isoformat.toList = t.clock := by
  obtain ⟨hhour, hminute, hsecond, hmicrosecond⟩ := t.valid
  have htwo : ∀ {n : ℕ}, n < 60 → (padded 2 n).toList = padStart 2 n := fun hn =>
    toList_padded two_pos (hn.trans (by norm_num))
  unfold isoformat clock
  dsimp only
  split
  · simp only [String.toList_append, htwo hminute, htwo hsecond,
      htwo (hhour.trans (by norm_num)), List.append_assoc, List.append_nil]
    rfl
  · have hsix : (padded 6 t.microsecond).toList = padStart 6 t.microsecond :=
      toList_padded (by decide) hmicrosecond
    simp only [String.toList_append, htwo hminute, htwo hsecond, hsix,
      htwo (hhour.trans (by norm_num)), List.append_assoc]
    rfl

theorem Time.parseClock_clock (t : Time) :
    parseClock t.clock = some (t.hour, t.minute, t.second, t.microsecond) := by
  obtain ⟨hhour, hminute, hsecond, hmicrosecond⟩ := t.valid
  have hrest : fraction? (if t.microsecond = 0 then [] else '.' :: padStart 6 t.microsecond)
      = some t.microsecond := by
    split
    · next hzero => exact congrArg some hzero.symm
    · exact fraction?_padStart hmicrosecond
  unfold parseClock clock
  rw [twoDigits_padStart (hhour.trans (by norm_num))]
  show (twoDigits (padStart 2 t.minute ++ _) >>= _) = _
  rw [twoDigits_padStart (hminute.trans (by norm_num))]
  show (twoDigits (padStart 2 t.second ++ _) >>= _) = _
  rw [twoDigits_padStart (hsecond.trans (by norm_num))]
  show (fraction? _ >>= _) = _
  rw [hrest]
  rfl

/-- A time has no sign of an offset, and no letter before it. So the
reader does not take a part of it for a time zone. -/
theorem Time.mem_clock {t : Time} {c : Char} (hc : c ∈ t.clock) :
    Numerals.isDigit 10 c = true ∨ c = ':' ∨ c = '.' := by
  have hdigit : ∀ {width n : ℕ}, c ∈ padStart width n → Numerals.isDigit 10 c = true :=
    fun h => digits_padStart _ _ c h
  unfold clock at hc
  simp only [List.mem_append, List.mem_cons] at hc
  rcases hc with hc | rfl | hc | rfl | hc | hc
  · exact .inl (hdigit hc)
  · exact .inr (.inl rfl)
  · exact .inl (hdigit hc)
  · exact .inr (.inl rfl)
  · exact .inl (hdigit hc)
  · split at hc
    · exact absurd hc List.not_mem_nil
    · rcases List.mem_cons.mp hc with rfl | hc
      · exact .inr (.inr rfl)
      · exact .inl (hdigit hc)

/-- **A time is read as it is printed.** The text has hours, minutes and
seconds, and the fraction only if there is one. -/
theorem Time.fromisoformat_isoformat (t : Time) : fromisoformat t.isoformat = some t := by
  have hne : ∀ c ∈ t.clock, ∀ d, Numerals.isDigit 10 d = false → d ≠ ':' → d ≠ '.' → c ≠ d := by
    rintro c hc d hdigit hcolon hpoint rfl
    rcases mem_clock hc with h | h | h
    · exact absurd (h.symm.trans hdigit) (by decide)
    · exact hcolon h
    · exact hpoint h
  have hzone : ∀ c ∈ t.clock, decide (¬ (c = '+' ∨ c = '-' ∨ c = 'Z')) = true := fun c hc =>
    decide_eq_true fun h => by
      rcases h with h | h | h
      · exact hne c hc '+' (by decide) (by decide) (by decide) h
      · exact hne c hc '-' (by decide) (by decide) (by decide) h
      · exact hne c hc 'Z' (by decide) (by decide) (by decide) h
  unfold fromisoformat
  rw [toList_isoformat]
  split
  · next l heq =>
    exact absurd rfl (hne 'T' (by rw [heq]; exact List.mem_cons_self) 'T' (by decide) (by decide)
      (by decide))
  · dsimp only
    rw [List.takeWhile_eq_self_iff.mpr hzone, List.dropWhile_eq_nil_iff.mpr hzone,
      parseClock_clock]
    show (if h : _ then _ else none) = some t
    rw [dif_pos t.valid]
    rfl

/-- `Date.isoformat`. -/
def Date.isoformat (d : Date) : String :=
  padded 4 d.year ++ "-" ++ padded 2 d.month ++ "-" ++ padded 2 d.day

/-- The date that is written with digits and hyphens, as `DATE_RE` has it.
Pydantic takes more texts for a date, such as a number of seconds or a
time at midnight. Only what the editor lets pass is read here: it saves no
form with another text. -/
def Date.ofText (s : String) : Option Date :=
  match s.toList with
  | [y₁, y₂, y₃, y₄, '-', m₁, m₂, '-', d₁, d₂] => do
    let year ← digits? [y₁, y₂, y₃, y₄]
    let month ← digits? [m₁, m₂]
    let day ← digits? [d₁, d₂]
    if h : (1 ≤ year ∧ year ≤ 9999) ∧ (1 ≤ month ∧ month ≤ 12)
        ∧ 1 ≤ day ∧ day ≤ daysInMonth year month then some ⟨year, month, day, h⟩
    else none
  | _ => none

theorem Date.lt_pow (d : Date) : d.year < 10 ^ 4 ∧ d.month < 10 ^ 2 ∧ d.day < 10 ^ 2 := by
  obtain ⟨⟨-, hyear⟩, ⟨-, hmonth⟩, -, hday⟩ := d.valid
  have hlast : daysInMonth d.year d.month ≤ 31 := by
    unfold daysInMonth
    split
    · split <;> decide
    · split <;> decide
  omega

/-- The characters of a date. -/
theorem Date.toList_isoformat (d : Date) : d.isoformat.toList
    = padStart 4 d.year ++ '-' :: (padStart 2 d.month ++ '-' :: padStart 2 d.day) := by
  obtain ⟨hyear, hmonth, hday⟩ := d.lt_pow
  unfold isoformat
  simp only [String.toList_append, toList_padded (by decide : 0 < 4) hyear,
    toList_padded two_pos hmonth, toList_padded two_pos hday, List.append_assoc]
  rfl

/-- **A date is read as it is printed.** Its three fields have a fixed
width, so the text is taken apart at fixed places. -/
theorem Date.ofText_isoformat (d : Date) : ofText d.isoformat = some d := by
  obtain ⟨hyear, hmonth, hday⟩ := d.lt_pow
  have hlen := length_padStart (by decide : 0 < 4) hyear
  have hlenMonth := length_padStart two_pos hmonth
  have hlenDay := length_padStart two_pos hday
  have hread := digits?_padStart 4 d.year
  have hreadMonth := digits?_padStart 2 d.month
  have hreadDay := digits?_padStart 2 d.day
  unfold ofText
  rw [d.toList_isoformat]
  generalize padStart 4 d.year = y at hlen hread
  generalize padStart 2 d.month = m at hlenMonth hreadMonth
  generalize padStart 2 d.day = e at hlenDay hreadDay
  match y, m, e, hlen, hlenMonth, hlenDay with
  | [y₁, y₂, y₃, y₄], [m₁, m₂], [e₁, e₂], _, _, _ =>
    show (digits? [y₁, y₂, y₃, y₄] >>= _) = _
    rw [hread]
    show (digits? [m₁, m₂] >>= _) = _
    rw [hreadMonth]
    show (digits? [e₁, e₂] >>= _) = _
    rw [hreadDay]
    show (if h : _ then _ else none) = some d
    rw [dif_pos d.valid]

/-! ## Amounts

An amount that was stored has two decimals, and is printed with both.
Reading it back is exact, as decimals are. -/

/-- A number with so many decimals. -/
def HasPlaces (places : ℕ) (x : ℚ) : Prop := ∃ n : ℤ, x = n * (1 / 10 ^ places)

/-- Such a number is a number of units of its last place. -/
theorem HasPlaces.num_eq {places : ℕ} {x : ℚ} (hx : HasPlaces places x) :
    ((x * 10 ^ places).num : ℚ) / 10 ^ places = x := by
  obtain ⟨n, rfl⟩ := hx
  have hint : (n : ℚ) * (1 / 10 ^ places) * 10 ^ places = (n : ℤ) := by
    field_simp
  rw [hint, Rat.num_intCast, mul_one_div]

/-- Such a number is one of those that a float prints as, if it has
few. -/
theorem HasPlaces.onGrid {places : ℕ} {x : ℚ} (hx : HasPlaces places x) (h : places ≤ 324) :
    ∃ n : ℤ, x = n * floatUnit := by
  obtain ⟨n, rfl⟩ := hx
  refine ⟨n * 10 ^ (324 - places), ?_⟩
  have hunit : (10 : ℚ) ^ (324 - places) * floatUnit = 1 / 10 ^ places := by
    rw [floatUnit, ← zpow_natCast, ← zpow_add₀ (by norm_num), one_div, ← zpow_natCast, ← zpow_neg]
    congr 1
    omega
  rw [Int.cast_mul, mul_assoc, Int.cast_pow, Int.cast_ofNat, hunit]

/-- `str(x)` of a stored amount, which has two decimals. -/
def amountText (x : ℚ) : String := String.ofList (fixed (x * 10 ^ 2).num 2)

/-- `Decimal(s)` for a text as `SIGNED_RE` has it. Python reads more texts
than that, with exponents, underscores or blanks around them, and `NaN`.
Only what the editor lets pass is read here: it saves no form with another
text. -/
def decimal? (s : String) : Option ℚ :=
  if signedRe s.toList then some (decimalValue s.toList) else none

/-- Digits with a sign and a point are what `SIGNED_RE` has. It is the
other direction of what the pattern says about a text that it accepts. -/
theorem signedRe_signed (negative : Bool) {int frac : List Char} (hint : Digits int)
    (hne : int ≠ []) (hfrac : Digits frac) :
    signedRe (signed negative (plain int frac)) = true := by
  have hhead : (plain int frac).head? ≠ some '-' := by
    obtain ⟨c, rest, rfl⟩ := List.exists_cons_of_ne_nil hne
    intro h
    exact hint.ne List.mem_cons_self (by decide) (Option.some.inj h)
  have hunsigned : (if (signed negative (plain int frac)).head? = some '-'
      then (signed negative (plain int frac)).tail else signed negative (plain int frac))
        = plain int frac := by
    cases negative with
    | true => rfl
    | false => exact if_neg hhead
  unfold signedRe
  dsimp only
  rw [hunsigned]
  unfold plain
  by_cases hempty : frac = []
  · rw [if_pos hempty, List.append_nil, List.takeWhile_eq_self_iff.mpr hint,
      List.dropWhile_eq_nil_iff.mpr hint]
    simpa using hne
  · rw [if_neg hempty, List.takeWhile_append_of_pos hint, List.dropWhile_append_of_pos hint,
      List.takeWhile_cons_of_neg (by decide), List.dropWhile_cons_of_neg (by decide),
      List.append_nil]
    have hall : frac.all (Numerals.isDigit 10) = true := List.all_eq_true.mpr hfrac
    simp [hne, hempty, hall]

/-- An amount is printed as digits before and after a point, with a sign
perhaps. -/
theorem fixed_eq (n : ℤ) (digits : ℕ) : ∃ negative int frac,
    fixed n digits = signed negative (plain int frac) ∧ Digits int ∧ int ≠ [] ∧ Digits frac :=
  ⟨_, _, _, rfl, digits_toDigits _, Nat.toDigits_ne_nil, digits_fixed _ _⟩

/-- **A stored amount is read as it is shown.** Both its sign and the
zeros at its end are read. It has two places, so nothing of it is left out
when it is shown. -/
theorem decimal?_amountText {x : ℚ} (hx : HasPlaces 2 x) : decimal? (amountText x) = some x := by
  obtain ⟨negative, int, frac, heq, hint, hne, hfrac⟩ := fixed_eq (x * 10 ^ 2).num 2
  unfold decimal? amountText
  rw [String.toList_ofList, if_pos (by rw [heq]; exact signedRe_signed negative hint hne hfrac),
    decimalValue_fixed, hx.num_eq]

/-- There is nothing to trim of an amount. -/
theorem trimmed_amountText (x : ℚ) : jsTrim (amountText x).toList = (amountText x).toList := by
  obtain ⟨negative, int, frac, heq, hint, -, hfrac⟩ := fixed_eq (x * 10 ^ 2).num 2
  unfold amountText
  rw [String.toList_ofList, heq]
  exact jsTrim_eq_self (isJsSpace_signed negative hint hfrac)

/-! ## Numbers

A quantity or a rate is a float on its way. Its decimal digits are few
enough to be recovered, so that the stored value is stored again. -/

namespace JsNumber

/-- A number of units of a decimal place, by its shortest digits. -/
def ofScaled (n : ℤ) (places : ℕ) : JsNumber :=
  if h : n = 0 then .zero
  else .finite (n < 0) (n.natAbs.divMaxPow 10) (padicValNat 10 n.natAbs - places)
    (Nat.not_dvd_divMaxPow (by decide) (Int.natAbs_ne_zero.mpr h))

theorem isFinite_ofScaled (n : ℤ) (places : ℕ) : (ofScaled n places).isFinite = true := by
  unfold ofScaled
  split <;> rfl

theorem value_ofScaled (n : ℤ) (places : ℕ) : (ofScaled n places).value = n / 10 ^ places := by
  unfold ofScaled
  split
  · next hzero =>
    rw [hzero, Int.cast_zero, zero_div]
    rfl
  · have hsplit : ((n.natAbs.divMaxPow 10 : ℕ) : ℚ) * 10 ^ padicValNat 10 n.natAbs = |(n : ℚ)| := by
      rw [← Int.cast_abs, ← Nat.cast_natAbs]
      exact_mod_cast Nat.divMaxPow_mul_pow_padicValNat 10 n.natAbs
    have hscaled : ((n.natAbs.divMaxPow 10 : ℕ) : ℚ)
        * 10 ^ ((padicValNat 10 n.natAbs : ℤ) - places) = |(n : ℚ)| / 10 ^ places := by
      rw [zpow_sub₀ (by norm_num), zpow_natCast, zpow_natCast, ← mul_div_assoc, hsplit]
    show (if decide (n < 0) = true then (-1 : ℚ) else 1) * _ = _
    rw [hscaled]
    by_cases hneg : n < 0
    · rw [if_pos (decide_eq_true hneg), abs_of_neg (by exact_mod_cast hneg)]
      ring
    · rw [if_neg (by simpa using hneg), abs_of_nonneg (by exact_mod_cast not_lt.mp hneg), one_mul]

/-- The number that is shown for a stored one with some decimals. -/
def ofFixed (places : ℕ) (x : ℚ) : JsNumber := ofScaled (x * 10 ^ places).num places

theorem isFinite_ofFixed (places : ℕ) (x : ℚ) : (ofFixed places x).isFinite = true :=
  isFinite_ofScaled _ places

/-- The number that is shown is the stored one. -/
theorem value_ofFixed {places : ℕ} {x : ℚ} (hx : HasPlaces places x) :
    (ofFixed places x).value = x := by
  unfold ofFixed
  rw [value_ofScaled, hx.num_eq]

end JsNumber

namespace JsNumber

/-- The significant digits of a number. -/
def digits : JsNumber → ℕ
  | .finite _ digits _ _ => digits
  | _ => 0

/-- A number with at most fifteen digits, which a float tells apart, whose
text has no exponent. Every quantity and rate that a column can hold is
one. For these the text that is shown and the number that is sent say the
same. -/
structure IsPlain (q : JsNumber) : Prop where
  isFinite : q.isFinite = true
  onGrid : ∃ n : ℤ, q.value = n * floatUnit
  noExponent : 'e' ∉ q.text
  fewDigits : q.digits < 10 ^ 15

/-- Digits with a point among them or near them. In this range of
exponents JavaScript prints a number without one. -/
theorem notMem_positional {ds : List Char} (hds : Digits ds) {k : ℤ} (hlow : -6 < k)
    (hhigh : k ≤ 21) : 'e' ∉ positional ds k := by
  have hdigits : ∀ {l : List Char}, Digits l → 'e' ∉ l := fun hl he =>
    absurd (hl 'e' he) (by decide)
  have hzeros : ∀ n : ℕ, 'e' ∉ List.replicate n '0' := fun n =>
    hdigits (digits_replicate_zero n)
  unfold positional
  split
  · rw [List.mem_append, not_or]
    exact ⟨hdigits hds, hzeros _⟩
  · next hnot =>
    split
    · have htake : Digits (ds.take k.toNat) := fun c hc => hds c (List.mem_of_mem_take hc)
      have hdrop : Digits (ds.drop k.toNat) := fun c hc => hds c (List.mem_of_mem_drop hc)
      rw [List.mem_append, List.mem_cons, not_or, not_or]
      exact ⟨hdigits htake, by decide, hdigits hdrop⟩
    · next hnot' =>
      rw [if_pos (by omega)]
      simp only [List.cons_append, List.mem_cons, List.mem_append, not_or]
      exact ⟨by decide, by decide, hzeros _, hdigits hds⟩

/-- A number is plain if its digits and the zeros after them are few. All
numbers that a column holds are far within these bounds. -/
theorem isPlain_finite (negative : Bool) {d v places : ℕ} (shortest : ¬ 10 ∣ d)
    (hgrid : ∃ n : ℤ, (finite negative d (v - places) shortest).value = n * floatUnit)
    (hsize : d * 10 ^ v < 10 ^ 15) (hplaces : places ≤ 6) :
    (finite negative d (v - places) shortest).IsPlain := by
  have hpos : 0 < d := Nat.pos_of_ne_zero fun hzero => shortest (hzero ▸ dvd_zero 10)
  have hv : v < 15 :=
    (Nat.pow_lt_pow_iff_right (by norm_num)).mp ((Nat.le_mul_of_pos_left _ hpos).trans_lt hsize)
  have hd : d < 10 ^ (15 - v) := by
    refine Nat.lt_of_mul_lt_mul_right (a := 10 ^ v) ?_
    rw [← pow_add, Nat.sub_add_cancel hv.le]
    exact hsize
  have hlen : (Nat.toDigits 10 d).length ≤ 15 - v :=
    (Nat.length_toDigits_le_iff (by norm_num) (by omega)).mpr hd
  have hone : 0 < (Nat.toDigits 10 d).length := Nat.length_toDigits_pos
  have hpositional : 'e' ∉ positional (Nat.toDigits 10 d)
      ((v : ℤ) - places + (Nat.toDigits 10 d).length) :=
    notMem_positional (digits_toDigits d) (by omega) (by omega)
  refine ⟨rfl, hgrid, ?_, hd.trans_le (Nat.pow_le_pow_right (by norm_num) (Nat.sub_le 15 v))⟩
  show 'e' ∉ signed negative _
  unfold signed
  split
  · exact List.not_mem_cons_of_ne_of_not_mem (by decide) hpositional
  · exact hpositional

/-- A number of units of a decimal place is plain. Its zeros at the end
are taken off first, which gives the shortest digits. -/
theorem isPlain_ofScaled {n : ℤ} {places : ℕ} (hsize : n.natAbs < 10 ^ 15) (hplaces : places ≤ 6) :
    (ofScaled n places).IsPlain := by
  have hgrid : ∃ k : ℤ, (ofScaled n places).value = k * floatUnit := by
    rw [value_ofScaled, ← mul_one_div]
    exact HasPlaces.onGrid ⟨n, rfl⟩ (by omega)
  unfold ofScaled at hgrid ⊢
  split
  · exact ⟨rfl, ⟨0, by simp [value]⟩, by decide, by decide⟩
  · next hzero =>
    rw [dif_neg hzero] at hgrid
    refine isPlain_finite _ _ hgrid ?_ hplaces
    rw [Nat.divMaxPow_mul_pow_padicValNat]
    exact hsize

/-- A stored number is plain. The scale of its column says where its units
are, and the precision how many of them there can be. -/
theorem isPlain_ofFixed {places : ℕ} {x : ℚ} (hx : HasPlaces places x)
    (hsize : |x| * 10 ^ places < 10 ^ 15) (hplaces : places ≤ 6) : (ofFixed places x).IsPlain := by
  refine isPlain_ofScaled ?_ hplaces
  obtain ⟨n, rfl⟩ := hx
  have hint : (n : ℚ) * (1 / 10 ^ places) * 10 ^ places = (n : ℤ) := by
    field_simp
  have habs : |(n : ℚ) * (1 / 10 ^ places)| * 10 ^ places = |(n : ℚ)| := by
    have hpow : |(10 : ℚ) ^ places| = 10 ^ places := abs_of_pos (by positivity)
    conv_lhs => rw [← hpow, ← abs_mul, hpow, hint]
  rw [habs] at hsize
  rw [hint, Rat.num_intCast]
  have hcast : ((n.natAbs : ℕ) : ℚ) < 10 ^ 15 := by
    rw [Nat.cast_natAbs, Int.cast_abs]
    exact hsize
  exact_mod_cast hcast

end JsNumber

/-- The language reads numbers: floats, and a plain one from its own text.
What it makes of other texts is left open. -/
class JsNumbers where
  /-- `Number(s)`. -/
  number : String → JsNumber
  number_onGrid : ∀ s, ∃ n : ℤ, (number s).value = n * floatUnit
  number_text : ∀ q : JsNumber, q.IsPlain → number (String.ofList q.text) = q

namespace JsNumber

/-- The text of a number without an exponent. It is in the shape in which
amounts are read, and means the number. -/
theorem text_eq_signed {q : JsNumber} (hfinite : q.isFinite = true) (hexponent : 'e' ∉ q.text) :
    ∃ negative int frac, q.text = signed negative (plain int frac) ∧ Digits int ∧ int ≠ []
      ∧ Digits frac ∧ (if negative then -1 else 1) * number int frac = q.value := by
  cases q with
  | nan => exact absurd hfinite (by simp [isFinite])
  | infinity negative => exact absurd hfinite (by simp [isFinite])
  | zero =>
    obtain ⟨int, frac, htext, hint, hne, hfrac, hvalue⟩ := text_spec rfl rfl hexponent
    exact ⟨false, int, frac, htext, hint, hne, hfrac, (one_mul _).trans hvalue⟩
  | finite negative d exponent shortest =>
    have hpositional : 'e' ∉ positional (Nat.toDigits 10 d)
        (exponent + (Nat.toDigits 10 d).length) := by
      cases negative with
      | false => exact hexponent
      | true => exact fun h => hexponent (List.mem_cons_of_mem _ h)
    obtain ⟨int, frac, htext, hint, hne, hfrac, hvalue⟩ := positional_spec hpositional
    exact ⟨negative, int, frac, congrArg (signed negative) htext, hint, hne, hfrac,
      congrArg (_ * ·) hvalue⟩

/-- Digits without a zero at the end leave no choice of the exponent. Used
both ways round, it shows that the shortest digits of a number are its
only ones. -/
theorem exponent_le {d d' : ℕ} {e e' : ℤ} (hd : ¬ 10 ∣ d) (h : (d : ℚ) * 10 ^ e = d' * 10 ^ e') :
    e' ≤ e := by
  by_contra hlt
  obtain ⟨k, hk⟩ := Int.eq_ofNat_of_zero_le (a := e' - e - 1) (by omega)
  obtain rfl : e' = ((k + 1 : ℕ) : ℤ) + e := by
    rw [Nat.cast_succ]
    omega
  rw [zpow_add₀ (by norm_num), zpow_natCast, ← mul_assoc] at h
  have hsame : (d : ℚ) = d' * 10 ^ (k + 1) :=
    mul_right_cancel₀ (zpow_ne_zero e (by norm_num)) h
  have hnat : d = d' * 10 ^ (k + 1) := by exact_mod_cast hsame
  exact hd (hnat ▸ (dvd_pow_self 10 (Nat.succ_ne_zero k)).mul_left d')

/-- The digits of a number are determined by what it is, since they do not
end in a zero. -/
theorem eq_of_value_eq {q q' : JsNumber} (hq : q.isFinite = true) (hq' : q'.isFinite = true)
    (h : q.value = q'.value) : q = q' := by
  have hpos : ∀ {d : ℕ} {e : ℤ}, ¬ 10 ∣ d → (0 : ℚ) < d * 10 ^ e := fun {d e} hd => by
    have hd' : 0 < d := Nat.pos_of_ne_zero fun hzero => hd (hzero ▸ dvd_zero 10)
    exact mul_pos (by exact_mod_cast hd') (zpow_pos (by norm_num) e)
  have hvalue : ∀ {negative : Bool} {d : ℕ} {e : ℤ} (hd : ¬ 10 ∣ d),
      (finite negative d e hd).value = if negative then -(d * 10 ^ e : ℚ) else d * 10 ^ e := by
    intro negative d e hd
    cases negative <;> simp [value]
  cases q with
  | nan => exact absurd hq (by simp [isFinite])
  | infinity negative => exact absurd hq (by simp [isFinite])
  | zero =>
    cases q' with
    | nan => exact absurd hq' (by simp [isFinite])
    | infinity negative => exact absurd hq' (by simp [isFinite])
    | zero => rfl
    | finite negative d e hd =>
      rw [hvalue hd] at h
      have hd' := hpos (e := e) hd
      have hzero : (0 : ℚ) = if negative then -(d * 10 ^ e : ℚ) else d * 10 ^ e := h
      split at hzero <;> linarith
  | finite negative d e hd =>
    cases q' with
    | nan => exact absurd hq' (by simp [isFinite])
    | infinity negative => exact absurd hq' (by simp [isFinite])
    | zero =>
      rw [hvalue hd] at h
      have hd' := hpos (e := e) hd
      have hzero : (if negative then -(d * 10 ^ e : ℚ) else d * 10 ^ e) = 0 := h
      split at hzero <;> linarith
    | finite negative' d' e' hd' =>
      rw [hvalue hd, hvalue hd'] at h
      have hleft := hpos (e := e) hd
      have hright := hpos (e := e') hd'
      have hsame : negative = negative' ∧ (d : ℚ) * 10 ^ e = d' * 10 ^ e' := by
        cases negative <;> cases negative' <;> simp at h ⊢ <;> linarith
      obtain ⟨rfl, hsize⟩ := hsame
      -- neither exponent is larger: the digits do not end in a zero
      obtain rfl : e = e' := le_antisymm (exponent_le hd' hsize.symm) (exponent_le hd hsize)
      have hcast : (d : ℚ) = d' := mul_right_cancel₀ (zpow_ne_zero e (by norm_num)) hsize
      obtain rfl : d = d' := by exact_mod_cast hcast
      rfl

end JsNumber

theorem HasPlaces.mono {places places' : ℕ} {x : ℚ} (hx : HasPlaces places x)
    (h : places ≤ places') : HasPlaces places' x := by
  obtain ⟨n, rfl⟩ := hx
  obtain ⟨k, rfl⟩ := Nat.exists_eq_add_of_le h
  refine ⟨n * 10 ^ k, ?_⟩
  rw [pow_add]
  push_cast
  field_simp

/-- Digits with a point among them have as many places as come after it.
So what a text shows of an amount is all there is of it. -/
theorem hasPlaces_number (negative : Bool) (int frac : List Char) :
    HasPlaces frac.length ((if negative then -1 else 1) * number int frac) := by
  refine ⟨(if negative then -1 else 1)
    * (Numerals.value 10 int * 10 ^ frac.length + Numerals.value 10 frac : ℕ), ?_⟩
  unfold number
  cases negative with
  | false =>
    push_cast
    field_simp
  | true =>
    push_cast
    field_simp

theorem sublist_signed (negative : Bool) (int frac : List Char) :
    frac.Sublist (signed negative (plain int frac)) := by
  have hplain : frac.Sublist (plain int frac) := by
    unfold plain
    split
    · next hnil =>
      rw [hnil]
      exact List.nil_sublist _
    · exact (List.sublist_cons_self _ _).trans (List.sublist_append_right _ _)
  cases negative with
  | false => exact hplain
  | true => exact hplain.cons _

/-- The reading of numbers on the texts of plain ones; no other text is a
number. -/
@[reducible] def plainNumbers : JsNumbers where
  number s :=
    let x := decimalValue s.toList
    if signedRe s.toList ∧ (x / floatUnit).den = 1 then JsNumber.ofFixed s.toList.length x
    else .nan
  number_onGrid s := by
    dsimp only
    split
    · next h =>
      obtain ⟨negative, int, frac, htext, hint, hne, hfrac⟩ := signed_of_signedRe h.1
      have hplaces : HasPlaces s.toList.length (decimalValue s.toList) := by
        rw [htext, decimalValue_signed negative hint hne]
        exact (hasPlaces_number negative int frac).mono (sublist_signed negative int frac).length_le
      refine ⟨(decimalValue s.toList / floatUnit).num, ?_⟩
      rw [JsNumber.value_ofFixed hplaces, Rat.coe_int_num_of_den_eq_one h.2,
        div_mul_cancel₀ _ floatUnit_pos.ne']
    · exact ⟨0, by simp [JsNumber.value]⟩
  number_text q hq := by
    obtain ⟨negative, int, frac, htext, hint, hne, hfrac, hvalue⟩ :=
      JsNumber.text_eq_signed hq.isFinite hq.noExponent
    have hdecimal : decimalValue q.text = q.value := by
      rw [htext, decimalValue_signed negative hint hne, hvalue]
    have hplaces : HasPlaces q.text.length q.value := by
      have hlen : frac.length ≤ q.text.length := by
        rw [htext]
        exact (sublist_signed negative int frac).length_le
      rw [← hvalue]
      exact (hasPlaces_number negative int frac).mono hlen
    have hgrid : (q.value / floatUnit).den = 1 := by
      obtain ⟨n, hn⟩ := hq.onGrid
      rw [hn, mul_div_cancel_right₀ _ floatUnit_pos.ne', Rat.den_intCast]
    dsimp only
    rw [String.toList_ofList, hdecimal,
      if_pos ⟨htext ▸ signedRe_signed negative hint hne hfrac, hgrid⟩]
    exact JsNumber.eq_of_value_eq (JsNumber.isFinite_ofFixed _ _) hq.isFinite
      (JsNumber.value_ofFixed hplaces)

/-- A finite number, sent as JSON, as the server reads it. -/
def JsNumber.toFloat? (q : JsNumber) : Option PyFloat :=
  if q.isFinite then some (floatOfColumn q.value) else none

/-- An integer, likewise. -/
def JsNumber.toInt? (q : JsNumber) : Option ℤ :=
  if q.isFinite ∧ q.value.den = 1 then some q.value.num else none

/-! ## Columns -/

/-- What a column of a few digits holds is plain. -/
theorem isPlain_of_floatColumn {p s : ℕ} {x y : ℚ} (h : floatColumn p s x = .ok y) (hs : s ≤ p)
    (hp : p ≤ 15) (hplaces : s ≤ 6) : (JsNumber.ofFixed s y).IsPlain := by
  obtain ⟨r, -, hround, hlt⟩ := floatColumn_spec h
  have hx : HasPlaces s y := hround ▸ Rounding.exists_halfAway_eq (1 / 10 ^ s) r
  refine JsNumber.isPlain_ofFixed hx ?_ hplaces
  calc |y| * 10 ^ s < 10 ^ (p - s) * 10 ^ s := by gcongr
    _ = 10 ^ p := by rw [← pow_add, Nat.sub_add_cancel hs]
    _ ≤ 10 ^ 15 := pow_le_pow_right₀ (by norm_num) hp

theorem hasPlaces_of_floatColumn {p s : ℕ} {x y : ℚ} (h : floatColumn p s x = .ok y) :
    HasPlaces s y := by
  obtain ⟨r, -, rfl, -⟩ := floatColumn_spec h
  exact Rounding.exists_halfAway_eq (1 / 10 ^ s) r

/-- **A column returns what it has returned before**, if floats are finer
than its decimals all over its range: `2 ^ e` is their distance at its
end. -/
theorem floatColumn_of_returned {p s : ℕ} {x y : ℚ} (h : floatColumn p s x = .ok y) {e : ℤ}
    (hmin : -1074 ≤ e) (hmax : e ≤ 970) (hrange : (10 : ℚ) ^ (p - s) ≤ 2 ^ (e + 53))
    (hfine : (2 : ℚ) ^ e < 1 / 10 ^ s) : floatColumn p s y = .ok y := by
  obtain ⟨n, hn⟩ := hasPlaces_of_floatColumn h
  obtain ⟨-, -, -, hlt⟩ := floatColumn_spec h
  have hunit : (0 : ℚ) < 1 / 10 ^ s := by positivity
  have hsize : |y| < ((2 : ℕ) : ℚ) ^ (e + (53 : ℕ)) := by
    exact_mod_cast hlt.trans_le hrange
  have hbound : |Rounding.floatRound 2 53 (-1074) y| ≤ ((2 : ℕ) : ℚ) ^ (e + 53) :=
    Rounding.abs_floatRound_le one_lt_two (by norm_num) (by omega) hsize.le
  have hfloat : float y = some (Rounding.floatRound 2 53 (-1074) y) := by
    have htop : (2 : ℚ) ^ (e + 53) < 2 ^ 1024 := by
      rw [← zpow_natCast]
      exact zpow_lt_zpow_right₀ one_lt_two (by norm_num; omega)
    exact if_neg (not_le.mpr ((by exact_mod_cast hbound : _ ≤ (2 : ℚ) ^ (e + 53)).trans_lt htop))
  -- the float is nearer than half a unit of the column
  have hround : Rounding.halfAway (1 / 10 ^ s) (Rounding.floatRound 2 53 (-1074) y) = y := by
    have hlost := Rounding.abs_sub_floatRound_le (b := 2) (p := 53) one_lt_two hmin hsize
    rw [hn] at hlost ⊢
    refine Rounding.halfAway_of_abs_sub_lt hunit ?_
    rw [abs_sub_comm]
    refine hlost.trans_lt ?_
    have hfine' : ((2 : ℕ) : ℚ) ^ e < 1 / 10 ^ s := by exact_mod_cast hfine
    linarith
  unfold floatColumn
  rw [hfloat]
  show numericColumn p s _ = _
  unfold numericColumn
  dsimp only
  rw [hround, if_pos hlt]

theorem amountColumn_of_returned {x y : ℚ} (h : amountColumn x = .ok y) :
    amountColumn y = .ok y :=
  floatColumn_of_returned h (e := -13) (by norm_num) (by norm_num) (by norm_num) (by norm_num)

/-- A number that a float prints as is that float. -/
theorem floatOfColumn_of_onGrid {x : ℚ} (hx : ∃ n : ℤ, x = n * floatUnit) :
    ∃ grid, floatOfColumn x = .finite x grid := by
  have hfloor : ((⌊x / floatUnit⌋ : ℤ) : ℚ) * floatUnit = x := by
    obtain ⟨n, rfl⟩ := hx
    rw [mul_div_cancel_right₀ _ floatUnit_pos.ne', Int.floor_intCast]
  refine ⟨hx, ?_⟩
  unfold floatOfColumn
  congr 1

/-- A number of a column is a float as it stands. -/
theorem floatOfColumn_eq {x : ℚ} (hx : HasPlaces 4 x) :
    ∃ grid, floatOfColumn x = .finite x grid := by
  exact floatOfColumn_of_onGrid (hx.onGrid (by norm_num))

theorem quantityColumn_of_returned {q : PyFloat} {y : ℚ} (h : quantityColumn q = .ok y) :
    quantityColumn (floatOfColumn y) = .ok y := by
  cases q with
  | finite x grid =>
    obtain ⟨grid', heq⟩ := floatOfColumn_eq (hasPlaces_of_floatColumn h)
    rw [heq]
    exact floatColumn_of_returned h (e := -14) (by norm_num) (by norm_num) (by norm_num)
      (by norm_num)
  | inf negative => exact absurd h (by simp [quantityColumn])
  | nan => exact absurd h (by simp [quantityColumn])

theorem rateColumn_of_returned {q : PyFloat} {y : ℚ} (h : rateColumn q = .ok (.finite y)) :
    rateColumn (floatOfColumn y) = .ok (.finite y) := by
  cases q with
  | finite x grid =>
    obtain ⟨z, hz, heq⟩ := map_eq_ok h
    obtain rfl := PyDecimal.finite.inj heq
    obtain ⟨grid', hfloat⟩ := floatOfColumn_eq (hasPlaces_of_floatColumn hz)
    have hagain := floatColumn_of_returned hz (e := -14) (by norm_num) (by norm_num)
      (by norm_num) (by norm_num)
    rw [hfloat]
    show (floatColumn 6 4 z).map _ = _
    rw [hagain]
    rfl
  | inf negative => exact absurd h (by simp [rateColumn])
  | nan => exact absurd h (by simp [rateColumn])

end VisionBill
