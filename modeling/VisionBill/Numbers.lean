import VisionBill.Text
import VisionBill.Files
import VisionBill.Lib.Numerals

/-!
# Integers and UUIDs as texts

`int` and `UUID` read more than `str` prints: spaces around a number, a
sign, single underscores between digits, the digits of other scripts, and
for a UUID any placement of hyphens, braces and a URN prefix. Both read
what `str` prints as the number it was printed from, and neither direction
works for a decimal number of more than 4300 digits.

## What this is for

A session token is a text with a UUID, a point in time and a signature.
Whoever makes a token prints these, and whoever verifies one reads the two
values and prints them again, because that is what is signed. So a token
in another spelling is as good as the original, and the question is
whether values survive being printed and read (`int?_intText`,
`uuid?_uuidText`), and what is read printed and read once more
(`intText_of_int?`). This is why the readers are modelled with all their
leniency.

The limit on the number of digits is part of it, because it makes `int`
raise where the text is a perfectly good number, and `str` raise where the
number is. A number that was read can always be printed, since the limit
is the same.

The digits of other scripts are in the interpreter's Unicode data, which
is a class here.
-/

namespace VisionBill

open Numerals

/-- The decimal digits of the interpreter's Unicode data: what each
character outside ASCII stands for. Nothing is assumed of it but that
these are digits. -/
class DecimalDigits where
  decimal : Char → Option (Fin 10)

/-- `c.isascii()`. -/
def isAscii (c : Char) : Bool := c.toNat < 128

/-- `Py_ISSPACE`. -/
def isAsciiSpace (c : Char) : Bool := (0x09 ≤ c.toNat && c.toNat ≤ 0x0D) || c.toNat == 0x20

/-- `sys.get_int_max_str_digits()`. -/
def intMaxStrDigits : ℕ := 4300

section Int

variable [DecimalDigits]

/-- Spaces and digits of all scripts as those of ASCII. What is neither
becomes a character that stands in no number. -/
def decimalAndSpaceToAscii (l : List Char) : List Char :=
  l.map fun c =>
    if isAscii c then c
    else if isSpace c then ' '
    else ((DecimalDigits.decimal c).map fun d => Nat.digitChar d).getD '?'

omit [DecimalDigits] in
/-- A sign, and what follows it. -/
def intSign : List Char → Bool × List Char
  | '+' :: l => (false, l)
  | '-' :: l => (true, l)
  | l => (false, l)

omit [DecimalDigits] in
/-- What follows `0x`, after which one underscore is allowed. -/
def dropHexPrefix : List Char → List Char
  | '0' :: x :: l => if x = 'x' ∨ x = 'X' then (if l.head? = some '_' then l.tail else l)
    else '0' :: x :: l
  | l => l

omit [DecimalDigits] in
/-- Digits with single underscores between them, and spaces up to the end.
An underscore neither leads nor ends, and the limit counts digits only. -/
def numeral? (base : ℕ) (l : List Char) : Option ℕ := do
  let digits ← ungroup '_' (l.takeWhile fun c => isDigit base c || c = '_')
  -- a base that is a power of two has no limit
  if base = 10 ∧ intMaxStrDigits < digits.length then none
  else if (l.dropWhile fun c => isDigit base c || c = '_').all isAsciiSpace then
    some (value base digits)
  else none

/-- `int(s, base)`, for base 10 or 16; `none` is a `ValueError`. Base 16
is that of `UUID`, whose constructor calls `int` on the digits that are
left. -/
def int? (base : ℕ) (s : String) : Option ℤ :=
  let start := intSign ((decimalAndSpaceToAscii s.toList).dropWhile isAsciiSpace)
  (numeral? base (if base = 16 then dropHexPrefix start.2 else start.2)).map fun n : ℕ =>
    if start.1 then -(n : ℤ) else (n : ℤ)

omit [DecimalDigits] in
/-- `str(n)`; `none` is a `ValueError`, for a number of more digits than
the interpreter is willing to print. -/
def intText (n : ℤ) : Option String :=
  if intMaxStrDigits < (Nat.toDigits 10 n.natAbs).length then none else some (toString n)

/-! ## Reading digits

Python reads digits of any script, and underscores between them. What is
printed has none of that, and is read back. -/

variable {base : ℕ}

omit [DecimalDigits] in
theorem isDigit_mono {base base' : ℕ} (h : base ≤ base') {c : Char} (hc : isDigit base c = true) :
    isDigit base' c = true := by
  unfold isDigit at hc ⊢
  obtain ⟨d, hd, hlt⟩ := (Option.any_eq_true _ _).mp hc
  rw [hd]
  exact decide_eq_true ((of_decide_eq_true hlt).trans_le h)

omit [DecimalDigits] in
/-- A digit is an ASCII character, and none of those that surround a
number. All that the readers look for besides digits is excluded at
once. -/
theorem isDigit_sixteen {c : Char} (h : isDigit 16 c = true) :
    isAscii c = true ∧ isAsciiSpace c = false ∧ c ≠ '+' ∧ c ≠ '-' ∧ c ≠ '_' ∧ c ≠ '.'
      ∧ c ≠ 'x' ∧ c ≠ 'X' ∧ c ≠ ':' ∧ c ≠ '{' ∧ c ≠ '}' := by
  have hne : ∀ d, isDigit 16 d = false → c ≠ d := by
    rintro d hd rfl
    rw [hd] at h
    exact Bool.noConfusion h
  have hrange : (0x30 ≤ c.toNat ∧ c.toNat ≤ 0x39) ∨ (0x61 ≤ c.toNat ∧ c.toNat ≤ 0x7A)
      ∨ (0x41 ≤ c.toNat ∧ c.toNat ≤ 0x5A) := by
    unfold isDigit digitValue at h
    by_contra hnot
    push Not at hnot
    rw [if_neg (by omega), if_neg (by omega), if_neg (by omega)] at h
    exact Bool.noConfusion h
  refine ⟨?_, ?_, hne _ (by decide), hne _ (by decide), hne _ (by decide), hne _ (by decide),
    hne _ (by decide), hne _ (by decide), hne _ (by decide), hne _ (by decide),
    hne _ (by decide)⟩
  · unfold isAscii
    exact decide_eq_true (by omega)
  · unfold isAsciiSpace
    rw [Bool.or_eq_false_iff, Bool.and_eq_false_iff, decide_eq_false_iff_not,
      decide_eq_false_iff_not, beq_eq_false_iff_ne]
    omega

theorem decimalAndSpaceToAscii_eq_self {l : List Char} (h : ∀ c ∈ l, isAscii c = true) :
    decimalAndSpaceToAscii l = l := by
  unfold decimalAndSpaceToAscii
  rw [List.map_congr_left fun c hc => if_pos (h c hc)]
  exact List.map_id l

omit [DecimalDigits] in
theorem dropHexPrefix_eq_self {l : List Char} (h : ∀ c ∈ l, c ≠ 'x' ∧ c ≠ 'X') :
    dropHexPrefix l = l := by
  unfold dropHexPrefix
  split
  · next x l =>
    have hx := h x (by simp)
    rw [if_neg (by simp [hx.1, hx.2])]
  · rfl

omit [DecimalDigits] in
theorem numeral?_digits (hbase : base ≤ 16) {l : List Char} (hne : l ≠ [])
    (hl : ∀ c ∈ l, isDigit base c = true)
    (hlimit : ¬ (base = 10 ∧ intMaxStrDigits < l.length)) :
    numeral? base l = some (value base l) := by
  have hbody : ∀ c ∈ l, (isDigit base c || decide (c = '_')) = true := fun c hc => by
    rw [hl c hc, Bool.true_or]
  have hunderscore : '_' ∉ l := fun h =>
    (isDigit_sixteen (isDigit_mono hbase (hl _ h))).2.2.2.2.1 rfl
  unfold numeral?
  rw [List.takeWhile_eq_self_iff.mpr hbody, List.dropWhile_eq_nil_iff.mpr hbody,
    ungroup_of_not_mem hne hunderscore, Option.bind_eq_bind, Option.bind_some, if_neg hlimit]
  rfl

omit [DecimalDigits] in
/-- What a numeral of base 10 means has no more digits than it may
have. -/
theorem numeral?_lt {l : List Char} {n : ℕ} (h : numeral? 10 l = some n) :
    n < 10 ^ intMaxStrDigits := by
  unfold numeral? at h
  rw [Option.bind_eq_bind] at h
  obtain ⟨digits, hdigits, h⟩ := Option.bind_eq_some_iff.mp h
  split at h
  · exact absurd h (by simp)
  · next hlimit =>
    split at h
    · obtain rfl := Option.some.inj h
      have hall : ∀ c ∈ digits, isDigit 10 c = true := by
        intro c hc
        obtain ⟨hmem, hne⟩ := mem_of_ungroup hdigits hc
        have hbody := List.mem_takeWhile_imp hmem
        rwa [decide_eq_false hne, Bool.or_false] at hbody
      refine (value_lt (by decide) hall).trans_le (Nat.pow_le_pow_right (by decide) ?_)
      exact Nat.not_lt.mp fun h => hlimit ⟨rfl, h⟩
    · exact absurd h (by simp)

/-- The number that digits stand for, alone or after a minus sign. Python
refuses decimal texts beyond a certain length, and hexadecimal ones
never. -/
theorem int?_digits (hbase : base ≤ 16) {l : List Char} (hne : l ≠ [])
    (hl : ∀ c ∈ l, isDigit base c = true)
    (hlimit : ¬ (base = 10 ∧ intMaxStrDigits < l.length)) :
    int? base (String.ofList l) = some (value base l : ℤ)
      ∧ int? base (String.ofList ('-' :: l)) = some (-(value base l : ℤ)) := by
  have hdigit := fun c hc => isDigit_sixteen (isDigit_mono hbase (hl c hc))
  -- none of these characters is a sign, a space, an underscore or part of a prefix
  have hstays : (if base = 16 then dropHexPrefix l else l) = l := by
    split
    · exact dropHexPrefix_eq_self fun c hc =>
        ⟨(hdigit c hc).2.2.2.2.2.2.1, (hdigit c hc).2.2.2.2.2.2.2.1⟩
    · rfl
  have hascii : ∀ c ∈ l, isAscii c = true := fun c hc => (hdigit c hc).1
  constructor
  · have hstart : intSign ((decimalAndSpaceToAscii l).dropWhile isAsciiSpace) = (false, l) := by
      rw [decimalAndSpaceToAscii_eq_self hascii,
        dropWhile_eq_self fun c hc => (hdigit c (List.mem_of_head? hc)).2.1]
      unfold intSign
      split
      · exact absurd rfl (hdigit '+' List.mem_cons_self).2.2.1
      · exact absurd rfl (hdigit '-' List.mem_cons_self).2.2.2.1
      · rfl
    unfold int?
    rw [String.toList_ofList, hstart]
    dsimp only
    rw [hstays, numeral?_digits hbase hne hl hlimit]
    rfl
  · have hstart : intSign ((decimalAndSpaceToAscii ('-' :: l)).dropWhile isAsciiSpace)
        = (true, l) := by
      rw [decimalAndSpaceToAscii_eq_self (List.forall_mem_cons.mpr ⟨by decide, hascii⟩)]
      rfl
    unfold int?
    rw [String.toList_ofList, hstart]
    dsimp only
    rw [hstays, numeral?_digits hbase hne hl hlimit]
    rfl

/-! ## Printed integers -/

omit [DecimalDigits] in
theorem intText_eq_some_iff {n : ℤ} {s : String} :
    intText n = some s ↔ n.natAbs < 10 ^ intMaxStrDigits ∧ s = toString n := by
  rw [← Nat.length_toDigits_le_iff (by decide) (by decide)]
  unfold intText
  split
  · next h => simp [Nat.not_le.mpr h]
  · next h => simp [Nat.not_lt.mp h, eq_comm]

omit [DecimalDigits] in
theorem toString_int (n : ℤ) : toString n
    = String.ofList (if n < 0 then '-' :: Nat.toDigits 10 n.natAbs
      else Nat.toDigits 10 n.natAbs) := by
  cases n with
  | ofNat m => exact Nat.repr_eq_ofList_toDigits
  | negSucc m =>
    rw [if_pos (Int.negSucc_lt_zero m)]
    show "-" ++ Nat.repr (m + 1) = _
    rw [← String.toList_inj, String.toList_append, Nat.toList_repr, String.toList_ofList,
      String.toList_ofList]
    rfl

/-- `int` reads what `str` prints. -/
theorem int?_intText {n : ℤ} {s : String} (h : intText n = some s) : int? 10 s = some n := by
  obtain ⟨hlt, rfl⟩ := intText_eq_some_iff.mp h
  rw [← Nat.length_toDigits_le_iff (by decide) (by decide)] at hlt
  have hread := int?_digits (show 10 ≤ 16 by decide) Nat.toDigits_ne_nil
    (fun c => isDigit_of_mem_toDigits (by decide) (by decide))
    (fun h => absurd h.2 (Nat.not_lt.mpr hlt))
  rw [value_toDigits (by decide) (by decide)] at hread
  rw [toString_int]
  split
  · next hneg => rw [hread.2, Int.ofNat_natAbs_of_nonpos hneg.le, neg_neg]
  · next hneg => rw [hread.1, Int.natAbs_of_nonneg (not_lt.mp hneg)]

/-- `str` prints what `int` has read. -/
theorem intText_of_int? {n : ℤ} {s : String} (h : int? 10 s = some n) :
    intText n = some (toString n) := by
  refine intText_eq_some_iff.mpr ⟨?_, rfl⟩
  obtain ⟨m, hm, rfl⟩ := Option.map_eq_some_iff.mp h
  have hlt := numeral?_lt hm
  split
  · rwa [Int.natAbs_neg]
  · exact hlt

/-! ## UUIDs

A UUID is read with or without hyphens, with braces or a prefix, and is
printed with hyphens. Different texts may therefore name the same one. -/

omit [DecimalDigits] in
/-- `s.replace(pattern, "")`, where `skip` more characters belong to the
last occurrence of the pattern. -/
def removeAll (pattern : List Char) (skip : ℕ) : List Char → List Char
  | [] => []
  | c :: l =>
    if 0 < skip then removeAll pattern (skip - 1) l
    else if pattern.isPrefixOf (c :: l) then removeAll pattern (pattern.length - 1) l
    else c :: removeAll pattern 0 l

/-- `UUID(s)`; `none` is a `ValueError`. What remains once a prefix,
braces and hyphens are taken out must have 32 characters, and these are
read by `int`. -/
def uuid? (s : String) : Option UUID := do
  let hex := removeAll "uuid:".toList 0 (removeAll "urn:".toList 0 s.toList)
  let isBrace := fun c => c = '{' || c = '}'
  let hex := ((hex.dropWhile isBrace).rdropWhile isBrace).filter (· ≠ '-')
  if hex.length ≠ 32 then none
  else
    let n ← int? 16 (String.ofList hex)
    if 0 ≤ n ∧ n < 2 ^ 128 then some n.toNat else none

omit [DecimalDigits] in
/-- The 32 digits of a UUID. -/
def uuidHex (id : UUID) : List Char :=
  List.replicate (32 - (Nat.toDigits 16 id).length) '0' ++ Nat.toDigits 16 id

omit [DecimalDigits] in
theorem removeAll_eq_self {pattern l : List Char} {c : Char} (hc : c ∈ pattern) (hl : c ∉ l) :
    removeAll pattern 0 l = l := by
  induction l with
  | nil => rfl
  | cons d l ih =>
    have hstays : ¬ pattern.isPrefixOf (d :: l) = true := fun h =>
      hl ((List.isPrefixOf_iff_prefix.mp h).subset hc)
    rw [removeAll, if_neg (lt_irrefl 0), if_neg hstays, ih fun h => hl (List.mem_cons_of_mem d h)]

omit [DecimalDigits] in
theorem isDigit_of_mem_uuidHex {id : UUID} {c : Char} (hc : c ∈ uuidHex id) :
    isDigit 16 c = true := by
  rcases List.mem_append.mp hc with hc | hc
  · rw [List.eq_of_mem_replicate hc]
    decide
  · exact isDigit_of_mem_toDigits (by decide) (by decide) hc

omit [DecimalDigits] in
theorem length_uuidHex {id : UUID} (hid : id < 2 ^ 128) : (uuidHex id).length = 32 := by
  have hlen : (Nat.toDigits 16 id).length ≤ 32 :=
    (Nat.length_toDigits_le_iff (by decide) (by decide)).mpr (hid.trans_eq (by norm_num))
  unfold uuidHex
  rw [List.length_append, List.length_replicate]
  omega

omit [DecimalDigits] in
/-- A printed UUID is its digits in five groups. -/
theorem toList_uuidText (id : UUID) : (uuidText id).toList
    = (uuidHex id).take 8 ++ '-' :: ((uuidHex id).drop 8).take 4
      ++ '-' :: ((uuidHex id).drop 12).take 4 ++ '-' :: ((uuidHex id).drop 16).take 4
      ++ '-' :: (uuidHex id).drop 20 := by
  unfold uuidText
  simp only [String.toList_append, String.toList_ofList, List.append_assoc]
  rfl

omit [DecimalDigits] in
theorem mem_uuidText {id : UUID} {c : Char} (hc : c ∈ (uuidText id).toList) :
    isDigit 16 c = true ∨ c = '-' := by
  rw [toList_uuidText] at hc
  simp only [List.mem_append, List.mem_cons] at hc
  rcases hc with (((hc | hc | hc) | hc | hc) | hc | hc) | hc | hc
  · exact .inl (isDigit_of_mem_uuidHex (List.mem_of_mem_take hc))
  · exact .inr hc
  · exact .inl (isDigit_of_mem_uuidHex (List.mem_of_mem_drop (List.mem_of_mem_take hc)))
  · exact .inr hc
  · exact .inl (isDigit_of_mem_uuidHex (List.mem_of_mem_drop (List.mem_of_mem_take hc)))
  · exact .inr hc
  · exact .inl (isDigit_of_mem_uuidHex (List.mem_of_mem_drop (List.mem_of_mem_take hc)))
  · exact .inr hc
  · exact .inl (isDigit_of_mem_uuidHex (List.mem_of_mem_drop hc))

omit [DecimalDigits] in
theorem filter_uuidText (id : UUID) : (uuidText id).toList.filter (· ≠ '-') = uuidHex id := by
  have hkeep : ∀ l : List Char, (∀ c ∈ l, c ∈ uuidHex id) → l.filter (· ≠ '-') = l := by
    intro l hl
    refine List.filter_eq_self.mpr fun c hc => decide_eq_true ?_
    exact (isDigit_sixteen (isDigit_of_mem_uuidHex (hl c hc))).2.2.2.1
  have hhyphen : ∀ l : List Char, ('-' :: l).filter (· ≠ '-') = l.filter (· ≠ '-') := fun l =>
    List.filter_cons_of_neg (by simp)
  have hdrop : ∀ n, ((uuidHex id).drop n).take 4 ++ (uuidHex id).drop (n + 4)
      = (uuidHex id).drop n := fun n => by
    rw [← List.drop_drop, List.take_append_drop]
  rw [toList_uuidText]
  simp only [List.filter_append, hhyphen]
  rw [hkeep _ fun c => List.mem_of_mem_take,
    hkeep _ fun c hc => List.mem_of_mem_drop (List.mem_of_mem_take hc),
    hkeep _ fun c hc => List.mem_of_mem_drop (List.mem_of_mem_take hc),
    hkeep _ fun c hc => List.mem_of_mem_drop (List.mem_of_mem_take hc),
    hkeep _ fun c => List.mem_of_mem_drop]
  rw [List.append_assoc, hdrop 16, List.append_assoc, hdrop 12, List.append_assoc, hdrop 8,
    List.take_append_drop]

/-- `UUID` reads what `str` prints. The hyphens go, and the digits that
are left are those that were printed. -/
theorem uuid?_uuidText {id : UUID} (hid : id < 2 ^ 128) : uuid? (uuidText id) = some id := by
  have hmem : ∀ c ∈ (uuidText id).toList,
      c ≠ ':' ∧ (decide (c = '{') || decide (c = '}')) = false := by
    intro c hc
    rcases mem_uuidText hc with h | rfl
    · obtain ⟨-, -, -, -, -, -, -, -, hcolon, hopen, hclose⟩ := isDigit_sixteen h
      exact ⟨hcolon, by simp [hopen, hclose]⟩
    · decide
  have hcolon : ':' ∉ (uuidText id).toList := fun h => (hmem _ h).1 rfl
  have hstrip : ((uuidText id).toList.dropWhile fun c => c = '{' || c = '}').rdropWhile
      (fun c => c = '{' || c = '}') = (uuidText id).toList := by
    rw [dropWhile_eq_self fun c hc => (hmem c (List.mem_of_head? hc)).2, List.rdropWhile,
      dropWhile_eq_self, List.reverse_reverse]
    intro c hc
    exact (hmem c (List.mem_reverse.mp (List.mem_of_head? hc))).2
  have hread : int? 16 (String.ofList (uuidHex id)) = some (id : ℤ) := by
    have hne : uuidHex id ≠ [] := List.append_ne_nil_of_right_ne_nil _ Nat.toDigits_ne_nil
    rw [(int?_digits le_rfl hne (fun c => isDigit_of_mem_uuidHex)
      fun h => absurd h.1 (by decide)).1]
    unfold uuidHex
    rw [value_replicate_zero_append, value_toDigits (by decide) (by decide)]
  unfold uuid?
  rw [removeAll_eq_self (c := ':') (by decide) hcolon,
    removeAll_eq_self (c := ':') (by decide) hcolon]
  dsimp only
  rw [hstrip, filter_uuidText, if_neg (not_not.mpr (length_uuidHex hid)), hread,
    Option.bind_eq_bind, Option.bind_some, if_pos ⟨Int.natCast_nonneg id, by exact_mod_cast hid⟩,
    Int.toNat_natCast]

end Int

end VisionBill
