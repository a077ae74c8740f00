import VisionBill.Lib.Words
import Mathlib.Data.List.DropRight

/-!
# Python strings

The few string operations the program relies on. A Python `str` is
modelled by a `String`, and each operation works on its characters:
`str.split()` and `str.strip()` separate at `str.isspace()`, and
`str.casefold()` replaces every character by its full case folding. The
folding table itself is part of the interpreter's Unicode data, so it is a
class here, and what is proved holds for every table.

## How texts are compared

The program compares descriptions and tags up to white space and case: it
collapses them, folds them, or does both. Each of these is idempotent or
leaves nothing only of nothing, and that is what the callers need: a
description that was normalised once is not changed by being normalised
again, and a key is blank exactly if the text was
(`collapse_eq_empty_iff`, `casefold_eq_empty_iff`).

Surrogates do not occur: a text that comes from JSON or from the database
has none, and the texts of the program itself are ASCII.
-/

namespace VisionBill

/-- The case folding table of the interpreter: what each character folds
to. All that is asked of it is that no character folds to nothing. -/
class CaseFolding where
  /-- The full folding of one character, which may be several
  characters. -/
  fold : Char → List Char
  /-- No character folds to nothing. -/
  fold_ne_nil : ∀ c, fold c ≠ []

/-- The folding table on ASCII letters; it leaves every other character
alone, as the real table does with the rest of ASCII. -/
@[reducible] def asciiFolding : CaseFolding where
  fold c := [c.toLower]
  fold_ne_nil _ := List.cons_ne_nil _ _

/-- `str.isspace()` of one character. The characters are those of the
interpreter, with the four separators of ASCII that JavaScript does not
count. -/
def isSpace (c : Char) : Bool :=
  let n := c.toNat
  (0x09 ≤ n && n ≤ 0x0D) || (0x1C ≤ n && n ≤ 0x20) || n == 0x85 || n == 0xA0 || n == 0x1680
    || (0x2000 ≤ n && n ≤ 0x200A) || n == 0x2028 || n == 0x2029 || n == 0x202F || n == 0x205F
    || n == 0x3000

/-- `" ".join(s.split())`. The rest is the library's: what is joined are
the words between any kind of white space. -/
def collapse (s : String) : String :=
  String.ofList (Words.collapse isSpace ' ' s.toList)

/-- `s.strip()`. -/
def strip (s : String) : String :=
  String.ofList (s.toList.dropWhile isSpace |>.rdropWhile isSpace)

/-- `s.casefold()`. -/
def casefold [CaseFolding] (s : String) : String :=
  String.ofList (s.toList.flatMap CaseFolding.fold)

/-- `str.removeprefix()`. -/
def removePrefix (p s : String) : String :=
  if p.toList.isPrefixOf s.toList then String.ofList (s.toList.drop p.toList.length) else s

/-- `str.removesuffix()`. -/
def removeSuffix (p s : String) : String :=
  if p.toList.isSuffixOf s.toList then
    String.ofList (s.toList.take (s.toList.length - p.toList.length))
  else s

/-- `len(s)`, in characters. -/
def len (s : String) : ℕ := s.toList.length

theorem isSpace_space : isSpace ' ' = true := by decide

@[simp] theorem collapse_collapse (s : String) : collapse (collapse s) = collapse s := by
  unfold collapse
  rw [String.toList_ofList, Words.collapse_collapse isSpace_space]

theorem dropWhile_eq_self {α : Type*} {p : α → Bool} {l : List α}
    (h : ∀ a, l.head? = some a → p a = false) : l.dropWhile p = l := by
  cases l with
  | nil => rfl
  | cons a l => rw [List.dropWhile_cons, h a rfl]; rfl

/-- Nothing is left to strip from a collapsed string. -/
@[simp] theorem strip_collapse (s : String) : strip (collapse s) = collapse s := by
  unfold strip collapse
  rw [String.toList_ofList, dropWhile_eq_self fun a => Words.isSep_head_collapse]
  congr 1
  rw [List.rdropWhile, dropWhile_eq_self, List.reverse_reverse]
  intro a ha
  rw [List.head?_reverse] at ha
  exact Words.isSep_getLast_collapse ha

/-! ## Blank strings -/

theorem ofList_eq_empty_iff {l : List Char} : String.ofList l = "" ↔ l = [] := by
  rw [← String.toList_inj, String.toList_ofList]
  rfl

/-- What collapses to the empty string is blank, so the two ways in which
the program asks whether a text says anything agree. -/
theorem collapse_eq_empty_iff {s : String} : collapse s = "" ↔ strip s = "" := by
  unfold collapse strip
  rw [ofList_eq_empty_iff, ofList_eq_empty_iff, Words.collapse_eq_nil_iff,
    List.rdropWhile_eq_nil_iff]
  constructor
  · intro h c hc
    exact h c ((List.dropWhile_sublist _).subset hc)
  · intro h c hc
    rw [← List.takeWhile_append_dropWhile (p := isSpace) (l := s.toList)] at hc
    rcases List.mem_append.mp hc with hc | hc
    · exact List.mem_takeWhile_imp hc
    · exact h c hc

/-- Case folding leaves nothing only of nothing. -/
theorem casefold_eq_empty_iff [CaseFolding] {s : String} : casefold s = "" ↔ s = "" := by
  unfold casefold
  rw [ofList_eq_empty_iff, List.flatMap_eq_nil_iff, ← String.toList_inj]
  constructor
  · intro h
    exact List.eq_nil_iff_forall_not_mem.mpr fun c hc => CaseFolding.fold_ne_nil c (h c hc)
  · intro h c hc
    rw [h] at hc
    exact absurd hc List.not_mem_nil

end VisionBill
