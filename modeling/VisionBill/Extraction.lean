import VisionBill.Receipt

/-!
# Extraction from several photos

A long receipt is photographed in overlapping sections. The model returns
the line items of all photos together, each with the photo it was read
from, and proposes pairs of rows that show the same printed line in two
neighbouring photos. `MultiImageReceipt.reconciled` turns that into one
receipt: the pairs proposed for a boundary must be the end of one photo
against the beginning of the next, and the later rows are dropped if every
pair is verified.

## What the model is trusted with

The model proposes and the program decides. A proposal that does not have
the form of an overlap – a row that does not exist, photos that are not
neighbours, pairs that are not consecutive – is an error, and the answer
is asked for once more. A proposal of the right form that names rows which
do not look alike is no error: the boundary is then taken to have no
overlap, and nothing is dropped. So one pair that fails saves all rows of
its boundary.

## How rows are compared

`verify_duplicate` compares names up to white space and case, by the ratio
of `SequenceMatcher`, and quantities and totals with a tolerance each; by
default names and numbers have to be equal. The ratio is a parameter, of
which the default only needs that it is one for equal names and for no
others. The comparison of the numbers is a subtraction of decimals, with
what that means for numbers that are very small or very large.

The loops are those of the source, with their dictionaries as lists in the
order of insertion.
-/

namespace VisionBill

variable [CaseFolding]

/-- `SourceLineItem`: a line item with the index of the photo that shows
it. -/
structure SourceLineItem extends LineItem where
  sourceImage : ℕ
  deriving DecidableEq

/-- `DuplicateCandidate`: two positions among the line items. Whether
these exist is checked when they are used. -/
structure DuplicateCandidate where
  firstIndex : ℕ
  secondIndex : ℕ
  deriving DecidableEq

/-- `MultiImageReceipt`: a receipt whose rows come from several photos,
with the pairs that the model takes for one printed line. -/
structure MultiImageReceipt extends ReceiptFields where
  lineItems : List SourceLineItem
  duplicateCandidates : List DuplicateCandidate

/-! ## Payloads

What the model answers is data, and it is a receipt only after validation.
Reconciliation builds new data from an old receipt, so that both
directions are needed. -/

/-- The data of a `SourceLineItem` before validation. -/
structure SourceLineItemPayload extends LineItemPayload where
  sourceImage : ℤ

/-- The data of a `DuplicateCandidate` before validation. -/
structure DuplicateCandidatePayload where
  firstIndex : ℤ
  secondIndex : ℤ

/-- The data of a `MultiImageReceipt` before validation. Indices may be
negative here, which validation excludes. -/
structure MultiImagePayload extends FieldsPayload where
  lineItems : List SourceLineItemPayload
  duplicateCandidates : List DuplicateCandidatePayload

omit [CaseFolding] in
/-- An index with `ge=0`. -/
def nonnegIndex (field : String) (n : ℤ) : Except PyError ℕ :=
  if 0 ≤ n then .ok n.toNat else .error (.validationError field)

/-- `SourceLineItem.model_validate`. -/
def SourceLineItem.modelValidate (p : SourceLineItemPayload) : Except PyError SourceLineItem := do
  let item ← LineItem.modelValidate p.toLineItemPayload
  let sourceImage ← nonnegIndex "source_image" p.sourceImage
  return { toLineItem := item, sourceImage := sourceImage }

omit [CaseFolding] in
/-- `DuplicateCandidate.model_validate`. -/
def DuplicateCandidate.modelValidate (p : DuplicateCandidatePayload) :
    Except PyError DuplicateCandidate := do
  let firstIndex ← nonnegIndex "first_index" p.firstIndex
  let secondIndex ← nonnegIndex "second_index" p.secondIndex
  return { firstIndex := firstIndex, secondIndex := secondIndex }

/-- `MultiImageReceipt.model_validate`. The fields that it has from
`Receipt` are validated like there. -/
def MultiImageReceipt.modelValidate (p : MultiImagePayload) : Except PyError MultiImageReceipt := do
  let receipt ← Receipt.modelValidate { toFieldsPayload := p.toFieldsPayload, lineItems := [] }
  let lineItems ← p.lineItems.mapM SourceLineItem.modelValidate
  let candidates ← p.duplicateCandidates.mapM DuplicateCandidate.modelValidate
  return {
    toReceiptFields := receipt.toReceiptFields
    lineItems := lineItems
    duplicateCandidates := candidates }

/-- `MultiImageReceipt.model_dump()`. Reconciliation validates what it has
dumped again, with other line items. -/
def MultiImageReceipt.modelDump (m : MultiImageReceipt) : MultiImagePayload where
  toFieldsPayload := (m.toReceiptFields.modelDump []).toFieldsPayload
  lineItems := m.lineItems.map fun item =>
    { toLineItemPayload := item.toLineItem.modelDump, sourceImage := item.sourceImage }
  duplicateCandidates := m.duplicateCandidates.map fun pair =>
    { firstIndex := pair.firstIndex, secondIndex := pair.secondIndex }

omit [CaseFolding] in
@[simp] theorem nonnegIndex_natCast (field : String) (n : ℕ) : nonnegIndex field n = .ok n :=
  (if_pos (Int.natCast_nonneg n)).trans (by rw [Int.toNat_natCast])

/-- **Validation accepts what a receipt in several photos dumps.** -/
theorem MultiImageReceipt.modelValidate_modelDump (m : MultiImageReceipt) :
    MultiImageReceipt.modelValidate m.modelDump = .ok m := by
  have hfields := Receipt.modelValidate_dump m.toReceiptFields []
  have hitem : ∀ item : SourceLineItem, SourceLineItem.modelValidate
      { toLineItemPayload := item.toLineItem.modelDump, sourceImage := item.sourceImage }
        = .ok item := by
    intro item
    unfold SourceLineItem.modelValidate
    rw [LineItem.modelValidate_modelDump, nonnegIndex_natCast]
    rfl
  have hpair : ∀ pair : DuplicateCandidate, DuplicateCandidate.modelValidate
      { firstIndex := pair.firstIndex, secondIndex := pair.secondIndex } = .ok pair := by
    intro pair
    unfold DuplicateCandidate.modelValidate
    rw [nonnegIndex_natCast, nonnegIndex_natCast]
    rfl
  unfold MultiImageReceipt.modelValidate modelDump
  rw [mapM_modelValidate_map hitem, mapM_modelValidate_map hpair]
  rw [List.map_nil] at hfields
  have hdump : Receipt.modelValidate { toFieldsPayload :=
        (m.toReceiptFields.modelDump []).toFieldsPayload, lineItems := [] }
      = .ok { toReceiptFields := m.toReceiptFields, lineItems := [] } := hfields
  rw [hdump]
  rfl

/-! ## Verifying a duplicate

Two rows are one printed line if their names are alike and their
quantities and totals are close. With the default tolerances that means
equal names and a difference of zero. -/

/-- A description up to whitespace and case, as `verify_duplicate`
compares it. -/
def comparedName (item : LineItem) : String := collapse (casefold item.description)

/-- `verify_duplicate`. `ratio` is what `SequenceMatcher(...).ratio()`
returns for two names. It raises where an operation on decimals does. -/
def verifyDuplicate (ratio : String → String → ℚ) (first second : LineItem)
    (nameSimilarity : ℚ := 1) (quantityTolerance totalTolerance : ℚ := 0) :
    Except PyError Bool :=
  if ¬ (0 ≤ nameSimilarity ∧ nameSimilarity ≤ 1) ∨ quantityTolerance < 0
      ∨ totalTolerance < 0 then
    .error (.valueError "Invalid duplicate verification tolerances")
  else
    let left := comparedName first
    let right := comparedName second
    if left = "" ∨ right = "" then .ok false
    else if ratio left right < nameSimilarity then .ok false
    else do
      let sameQuantity ← Decimal.absDiffLe first.quantity.toDecimal second.quantity.toDecimal
        (.finite quantityTolerance)
      if sameQuantity then
        Decimal.absDiffLe (.finite first.totalPrice) (.finite second.totalPrice)
          (.finite totalTolerance)
      else .ok false

/-! ## Reconciliation

The pairs are grouped by the two photos that they are about, each group is
checked as a whole, and then the rows that repeat others are left out. The
dictionaries of the source keep the order of insertion, and so do the
lists here. -/

omit [CaseFolding] in
/-- The positions of the rows of a photo. -/
def positions (sources : List ℕ) (source : ℕ) : List ℕ :=
  (sources.zipIdx.filter (fun row => row.1 = source)).map Prod.snd

omit [CaseFolding] in
/-- `l[-count:]`, for a positive count. -/
def lastN {α : Type} (count : ℕ) (l : List α) : List α := l.drop (l.length - count)

omit [CaseFolding] in
/-- The overlap of a photo with the next that `count` rows can be: the
last rows against the first rows, in order. The pairs of a group are
compared with this list, so their number alone says what they must be. -/
def expectedPairs (sources : List ℕ) (source count : ℕ) : List (ℕ × ℕ) :=
  (lastN count (positions sources source)).zip ((positions sources (source + 1)).take count)

/-- The candidate pairs by the photo of their first row, in the order in
which the photos were met. -/
abbrev Groups := List (ℕ × List (ℕ × ℕ))

omit [CaseFolding] in
/-- `groups.setdefault(source, []).append(pair)`. -/
def Groups.append (source : ℕ) (pair : ℕ × ℕ) : Groups → Groups
  | [] => [(source, [pair])]
  | (s, pairs) :: groups =>
    if s = source then (s, pairs ++ [pair]) :: groups
    else (s, pairs) :: Groups.append source pair groups

omit [CaseFolding] in
/-- One candidate is checked and sorted into its group. Its positions have
to be in order and in range, and its rows to come from neighbouring
photos. -/
def groupCandidate (sources : List ℕ) (groups : Groups) (pair : DuplicateCandidate) :
    Except PyError Groups :=
  let a := pair.firstIndex
  let b := pair.secondIndex
  if ¬ (a < b ∧ b < sources.length) then
    .error (.valueError "Duplicate candidate indices are out of order or out of range")
  else if sources.getD b 0 ≠ sources.getD a 0 + 1 then
    .error (.valueError "Duplicate candidates must come from adjacent photos")
  else .ok (groups.append (sources.getD a 0) (a, b))

omit [CaseFolding] in
/-- Tuples compare lexicographically. -/
def tupleLe (p q : ℕ × ℕ) : Bool := p.1 < q.1 || (p.1 = q.1 && p.2 ≤ q.2)

namespace MultiImageReceipt

/-- The photo of every row. -/
def sources (m : MultiImageReceipt) : List ℕ := m.lineItems.map SourceLineItem.sourceImage

/-- `verify_duplicate` on two rows, given by position. -/
def verifyPair (ratio : String → String → ℚ) (m : MultiImageReceipt) (pair : ℕ × ℕ) :
    Except PyError Bool :=
  match m.lineItems[pair.1]?, m.lineItems[pair.2]? with
  | some first, some second => verifyDuplicate ratio first.toLineItem second.toLineItem
  | _, _ => .error .indexError

/-- `all(verify_duplicate(...) for a, b in pairs)`. -/
def allVerified (ratio : String → String → ℚ) (m : MultiImageReceipt) :
    List (ℕ × ℕ) → Except PyError Bool
  | [] => .ok true
  | pair :: pairs => do
    if ← m.verifyPair ratio pair then m.allVerified ratio pairs else .ok false

/-- One group is checked, and its later rows are marked if every pair is
verified. The marks of all groups are collected before any row is dropped,
so a row may be marked and serve as the earlier row of another pair. -/
def reconcileGroup (ratio : String → String → ℚ) (m : MultiImageReceipt) (removed : List ℕ)
    (group : ℕ × List (ℕ × ℕ)) : Except PyError (List ℕ) := do
  let pairs := group.2.mergeSort tupleLe
  if pairs ≠ expectedPairs m.sources group.1 pairs.length then
    throw (.valueError "Duplicate candidates must describe an ordered photo-boundary overlap")
  if ← m.allVerified ratio pairs then
    return removed ++ pairs.map Prod.snd
  return removed

/-- The positions that `reconciled` drops. The checks come before, in the
order of the source: the order of the photos, then the candidates, then
their groups. -/
def removedRows (ratio : String → String → ℚ) (m : MultiImageReceipt) (imageCount : ℤ) :
    Except PyError (List ℕ) := do
  if m.sources ≠ m.sources.mergeSort ∨ ∃ source ∈ m.sources, imageCount ≤ source then
    throw (.valueError
      "Line items must be grouped in input photo order with valid source_image")
  let groups ← m.duplicateCandidates.foldlM (groupCandidate m.sources) []
  groups.foldlM (m.reconcileGroup ratio) []

/-- The rows whose position is not removed. Rows are told apart by their
positions, as two of them may have the same contents. -/
def keptRows (m : MultiImageReceipt) (removed : List ℕ) : List SourceLineItem :=
  (m.lineItems.zipIdx.filter (fun row => row.2 ∉ removed)).map Prod.fst

/-- `reconciled`: the fields of the answer with the rows that are kept,
validated once more as a receipt. -/
def reconciled (ratio : String → String → ℚ) (m : MultiImageReceipt) (imageCount : ℤ) :
    Except PyError Receipt := do
  let removed ← m.removedRows ratio imageCount
  let lineItems := (m.keptRows removed).map (fun item => item.toLineItem.modelDump)
  Receipt.modelValidate (m.toReceiptFields.modelDump lineItems)

end MultiImageReceipt

end VisionBill
