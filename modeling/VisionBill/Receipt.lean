import VisionBill.ItemCategory
import VisionBill.Decimal
import VisionBill.Calendar

/-!
# Receipts

The receipt schema. A value of a schema class has passed its validators,
so the structures here carry what the validators establish: a positive
quantity, normalised tags, amounts that are not negative, a total whose
sanity check did not raise. What a validator receives, and what
`model_dump` returns, is a payload, in which nothing has been checked.
Validating the dump of a receipt gives the receipt back
(`Receipt.modelValidate_modelDump`).

## Payloads and values

The program validates the same data several times: when the answer of the
model is read, when the line items of several photos have been put
together, when a request comes in. Between two of these it works on dumps.
With the validators' results as fields, a receipt that exists is valid,
and the only thing to be shown of a second validation is that it accepts
what the first one made. The order of the checks is that of the source,
since the first error is the one that is reported, and since an exception
that is no `ValueError` ends the validation at once.

## The sanity check that checks nothing

`sanity_check_total` compares the total with the sum of its parts and
passes in either case. But it computes with decimals, and these operations
may raise: an amount of the model can be so large that a sum overflows
(`sanityCheckTotal`). `decimal.Overflow` is an `ArithmeticError`, which
pydantic does not turn into a `ValidationError`, so it leaves
`model_validate` as it is.

## Tags

Tags are the only field that a validator changes. They are trimmed, and
those that are blank, too long, or a repetition up to case are dropped;
the loop keeps the first of several, and running it over its own result
changes nothing (`normalizeTags_normalizeTags`).
-/

namespace VisionBill

variable [CaseFolding]

/-! ## Tags

Tags are trimmed, those that are empty or too long are dropped, and of
those that differ only in case the first stays. This happens whenever a
line item is validated. -/

/-- `MAX_TAG_LENGTH`. -/
def maxTagLength : ℕ := 100

/-- The loop of `_normalize_tags`, with the case keys seen so far. The
first spelling of a tag is the one that is kept. -/
def normalizeTagsFrom (seen : List String) : List String → List String
  | [] => []
  | tag :: v =>
    let name := strip (collapse tag)
    if name = "" ∨ maxTagLength < len name then normalizeTagsFrom seen v
    else if casefold name ∈ seen then normalizeTagsFrom seen v
    else name :: normalizeTagsFrom (casefold name :: seen) v

/-- `LineItem._normalize_tags`: tags trimmed, without blank or overlong
ones, and without those that repeat an earlier one up to case. The order
is kept. -/
def normalizeTags (v : List String) : List String := normalizeTagsFrom [] v

/-- A tag that the loop of `_normalize_tags` skips. -/
def SkipsTag (seen : List String) (tag : String) : Prop :=
  (strip (collapse tag) = "" ∨ maxTagLength < len (strip (collapse tag)))
    ∨ casefold (strip (collapse tag)) ∈ seen

theorem normalizeTagsFrom_of_skips {seen : List String} {tag : String} (h : SkipsTag seen tag)
    (v : List String) : normalizeTagsFrom seen (tag :: v) = normalizeTagsFrom seen v := by
  rw [normalizeTagsFrom]
  rcases h with h | h
  · exact if_pos h
  · rw [if_pos h, ite_self]

theorem normalizeTagsFrom_of_not_skips {seen : List String} {tag : String}
    (h : ¬ SkipsTag seen tag) (v : List String) :
    normalizeTagsFrom seen (tag :: v)
      = strip (collapse tag)
        :: normalizeTagsFrom (casefold (strip (collapse tag)) :: seen) v := by
  obtain ⟨hbad, hseen⟩ := not_or.mp h
  rw [normalizeTagsFrom, if_neg hbad, if_neg hseen]

theorem normalizeTagsFrom_normalizeTagsFrom (seen v : List String) :
    normalizeTagsFrom seen (normalizeTagsFrom seen v) = normalizeTagsFrom seen v := by
  induction v generalizing seen with
  | nil => rfl
  | cons tag v ih =>
    by_cases h : SkipsTag seen tag
    · rw [normalizeTagsFrom_of_skips h]
      exact ih seen
    · -- a kept tag is its own collapsed form, so the second pass keeps it too
      have hname : strip (collapse (strip (collapse tag))) = strip (collapse tag) := by
        rw [strip_collapse tag, collapse_collapse, strip_collapse]
      have hkept : ¬ SkipsTag seen (strip (collapse tag)) := by
        unfold SkipsTag at h ⊢
        rwa [hname]
      rw [normalizeTagsFrom_of_not_skips h, normalizeTagsFrom_of_not_skips hkept, hname, ih]

/-- Normalised tags stay as they are. A tag that was kept is trimmed, of
acceptable length and new, and it is all of that in the second run too. -/
theorem normalizeTags_normalizeTags (v : List String) :
    normalizeTags (normalizeTags v) = normalizeTags v :=
  normalizeTagsFrom_normalizeTagsFrom [] v

/-! ## Payloads

What is validated are values of the types that `pydantic` reads them as.
Decimals may be infinite or no number there, and only validation excludes
these. -/

/-- The data of a line item before validation. A category may be missing,
and numbers may be out of their bounds. -/
structure LineItemPayload where
  description : String
  spendingCategory : Option String
  quantity : PyFloat
  unitPrice : PyDecimal
  totalPrice : PyDecimal
  tags : List String

/-- The data of a tax line before validation. Its amount may be negative
or no number. -/
structure TaxLinePayload where
  name : String
  rate : Option PyFloat
  amount : PyDecimal

/-- The data of a receipt before validation, other than its line items.
Amounts may still be infinite or no numbers at all, and texts may be
any. -/
structure FieldsPayload where
  confidence : ℤ
  merchantName : String
  merchantAddress : Option String
  receiptNumber : Option String
  date : Date
  time : Option String
  currency : String
  category : String
  taxes : List TaxLinePayload
  subtotal : PyDecimal
  discountTotal : PyDecimal
  taxTotal : PyDecimal
  tip : Option PyDecimal
  total : PyDecimal
  paymentMethod : String

/-- The data of a receipt before validation. This is what JSON gives, and
what a dump is. -/
structure ReceiptPayload extends FieldsPayload where
  lineItems : List LineItemPayload

/-! ## Validated values

A value of these types has passed validation. What validation asks for are
fields of the structure, so a receipt that violates it cannot be built. -/

/-- The category of a whole purchase. Line items have categories of their
own, which are other ones. -/
inductive Category
  | grocery | electronics | clothing | restaurant | fuel | pharmacy | entertainment | other
  deriving DecidableEq, Repr

/-- The text of a purchase category. -/
def Category.text : Category → String
  | .grocery => "grocery" | .electronics => "electronics" | .clothing => "clothing"
  | .restaurant => "restaurant" | .fuel => "fuel" | .pharmacy => "pharmacy"
  | .entertainment => "entertainment" | .other => "other"

/-- The purchase category written as a text. -/
def Category.ofText (s : String) : Option Category :=
  [.grocery, .electronics, .clothing, .restaurant, .fuel, .pharmacy, .entertainment,
    .other].find? (fun c : Category => c.text = s)

omit [CaseFolding] in
@[simp] theorem Category.ofText_text (c : Category) : ofText c.text = some c := by
  cases c <;> decide

/-- How a purchase was paid. -/
inductive PaymentMethod
  | cash | creditCard | debitCard | mobilePayment | check | other | unknown
  deriving DecidableEq, Repr

/-- The text of a payment method. -/
def PaymentMethod.text : PaymentMethod → String
  | .cash => "cash" | .creditCard => "credit_card" | .debitCard => "debit_card"
  | .mobilePayment => "mobile_payment" | .check => "check" | .other => "other"
  | .unknown => "unknown"

/-- The payment method written as a text. -/
def PaymentMethod.ofText (s : String) : Option PaymentMethod :=
  [.cash, .creditCard, .debitCard, .mobilePayment, .check, .other,
    .unknown].find? (fun m : PaymentMethod => m.text = s)

omit [CaseFolding] in
@[simp] theorem PaymentMethod.ofText_text (m : PaymentMethod) : ofText m.text = some m := by
  cases m <;> decide

/-- `LineItem`. The validators' results are fields: a quantity is positive
and tags are normalised. Prices may have either sign, since a discount is
a line too. -/
structure LineItem where
  description : String
  spendingCategory : SpendingCategory
  quantity : PyFloat
  unitPrice : ℚ
  totalPrice : ℚ
  tags : List String
  quantity_pos : quantity.IsPos
  tags_normal : normalizeTags tags = tags
  deriving DecidableEq

/-- `TaxLine`. The amount is not negative, which is part of the value; a
rate may be missing. -/
structure TaxLine where
  name : String
  rate : Option PyFloat
  amount : ℚ
  amount_nonneg : 0 ≤ amount
  deriving DecidableEq

/-- The arithmetic of `sanity_check_total`. The comparison has no effect,
but every operation may raise, and what it raises is no `ValueError`. -/
def sanityCheckTotal (v subtotal taxTotal discountTotal : ℚ) : Except PyError Unit := do
  let discounted ← Decimal.sub (.finite subtotal) (.finite discountTotal)
  let expected ← Decimal.add discounted (.finite taxTotal)
  let drift ← Decimal.sub (.finite v) expected
  let distance ← Decimal.abs drift
  let _ ← Decimal.le distance (.finite (5 / 100))

/-- The fields of a receipt other than its line items. They are apart
because a receipt from several photos has the same ones. -/
structure ReceiptFields where
  confidence : ℤ
  merchantName : String
  merchantAddress : Option String
  receiptNumber : Option String
  date : Date
  time : Option String
  currency : String
  category : Category
  taxes : List TaxLine
  subtotal : ℚ
  discountTotal : ℚ
  taxTotal : ℚ
  tip : Option ℚ
  total : ℚ
  paymentMethod : PaymentMethod
  confidence_range : 0 ≤ confidence ∧ confidence ≤ 100
  discountTotal_nonneg : 0 ≤ discountTotal
  taxTotal_nonneg : 0 ≤ taxTotal
  tip_nonneg : ∀ t ∈ tip, 0 ≤ t
  total_checked : sanityCheckTotal total subtotal taxTotal discountTotal = .ok ()

/-- `Receipt`, with the line items that were kept. It is what a validated
answer becomes, and what is persisted. -/
structure Receipt extends ReceiptFields where
  lineItems : List LineItem

/-! ## Dumps -/

omit [CaseFolding] in
/-- `TaxLine.model_dump()`. -/
def TaxLine.modelDump (t : TaxLine) : TaxLinePayload :=
  { name := t.name, rate := t.rate, amount := .finite t.amount }

/-- `LineItem.model_dump()`. What is dumped validates again to the same
item. -/
def LineItem.modelDump (item : LineItem) : LineItemPayload :=
  { description := item.description
    spendingCategory := some item.spendingCategory.code
    quantity := item.quantity
    unitPrice := .finite item.unitPrice
    totalPrice := .finite item.totalPrice
    tags := item.tags }

omit [CaseFolding] in
/-- `model_dump(exclude={"line_items"})`, with line items put in. Values
are dumped as they are, so that validating the dump meets the same values
again. -/
def ReceiptFields.modelDump (r : ReceiptFields) (lineItems : List LineItemPayload) :
    ReceiptPayload :=
  { confidence := r.confidence
    merchantName := r.merchantName
    merchantAddress := r.merchantAddress
    receiptNumber := r.receiptNumber
    date := r.date
    time := r.time
    currency := r.currency
    category := r.category.text
    lineItems := lineItems
    taxes := r.taxes.map TaxLine.modelDump
    subtotal := .finite r.subtotal
    discountTotal := .finite r.discountTotal
    taxTotal := .finite r.taxTotal
    tip := r.tip.map .finite
    total := .finite r.total
    paymentMethod := r.paymentMethod.text }

/-- `Receipt.model_dump()`. -/
def Receipt.modelDump (r : Receipt) : ReceiptPayload :=
  r.toReceiptFields.modelDump (r.lineItems.map LineItem.modelDump)

/-! ## Validation

Fields are validated in the order in which the class has them, and the
first that fails is reported. The validator of the total sees the fields
before it. -/

omit [CaseFolding] in
/-- A `Decimal` field: only finite values are admitted. -/
def finiteDecimal (field : String) : PyDecimal → Except PyError ℚ
  | .finite x => .ok x
  | _ => .error (.validationError field)

omit [CaseFolding] in
/-- A `Decimal` field with `ge=0`. -/
def nonnegDecimal (field : String) (d : PyDecimal) : Except PyError {x : ℚ // 0 ≤ x} :=
  match d with
  | .finite x => if h : 0 ≤ x then .ok ⟨x, h⟩ else .error (.validationError field)
  | _ => .error (.validationError field)

omit [CaseFolding] in
theorem nonneg_of_mem_none : ∀ x ∈ (none : Option ℚ), 0 ≤ x :=
  fun _ h => absurd h (Option.not_mem_none _)

omit [CaseFolding] in
/-- An optional `Decimal` field with `ge=0`. -/
def nonnegDecimal? (field : String) :
    Option PyDecimal → Except PyError {o : Option ℚ // ∀ x ∈ o, 0 ≤ x}
  | none => .ok ⟨none, nonneg_of_mem_none⟩
  | some d => (nonnegDecimal field d).map fun x =>
      ⟨some x.1, fun _ h => Option.mem_some_iff.mp h ▸ x.2⟩

omit [CaseFolding] in
/-- `TaxLine.model_validate`. -/
def TaxLine.modelValidate (p : TaxLinePayload) : Except PyError TaxLine := do
  let amount ← nonnegDecimal "amount" p.amount
  return { name := p.name, rate := p.rate, amount := amount.1, amount_nonneg := amount.2 }

/-- `LineItem.model_validate`. The bound of the quantity is a field of the
model, and tags and category are brought into their form here. -/
def LineItem.modelValidate (p : LineItemPayload) : Except PyError LineItem :=
  if hq : p.quantity.IsPos then do
    let unitPrice ← finiteDecimal "unit_price" p.unitPrice
    let totalPrice ← finiteDecimal "total_price" p.totalPrice
    return {
      description := p.description
      spendingCategory := llmCategory p.spendingCategory
      quantity := p.quantity
      unitPrice := unitPrice
      totalPrice := totalPrice
      tags := normalizeTags p.tags
      quantity_pos := hq
      tags_normal := normalizeTags_normalizeTags p.tags }
  else .error (.validationError "quantity")

omit [CaseFolding] in
/-- The `total` validator as it runs during validation: on the fields that
were valid so far, with zero for a tax or discount total that was not, and
not at all without a valid total and subtotal. -/
def checkTotal (p : FieldsPayload) : Except PyError Unit :=
  match p.total, p.subtotal with
  | .finite v, .finite subtotal =>
    let taxTotal := (nonnegDecimal "tax_total" p.taxTotal).toOption.elim 0 Subtype.val
    let discountTotal :=
      (nonnegDecimal "discount_total" p.discountTotal).toOption.elim 0 Subtype.val
    sanityCheckTotal v subtotal taxTotal discountTotal
  | _, _ => .ok ()

/-- `Receipt.model_validate`. An arithmetic exception of the `total`
validator is no `ValueError`, so it escapes at once; invalid fields are
only reported when all have been looked at. -/
def Receipt.modelValidate (p : ReceiptPayload) : Except PyError Receipt := do
  checkTotal p.toFieldsPayload
  let lineItems ← p.lineItems.mapM LineItem.modelValidate
  let taxes ← p.taxes.mapM TaxLine.modelValidate
  let subtotal ← finiteDecimal "subtotal" p.subtotal
  let discountTotal ← nonnegDecimal "discount_total" p.discountTotal
  let taxTotal ← nonnegDecimal "tax_total" p.taxTotal
  let tip ← nonnegDecimal? "tip" p.tip
  let total ← finiteDecimal "total" p.total
  match Category.ofText p.category, PaymentMethod.ofText p.paymentMethod with
  | some category, some paymentMethod =>
    if hc : 0 ≤ p.confidence ∧ p.confidence ≤ 100 then
      match hs : sanityCheckTotal total subtotal taxTotal.1 discountTotal.1 with
      | .ok () =>
        return {
          confidence := p.confidence
          merchantName := p.merchantName
          merchantAddress := p.merchantAddress
          receiptNumber := p.receiptNumber
          date := p.date
          time := p.time
          currency := p.currency
          category := category
          taxes := taxes
          subtotal := subtotal
          discountTotal := discountTotal.1
          taxTotal := taxTotal.1
          tip := tip.1
          total := total
          paymentMethod := paymentMethod
          confidence_range := hc
          discountTotal_nonneg := discountTotal.2
          taxTotal_nonneg := taxTotal.2
          tip_nonneg := tip.2
          total_checked := hs
          lineItems := lineItems }
      | .error e => .error e
    else .error (.validationError "confidence")
  | none, _ => .error (.validationError "category")
  | some _, none => .error (.validationError "payment_method")

/-! ## Validating a dump

What was validated is accepted again and unchanged. The program relies on
that where it validates a receipt a second time. -/

omit [CaseFolding] in
@[simp] theorem nonnegDecimal_finite (field : String) {x : ℚ} (h : 0 ≤ x) :
    nonnegDecimal field (.finite x) = .ok ⟨x, h⟩ := dif_pos h

omit [CaseFolding] in
@[simp] theorem nonnegDecimal?_map_finite (field : String) (o : Option ℚ)
    (h : ∀ x ∈ o, 0 ≤ x) : nonnegDecimal? field (o.map .finite) = .ok ⟨o, h⟩ := by
  cases o with
  | none => rfl
  | some x =>
    rw [Option.map_some, nonnegDecimal?, nonnegDecimal_finite field (h x rfl)]
    rfl

omit [CaseFolding] in
@[simp] theorem TaxLine.modelValidate_modelDump (t : TaxLine) :
    TaxLine.modelValidate t.modelDump = .ok t := by
  unfold TaxLine.modelValidate TaxLine.modelDump
  rw [nonnegDecimal_finite "amount" t.amount_nonneg]
  rfl

@[simp] theorem LineItem.modelValidate_modelDump (item : LineItem) :
    LineItem.modelValidate item.modelDump = .ok item := by
  have htags := item.tags_normal
  unfold LineItem.modelValidate LineItem.modelDump
  rw [dif_pos item.quantity_pos]
  simp only [finiteDecimal, llmCategory_code, htags]
  rfl

omit [CaseFolding] in
theorem mapM_modelValidate_map {α β : Type} {validate : β → Except PyError α} {dump : α → β}
    (h : ∀ a, validate (dump a) = .ok a) (l : List α) :
    (l.map dump).mapM validate = .ok l := by
  induction l with
  | nil => rfl
  | cons a l ih =>
    rw [List.map_cons, List.mapM_cons, h, ih]
    rfl

/-- **Validation accepts what a receipt dumps**, and changes nothing:
fields and line items that were valid once are valid again. In particular
the sanity check does not raise, because it has been run on these very
amounts before. -/
theorem Receipt.modelValidate_dump (r : ReceiptFields) (items : List LineItem) :
    Receipt.modelValidate (r.modelDump (items.map LineItem.modelDump))
      = .ok { toReceiptFields := r, lineItems := items } := by
  have htotal : checkTotal (r.modelDump (items.map LineItem.modelDump)).toFieldsPayload = .ok () := by
    unfold checkTotal ReceiptFields.modelDump
    simp only [nonnegDecimal_finite _ r.taxTotal_nonneg, Except.toOption,
      nonnegDecimal_finite _ r.discountTotal_nonneg, Option.elim_some]
    exact r.total_checked
  unfold Receipt.modelValidate
  rw [htotal]
  unfold ReceiptFields.modelDump
  simp only [mapM_modelValidate_map LineItem.modelValidate_modelDump,
    mapM_modelValidate_map TaxLine.modelValidate_modelDump, finiteDecimal,
    nonnegDecimal_finite _ r.discountTotal_nonneg, nonnegDecimal_finite _ r.taxTotal_nonneg,
    nonnegDecimal?_map_finite _ _ r.tip_nonneg, Category.ofText_text,
    PaymentMethod.ofText_text, bind, Except.bind, dif_pos r.confidence_range]
  split
  · rfl
  · next e he => exact absurd (he.symm.trans r.total_checked) (by simp)

theorem Receipt.modelValidate_modelDump (r : Receipt) :
    Receipt.modelValidate r.modelDump = .ok r :=
  Receipt.modelValidate_dump r.toReceiptFields r.lineItems

/-! ## A receipt without amounts -/

omit [CaseFolding] in
theorem sanityCheckTotal_zero : sanityCheckTotal 0 0 0 0 = .ok () := by
  simp [sanityCheckTotal, Decimal.sub, Decimal.add, Decimal.neg, Decimal.abs, Decimal.le,
    bind, Except.bind, pure, Except.pure]

omit [CaseFolding] in
theorem zero_le_zero_rat : (0 : ℚ) ≤ 0 := le_refl 0

/-- The header of a receipt without amounts. -/
def emptyFields : ReceiptFields where
  confidence := 90
  merchantName := "Shop"
  merchantAddress := none
  receiptNumber := none
  date := ⟨2024, 1, 2, by decide⟩
  time := none
  currency := "EUR"
  category := .grocery
  taxes := []
  subtotal := 0
  discountTotal := 0
  taxTotal := 0
  tip := none
  total := 0
  paymentMethod := .cash
  confidence_range := by decide
  discountTotal_nonneg := zero_le_zero_rat
  taxTotal_nonneg := zero_le_zero_rat
  tip_nonneg := nonneg_of_mem_none
  total_checked := sanityCheckTotal_zero

end VisionBill
