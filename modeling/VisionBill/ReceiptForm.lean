import VisionBill.ShownValues
import VisionBill.ReceiptEditor

/-!
# The form of the receipt editor

The editor shows a receipt as a form of texts, and sends all of the form
back when it is saved, also what was not edited. The server validates the
body as it validates every receipt, and replaces what is stored.

## There and back

Three translations lie between what is stored and what is stored next. The
page turns a receipt into a form (`buildForm`): amounts come as texts
already, and other numbers are printed by the browser. The form is turned
into a body (`EditorForm.buildWrite`): texts are trimmed, an empty one
becomes `null` or the value that stands for it, numbers are parsed. And
the server validates the body (`ReceiptWrite.modelValidate`), field by
field, in the order of its class, the first error ending it.

What a save does to a receipt is decided by these three, and what is
looked at elsewhere is their composition: that a form without errors is
accepted (`VisionBill.FormErrors`), what a receipt is after it has been
saved unedited (`VisionBill.UneditedFields`), and what is shown of it then
(`VisionBill.ShownForms`).

## What has been read

For all of these it is enough to know what validation has read if it
succeeds (`readsWrite`). It relates the body to the fields of the receipt,
one condition for each, and does not say how they were checked.
-/

namespace VisionBill

section ReceiptForm

/-! ## The form

All fields of the form are texts, as inputs have them. It is built from a
receipt as it is shown, and edited field by field. -/

/-- `EditorLine`, without what only concerns the suggestion of a category.
Numbers are the texts that the inputs hold. -/
structure FormLine where
  id : Option UUID
  description : String
  quantity : String
  unitPrice : String
  totalPrice : String
  spendingCategory : String
  rememberCategory : Bool
  tags : List String

/-- `EditorTax`. All fields are texts, since they are bound to inputs. -/
structure FormTax where
  name : String
  rate : String
  amount : String

/-- `EditorForm`: what the inputs of the page hold, line by line. All of
it is text, since an input holds whatever was typed. -/
structure EditorForm where
  confidence : String
  merchantName : String
  merchantAddress : String
  receiptNumber : String
  date : String
  time : String
  currency : String
  category : String
  paymentMethod : String
  subtotal : String
  discountTotal : String
  taxTotal : String
  tip : String
  total : String
  lines : List FormLine
  taxLines : List FormTax
  collectionIds : List UUID

/-- `String(x)` of a stored number, which has a fixed number of places in
its column. -/
def numberText (places : ℕ) (x : ℚ) : String := String.ofList (JsNumber.ofFixed places x).text

/-- `String(x)` of a tax rate. -/
def rateText : PyDecimal → String
  | .finite x => numberText 4 x
  -- JSON has no such number: `null` is sent
  | .nan | .inf _ => ""

/-- A line of `buildForm`. Numbers are written as the server sends them,
so that a line which is not edited is sent back with the same digits. -/
def FormLine.ofRow (line : LineItemRecord) : FormLine where
  id := some line.id
  description := line.description
  quantity := numberText 4 line.quantity
  unitPrice := amountText line.unitPrice
  totalPrice := amountText line.totalPrice
  spendingCategory := line.spendingCategory.code
  rememberCategory := false
  tags := line.tags

/-- A tax of `buildForm`. -/
def FormTax.ofRow (tax : TaxRecord) : FormTax where
  name := tax.name
  rate := tax.rate.elim "" rateText
  amount := amountText tax.amount

/-- `buildForm`, of what the server sends: amounts and dates as texts,
other numbers as numbers. -/
def buildForm (details : ReceiptWithDetails) : EditorForm :=
  let receipt := details.receipt
  { confidence := numberText 0 receipt.confidence
    merchantName := receipt.merchantName
    merchantAddress := receipt.merchantAddress.getD ""
    receiptNumber := receipt.receiptNumber.getD ""
    date := receipt.date.isoformat
    time := (receipt.time.map Time.isoformat).getD ""
    currency := if receipt.currency = "" then "USD" else receipt.currency
    category := receipt.category
    paymentMethod := receipt.paymentMethod
    subtotal := amountText receipt.subtotal
    discountTotal := amountText receipt.discountTotal
    taxTotal := amountText receipt.taxTotal
    tip := receipt.tip.elim "" amountText
    total := amountText receipt.total
    lines := details.lineItems.map FormLine.ofRow
    taxLines := details.taxes.map FormTax.ofRow
    collectionIds := details.collectionIds }

/-! ## What is sent

A form becomes a body: texts are trimmed, an empty text becomes none where
a field may be missing, and the quantity becomes a number of the
language. -/

/-- A line item of `ReceiptWrite`. The quantity is sent as a number and
the prices as texts. -/
structure LineItemWrite where
  id : Option UUID
  description : String
  quantity : JsNumber
  unitPrice : String
  totalPrice : String
  spendingCategory : String
  rememberCategory : Bool
  tags : List String

/-- A tax of `ReceiptWrite`. A rate that is left empty is sent as none. -/
structure TaxLineWrite where
  name : String
  rate : Option JsNumber
  amount : String

/-- `ReceiptWrite`. Amounts are still texts in it, and only confidence and
quantities are numbers of JavaScript. -/
structure ReceiptWrite where
  confidence : JsNumber
  merchantName : String
  merchantAddress : Option String
  receiptNumber : Option String
  date : String
  time : Option String
  currency : String
  category : String
  lineItems : List LineItemWrite
  taxes : List TaxLineWrite
  subtotal : String
  discountTotal : String
  taxTotal : String
  tip : Option String
  total : String
  paymentMethod : String
  collectionIds : List UUID

/-- The language maps texts to upper case. Which characters it maps how is
left open. -/
class UpperCase where
  /-- `s.toUpperCase()`. -/
  upper : String → String

/-- `s || null`. -/
def orNull (s : String) : Option String := if s = "" then none else some s

/-- `s || value`. -/
def orText (s value : String) : String := if s = "" then value else s

variable [JsNumbers]

/-- A line of `buildWrite`. Texts are trimmed, and tags that are blank are
left out. -/
def FormLine.write (line : FormLine) : LineItemWrite where
  id := line.id
  description := trimmed line.description
  quantity := JsNumbers.number line.quantity
  unitPrice := trimmed line.unitPrice
  totalPrice := trimmed line.totalPrice
  spendingCategory := line.spendingCategory
  rememberCategory := line.rememberCategory
  tags := (line.tags.map trimmed).filter (· ≠ "")

/-- A tax of `buildWrite`. -/
def FormTax.write (tax : FormTax) : TaxLineWrite where
  name := trimmed tax.name
  rate := if trimmed tax.rate = "" then none else some (JsNumbers.number tax.rate)
  amount := trimmed tax.amount

/-- The currency of `buildWrite`. -/
def writtenCurrency [UpperCase] (currency : String) : String :=
  orText (UpperCase.upper (trimmed currency)) "USD"

/-- `buildWrite`. Texts are trimmed, and an empty one is sent as `null` or
zero where the field allows it; amounts are sent as the texts that were
typed. -/
def EditorForm.buildWrite [UpperCase] (form : EditorForm) : ReceiptWrite where
  confidence := JsNumbers.number form.confidence
  merchantName := trimmed form.merchantName
  merchantAddress := orNull (trimmed form.merchantAddress)
  receiptNumber := orNull (trimmed form.receiptNumber)
  date := form.date
  time := orNull (trimmed form.time)
  currency := writtenCurrency form.currency
  category := form.category
  lineItems := form.lines.map FormLine.write
  taxes := form.taxLines.map FormTax.write
  subtotal := trimmed form.subtotal
  discountTotal := orText (trimmed form.discountTotal) "0"
  taxTotal := orText (trimmed form.taxTotal) "0"
  tip := orNull (trimmed form.tip)
  total := trimmed form.total
  paymentMethod := form.paymentMethod
  collectionIds := form.collectionIds

/-! ## What the server reads

A body is validated by the models of the request. Only bodies that the
editor can send are read here, so a number is either written as the editor
writes it or comes from `Number`. -/

/-- A value that is required of a field. -/
def required {α : Type} (field : String) (o : Option α) : Except PyError α :=
  o.elim (.error (.validationError field)) .ok

/-- An amount that may be `null`. -/
def requiredOrNull (field : String) : Option String → Except PyError (Option ℚ)
  | none => .ok none
  | some s => (required field (decimal? s)).map some

omit [JsNumbers] in
theorem required_eq_ok {α : Type} {field : String} {o : Option α} {a : α} :
    required field o = .ok a ↔ o = some a := by
  cases o with
  | none => exact ⟨fun h => absurd h (by simp [required]), fun h => absurd h (by simp)⟩
  | some b => exact ⟨fun h => congrArg some (Except.ok.inj h), fun h => congrArg Except.ok (Option.some.inj h)⟩

variable [CaseFolding]

/-- `LineItemUpdate.model_validate`, which looks at the category before it
looks at the fields. -/
def LineItemWrite.modelValidate (w : LineItemWrite) : Except PyError LineItemUpdate := do
  let _ ← required "line_items" (SpendingCategory.ofCode w.spendingCategory)
  let quantity ← required "quantity" w.quantity.toFloat?
  let unitPrice ← required "unit_price" (decimal? w.unitPrice)
  let totalPrice ← required "total_price" (decimal? w.totalPrice)
  let item ← LineItem.modelValidate {
    description := w.description
    spendingCategory := some w.spendingCategory
    quantity := quantity
    unitPrice := .finite unitPrice
    totalPrice := .finite totalPrice
    tags := w.tags }
  return {
    toLineItem := item
    id := w.id
    rememberCategory := w.rememberCategory
    explicitCategory := true
    category_default := fun h => absurd h (by simp) }

omit [JsNumbers] [CaseFolding] in
/-- The payload of a tax; a number that is none is sent as `null`. -/
def TaxLineWrite.payload (w : TaxLineWrite) : Except PyError TaxLinePayload := do
  let amount ← required "amount" (decimal? w.amount)
  return { name := w.name, rate := w.rate.bind JsNumber.toFloat?, amount := .finite amount }

/-- `ReceiptUpdate.model_validate`. The fields are read from their texts
first, and then the receipt is validated as one from a model is. -/
def ReceiptWrite.modelValidate (w : ReceiptWrite) : Except PyError ReceiptUpdate := do
  let confidence ← required "confidence" w.confidence.toInt?
  let date ← required "date" (Date.ofText w.date)
  let lineItems ← w.lineItems.mapM LineItemWrite.modelValidate
  let taxes ← w.taxes.mapM TaxLineWrite.payload
  let subtotal ← required "subtotal" (decimal? w.subtotal)
  let discountTotal ← required "discount_total" (decimal? w.discountTotal)
  let taxTotal ← required "tax_total" (decimal? w.taxTotal)
  let tip ← requiredOrNull "tip" w.tip
  let total ← required "total" (decimal? w.total)
  let receipt ← Receipt.modelValidate {
    confidence := confidence
    merchantName := w.merchantName
    merchantAddress := w.merchantAddress
    receiptNumber := w.receiptNumber
    date := date
    time := w.time
    currency := w.currency
    category := w.category
    lineItems := []
    taxes := taxes
    subtotal := .finite subtotal
    discountTotal := .finite discountTotal
    taxTotal := .finite taxTotal
    tip := tip.map .finite
    total := .finite total
    paymentMethod := w.paymentMethod }
  return {
    toReceiptFields := receipt.toReceiptFields
    lineItems := lineItems
    collectionIds := some w.collectionIds }

/-! ## What is validated -/

omit [JsNumbers] [CaseFolding] in
/-- A decimal that is accepted is the one that was sent. -/
theorem eq_of_finiteDecimal {field : String} {d : PyDecimal} {x : ℚ}
    (h : finiteDecimal field d = .ok x) : d = .finite x := by
  cases d with
  | finite y => exact congrArg PyDecimal.finite (Except.ok.inj h)
  | inf negative => exact absurd h (by simp [finiteDecimal])
  | nan => exact absurd h (by simp [finiteDecimal])

omit [JsNumbers] [CaseFolding] in
/-- And so is one that must not be negative. -/
theorem eq_of_nonnegDecimal {field : String} {d : PyDecimal} {x : {x : ℚ // 0 ≤ x}}
    (h : nonnegDecimal field d = .ok x) : d = .finite x.1 := by
  cases d with
  | finite y =>
    unfold nonnegDecimal at h
    dsimp only at h
    split at h
    · rw [← Except.ok.inj h]
    · exact absurd h (by simp)
  | inf negative => exact absurd h (by simp [nonnegDecimal])
  | nan => exact absurd h (by simp [nonnegDecimal])

omit [JsNumbers] [CaseFolding] in
/-- A category is written as it was read. -/
theorem Category.text_of_ofText {s : String} {c : Category} (h : ofText s = some c) :
    c.text = s := by
  have hfound := List.find?_some h
  exact of_decide_eq_true hfound

omit [JsNumbers] [CaseFolding] in
/-- And so is a payment method. -/
theorem PaymentMethod.text_of_ofText {s : String} {m : PaymentMethod} (h : ofText s = some m) :
    m.text = s := by
  have hfound := List.find?_some h
  exact of_decide_eq_true hfound

/-- The values of a validated receipt, by the payload that was validated.
There is no field that validation leaves out. -/
structure ValidatesFields (p : ReceiptPayload) (r : ReceiptFields) : Prop where
  confidence : r.confidence = p.confidence
  merchantName : r.merchantName = p.merchantName
  merchantAddress : r.merchantAddress = p.merchantAddress
  receiptNumber : r.receiptNumber = p.receiptNumber
  date : r.date = p.date
  time : r.time = p.time
  currency : r.currency = p.currency
  category : r.category.text = p.category
  taxes : p.taxes.mapM TaxLine.modelValidate = .ok r.taxes
  subtotal : p.subtotal = .finite r.subtotal
  discountTotal : p.discountTotal = .finite r.discountTotal
  taxTotal : p.taxTotal = .finite r.taxTotal
  tip : p.tip = r.tip.map .finite
  total : p.total = .finite r.total
  paymentMethod : r.paymentMethod.text = p.paymentMethod

omit [JsNumbers] in
theorem validatesFields_of_modelValidate {p : ReceiptPayload} {r : Receipt}
    (h : Receipt.modelValidate p = .ok r) : ValidatesFields p r.toReceiptFields := by
  unfold Receipt.modelValidate at h
  obtain ⟨-, -, h⟩ := bind_eq_ok.mp h
  obtain ⟨lineItems, -, h⟩ := bind_eq_ok.mp h
  obtain ⟨taxes, htaxes, h⟩ := bind_eq_ok.mp h
  obtain ⟨subtotal, hsubtotal, h⟩ := bind_eq_ok.mp h
  obtain ⟨discountTotal, hdiscount, h⟩ := bind_eq_ok.mp h
  obtain ⟨taxTotal, htax, h⟩ := bind_eq_ok.mp h
  obtain ⟨tip, htip, h⟩ := bind_eq_ok.mp h
  obtain ⟨total, htotal, h⟩ := bind_eq_ok.mp h
  have htip' : p.tip = tip.1.map .finite := by
    cases hp : p.tip with
    | none =>
      rw [hp] at htip
      rw [← Except.ok.inj htip]
      rfl
    | some d =>
      rw [hp] at htip
      obtain ⟨x, hx, rfl⟩ := map_eq_ok htip
      rw [eq_of_nonnegDecimal hx]
      rfl
  split at h
  · next category paymentMethod hcategory hpayment =>
    split at h
    · split at h
      · obtain rfl := Except.ok.inj h
        exact {
          confidence := rfl
          merchantName := rfl
          merchantAddress := rfl
          receiptNumber := rfl
          date := rfl
          time := rfl
          currency := rfl
          category := Category.text_of_ofText hcategory
          taxes := htaxes
          subtotal := eq_of_finiteDecimal hsubtotal
          discountTotal := eq_of_nonnegDecimal hdiscount
          taxTotal := eq_of_nonnegDecimal htax
          tip := htip'
          total := eq_of_finiteDecimal htotal
          paymentMethod := PaymentMethod.text_of_ofText hpayment }
      · exact absurd h (by simp)
    · exact absurd h (by simp)
  · exact absurd h (by simp)
  · exact absurd h (by simp)

/-! ## What has been read

What a body says, field by field, in terms of the values and not of how
they are parsed. Results about what is saved use this relation alone. -/

/-- A line item that was read from what was sent. It says which number
each text stands for, and does not say how the text is parsed. -/
structure ReadsItemWrite (w : LineItemWrite) (item : LineItemUpdate) : Prop where
  id : item.id = w.id
  description : item.description = w.description
  quantity : w.quantity.toFloat? = some item.quantity
  unitPrice : decimal? w.unitPrice = some item.unitPrice
  totalPrice : decimal? w.totalPrice = some item.totalPrice
  spendingCategory : SpendingCategory.ofCode w.spendingCategory = some item.spendingCategory
  rememberCategory : item.rememberCategory = w.rememberCategory
  explicitCategory : item.explicitCategory = true
  tags : item.tags = normalizeTags w.tags

/-- A tax, likewise. -/
structure ReadsTaxWrite (w : TaxLineWrite) (tax : TaxLine) : Prop where
  name : tax.name = w.name
  rate : tax.rate = w.rate.bind JsNumber.toFloat?
  amount : decimal? w.amount = some tax.amount

/-- The fields of a receipt, likewise: texts are as they were sent,
numbers and dates are what their texts say. -/
structure ReadsFields (w : ReceiptWrite) (r : ReceiptFields) : Prop where
  confidence : w.confidence.toInt? = some r.confidence
  merchantName : r.merchantName = w.merchantName
  merchantAddress : r.merchantAddress = w.merchantAddress
  receiptNumber : r.receiptNumber = w.receiptNumber
  date : Date.ofText w.date = some r.date
  time : r.time = w.time
  currency : r.currency = w.currency
  category : r.category.text = w.category
  taxes : List.Forall₂ ReadsTaxWrite w.taxes r.taxes
  subtotal : decimal? w.subtotal = some r.subtotal
  discountTotal : decimal? w.discountTotal = some r.discountTotal
  taxTotal : decimal? w.taxTotal = some r.taxTotal
  tip : r.tip.map some = w.tip.map decimal?
  total : decimal? w.total = some r.total
  paymentMethod : r.paymentMethod.text = w.paymentMethod

/-- A receipt, likewise. -/
structure ReadsWrite (w : ReceiptWrite) (receipt : ReceiptUpdate) : Prop
    extends ReadsFields w receipt.toReceiptFields where
  lineItems : List.Forall₂ ReadsItemWrite w.lineItems receipt.lineItems

omit [JsNumbers] in
theorem readsItemWrite {w : LineItemWrite} {item : LineItemUpdate}
    (h : w.modelValidate = .ok item) : ReadsItemWrite w item := by
  obtain ⟨category, hcategory, h⟩ := bind_eq_ok.mp h
  obtain ⟨quantity, hquantity, h⟩ := bind_eq_ok.mp h
  obtain ⟨unitPrice, hunitPrice, h⟩ := bind_eq_ok.mp h
  obtain ⟨totalPrice, htotalPrice, h⟩ := bind_eq_ok.mp h
  obtain ⟨read, hread, h⟩ := bind_eq_ok.mp h
  obtain rfl := Except.ok.inj h
  unfold LineItem.modelValidate at hread
  split at hread
  · obtain ⟨x, hx, hread⟩ := bind_eq_ok.mp hread
    obtain ⟨y, hy, hread⟩ := bind_eq_ok.mp hread
    obtain rfl := Except.ok.inj hread
    obtain rfl := PyDecimal.finite.inj (eq_of_finiteDecimal hx)
    obtain rfl := PyDecimal.finite.inj (eq_of_finiteDecimal hy)
    exact {
      id := rfl
      description := rfl
      quantity := required_eq_ok.mp hquantity
      unitPrice := required_eq_ok.mp hunitPrice
      totalPrice := required_eq_ok.mp htotalPrice
      spendingCategory := by
        have hsome := required_eq_ok.mp hcategory
        show _ = some ((SpendingCategory.ofCode w.spendingCategory).getD .unknown)
        rw [hsome]
        rfl
      rememberCategory := rfl
      explicitCategory := rfl
      tags := rfl }
  · exact absurd hread (by simp)

omit [JsNumbers] [CaseFolding] in
theorem readsTaxWrite {w : TaxLineWrite} {p : TaxLinePayload} {tax : TaxLine}
    (hp : w.payload = .ok p) (htax : TaxLine.modelValidate p = .ok tax) : ReadsTaxWrite w tax := by
  obtain ⟨amount, hamount, hp⟩ := bind_eq_ok.mp hp
  obtain rfl := Except.ok.inj hp
  obtain ⟨x, hx, htax⟩ := bind_eq_ok.mp htax
  obtain rfl := Except.ok.inj htax
  have heq := PyDecimal.finite.inj (eq_of_nonnegDecimal hx)
  exact ⟨rfl, rfl, (required_eq_ok.mp hamount).trans (congrArg some heq)⟩

omit [JsNumbers] [CaseFolding] in
/-- Two lists that go together with a third one, element by element, go
together with each other. -/
theorem forall₂_comp {α β γ : Type} {R : α → β → Prop} {S : β → γ → Prop} {T : α → γ → Prop}
    (hcomp : ∀ a b c, R a b → S b c → T a c) {l : List α} {m : List β} {n : List γ}
    (h : List.Forall₂ R l m) (h' : List.Forall₂ S m n) : List.Forall₂ T l n := by
  induction h generalizing n with
  | nil =>
    cases h'
    exact .nil
  | cons hab _ ih =>
    cases h' with
    | cons hbc hrest => exact .cons (hcomp _ _ _ hab hbc) (ih hrest)

omit [JsNumbers] in
theorem readsItemWrites {l : List LineItemWrite} {items : List LineItemUpdate}
    (h : l.mapM LineItemWrite.modelValidate = .ok items) : List.Forall₂ ReadsItemWrite l items := by
  have hall : List.Forall₂ (fun w item => LineItemWrite.modelValidate w = .ok item) l items :=
    mapM_eq_ok_iff.mp h
  refine List.Forall₂.imp (fun w item hitem => ?_) hall
  exact @readsItemWrite _ w item hitem

omit [JsNumbers] [CaseFolding] in
theorem readsTaxWrites {l : List TaxLineWrite} {payloads : List TaxLinePayload}
    {taxes : List TaxLine} (hp : l.mapM TaxLineWrite.payload = .ok payloads)
    (htax : payloads.mapM TaxLine.modelValidate = .ok taxes) :
    List.Forall₂ ReadsTaxWrite l taxes := by
  have hall : List.Forall₂ (fun w p => TaxLineWrite.payload w = .ok p) l payloads :=
    mapM_eq_ok_iff.mp hp
  refine forall₂_comp (fun w p tax hread hvalid => ?_) hall (mapM_eq_ok_iff.mp htax)
  exact @readsTaxWrite w p tax hread hvalid

omit [JsNumbers] in
/-- **What the server has read** of a body that it accepts: every field is
the one that was sent, in the order in which lines and taxes were sent. -/
theorem readsWrite {w : ReceiptWrite} {receipt : ReceiptUpdate}
    (h : w.modelValidate = .ok receipt) : ReadsWrite w receipt := by
  obtain ⟨confidence, hconfidence, h⟩ := bind_eq_ok.mp h
  obtain ⟨date, hdate, h⟩ := bind_eq_ok.mp h
  obtain ⟨lineItems, hitems, h⟩ := bind_eq_ok.mp h
  obtain ⟨taxes, htaxes, h⟩ := bind_eq_ok.mp h
  obtain ⟨subtotal, hsubtotal, h⟩ := bind_eq_ok.mp h
  obtain ⟨discountTotal, hdiscount, h⟩ := bind_eq_ok.mp h
  obtain ⟨taxTotal, htax, h⟩ := bind_eq_ok.mp h
  obtain ⟨tip, htip, h⟩ := bind_eq_ok.mp h
  obtain ⟨total, htotal, h⟩ := bind_eq_ok.mp h
  obtain ⟨read, hread, h⟩ := bind_eq_ok.mp h
  obtain rfl := Except.ok.inj h
  -- everything has been read; what validation does to it then, it does to every receipt
  have hfields := validatesFields_of_modelValidate hread
  have hlines : List.Forall₂ ReadsItemWrite w.lineItems lineItems := readsItemWrites hitems
  have htaxLines : List.Forall₂ ReadsTaxWrite w.taxes read.taxes :=
    readsTaxWrites htaxes hfields.taxes
  have hamount : ∀ {field s : String} {x y : ℚ}, required field (decimal? s) = .ok x →
      PyDecimal.finite x = .finite y → decimal? s = some y := fun hx heq =>
    (required_eq_ok.mp hx).trans (congrArg some (PyDecimal.finite.inj heq))
  exact {
    confidence := (required_eq_ok.mp hconfidence).trans (congrArg some hfields.confidence.symm)
    merchantName := hfields.merchantName
    merchantAddress := hfields.merchantAddress
    receiptNumber := hfields.receiptNumber
    date := (required_eq_ok.mp hdate).trans (congrArg some hfields.date.symm)
    time := hfields.time
    currency := hfields.currency
    category := hfields.category
    lineItems := hlines
    taxes := htaxLines
    subtotal := hamount hsubtotal hfields.subtotal
    discountTotal := hamount hdiscount hfields.discountTotal
    taxTotal := hamount htax hfields.taxTotal
    tip := by
      have heq : tip = read.tip := Option.map_injective (fun _ _ => PyDecimal.finite.inj) hfields.tip
      show read.tip.map some = _
      rw [← heq]
      cases ht : w.tip with
      | none =>
        rw [ht] at htip
        rw [← Except.ok.inj htip]
        rfl
      | some s =>
        rw [ht] at htip
        obtain ⟨x, hx, rfl⟩ := map_eq_ok htip
        rw [Option.map_some, Option.map_some, required_eq_ok.mp hx]
    total := hamount htotal hfields.total
    paymentMethod := hfields.paymentMethod }

end ReceiptForm

end VisionBill
