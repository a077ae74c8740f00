import VisionBill.Lib.Firsts
import VisionBill.UneditedFields

/-!
# What the editor lets pass, the server accepts

The editor looks at its form while it is filled in, and offers to save it
only when it has found no error. It looks at texts with regular
expressions and with the numbers of the browser; the server looks at
decimals, floats and dates of its own, and has its own bounds.

The server takes a form without errors unless its date is not in the
calendar, which the editor does not know, or the check of the total
overflows (`modelValidate_iff_of_noErrors`).

## The two sides

Neither side is a translation of the other, so the two are compared field
by field. For an amount, what the regular expression of the editor lets
pass is read by the server as a decimal that is not negative. For a
quantity, which is a number on both sides, the editor asks that it be
positive and the server reads the same number. A confidence is an integer
between the same bounds. For a date the editor asks for digits in the
right places only, and the thirty-first of February has them.

What is chosen from a list is not looked at by the editor: a payment
method and the categories. That the lists offer what the server knows is a
condition on the form (`EditorForm.Offered`).

The total is compared with the amounts that make it up by the server
alone, and the comparison is without effect: a total that is off is taken
as it is. But the decimal arithmetic has a largest exponent, and amounts
with enough digits are beyond it, which is no error that validation
reports.
-/

namespace VisionBill

section FormErrors

open DecimalText

/-! ## What the editor looks at

The errors of a form are computed from its texts alone, with regular
expressions and `Number`. They are reported by their names, and a form
with any of them is not sent. -/

/-- `INT_RE`. -/
def intRe (l : List Char) : Bool := !l.isEmpty && l.all (Numerals.isDigit 10)

/-- `DEC_RE`. -/
def decRe (l : List Char) : Bool :=
  let rest := l.dropWhile (Numerals.isDigit 10)
  !(l.takeWhile (Numerals.isDigit 10)).isEmpty && rest.head? == some '.' && !rest.tail.isEmpty
    && rest.tail.all (Numerals.isDigit 10)

/-- `isPlainDecimal`: digits, or digits with a point between them, and no
sign. -/
def isPlainDecimal : Option String → Bool
  | none => false
  | some value => intRe (jsTrim value.toList) || decRe (jsTrim value.toList)

/-- `DATE_RE`: digits in the right places, which need not be a date. -/
def dateRe (l : List Char) : Bool :=
  match l with
  | [y₁, y₂, y₃, y₄, '-', m₁, m₂, '-', d₁, d₂] =>
    [y₁, y₂, y₃, y₄, m₁, m₂, d₁, d₂].all (Numerals.isDigit 10)
  | _ => false

/-- `Number.isInteger(x)`. -/
def JsNumber.isInteger (q : JsNumber) : Bool := q.isFinite && q.value.den == 1

/-- An error that is added if there is one. The texts are keys of the
translations. -/
def reports (p : Prop) [Decidable p] (error : String) : List String := if p then [error] else []

variable [JsNumbers]

/-- The errors of a line. The description is not among the things that are
looked at here. -/
def FormLine.errors (line : FormLine) : List String :=
  let quantity := JsNumbers.number line.quantity
  reports (trimmed line.quantity = "" ∨ quantity.isFinite = false ∨ quantity.value ≤ 0)
      "editor.invalidQuantity"
    ++ reports (isSignedDecimal (some line.unitPrice) = false
      ∨ isSignedDecimal (some line.totalPrice) = false) "editor.invalidNumber"

/-- The errors of a tax. A rate may be left out; one that is given lies
between 0 and 1. -/
def FormTax.errors (tax : FormTax) : List String :=
  let rate := JsNumbers.number tax.rate
  -- unlike the optional amounts of the receipt, this one may not be left out
  reports (isPlainDecimal (some tax.amount) = false) "editor.invalidAmount"
    ++ reports (trimmed tax.rate ≠ "" ∧ (rate.isFinite = false ∨ rate.value < 0 ∨ 1 < rate.value))
      "editor.invalidRate"

/-- `errors`: each error once, in the order in which they are found. A
form with none of them can be saved, and the button is off for every other
one. -/
def EditorForm.errors (form : EditorForm) : List String :=
  let confidence := JsNumbers.number form.confidence
  Occurrences.firsts id (
    reports (trimmed form.merchantName = "") "editor.merchantRequired"
      ++ reports (dateRe form.date.toList = false) "editor.dateRequired"
      ++ [form.subtotal, form.total].flatMap (fun s =>
        reports (isSignedDecimal (some s) = false) "editor.invalidNumber")
      ++ [form.discountTotal, form.taxTotal, form.tip].flatMap (fun s =>
        reports (trimmed s ≠ "" ∧ isPlainDecimal (some s) = false) "editor.invalidAmount")
      ++ reports (trimmed form.confidence = "" ∨ confidence.isInteger = false
        ∨ confidence.value < 0 ∨ 100 < confidence.value) "editor.invalidConfidence"
      ++ form.lines.flatMap FormLine.errors
      ++ form.taxLines.flatMap FormTax.errors)

/-! ## No error

That no error is reported is the same as a number of conditions on the
texts. Here these are put together, so that what follows speaks of them
and not of the list of errors. -/

omit [JsNumbers] in
@[simp] theorem reports_eq_nil {p : Prop} [Decidable p] {error : String} :
    reports p error = [] ↔ ¬ p := by
  unfold reports
  split <;> simp [*]

omit [JsNumbers] in
theorem firsts_eq_nil {α : Type} [DecidableEq α] {l : List α} :
    Occurrences.firsts id l = [] ↔ l = [] := by
  cases l with
  | nil => exact iff_of_true rfl rfl
  | cons a l =>
    rw [Occurrences.firsts_cons]
    exact iff_of_false (List.cons_ne_nil _ _) (List.cons_ne_nil _ _)

/-- A line without errors, in terms of what the server looks at. The two
sides read the same text with different functions, which is why it is said
of the text. -/
structure FormLine.Valid (line : FormLine) : Prop where
  isFinite : (JsNumbers.number line.quantity).isFinite = true
  quantity_pos : 0 < (JsNumbers.number line.quantity).value
  unitPrice : isSignedDecimal (some line.unitPrice) = true
  totalPrice : isSignedDecimal (some line.totalPrice) = true

/-- A form without errors, as far as the server looks at it. -/
structure EditorForm.Valid (form : EditorForm) : Prop where
  date : dateRe form.date.toList = true
  subtotal : isSignedDecimal (some form.subtotal) = true
  total : isSignedDecimal (some form.total) = true
  optional : ∀ s ∈ [form.discountTotal, form.taxTotal, form.tip], trimmed s ≠ "" →
    isPlainDecimal (some s) = true
  isInteger : (JsNumbers.number form.confidence).isInteger = true
  range : 0 ≤ (JsNumbers.number form.confidence).value
    ∧ (JsNumbers.number form.confidence).value ≤ 100
  lines : ∀ line ∈ form.lines, line.Valid
  taxes : ∀ tax ∈ form.taxLines, isPlainDecimal (some tax.amount) = true

theorem FormLine.errors_eq_nil {line : FormLine} :
    line.errors = [] ↔ trimmed line.quantity ≠ "" ∧ line.Valid := by
  unfold errors
  simp only [List.append_eq_nil_iff, reports_eq_nil, not_or, Bool.not_eq_false, not_le]
  constructor
  · rintro ⟨⟨hblank, hfinite, hpos⟩, hunit, htotal⟩
    exact ⟨hblank, hfinite, hpos, hunit, htotal⟩
  · rintro ⟨hblank, h⟩
    exact ⟨⟨hblank, h.isFinite, h.quantity_pos⟩, h.unitPrice, h.totalPrice⟩

theorem FormTax.errors_eq_nil {tax : FormTax} :
    tax.errors = [] ↔ isPlainDecimal (some tax.amount) = true
      ∧ (trimmed tax.rate ≠ "" → (JsNumbers.number tax.rate).isFinite = true
        ∧ 0 ≤ (JsNumbers.number tax.rate).value ∧ (JsNumbers.number tax.rate).value ≤ 1) := by
  unfold errors
  simp only [List.append_eq_nil_iff, reports_eq_nil, not_and, not_or, Bool.not_eq_false, not_lt]

theorem EditorForm.errors_eq_nil {form : EditorForm} :
    form.errors = [] ↔ form.Valid ∧ trimmed form.merchantName ≠ ""
      ∧ trimmed form.confidence ≠ "" ∧ (∀ line ∈ form.lines, line.errors = [])
      ∧ ∀ tax ∈ form.taxLines, tax.errors = [] := by
  unfold errors
  rw [firsts_eq_nil]
  simp only [List.append_eq_nil_iff, reports_eq_nil, List.flatMap_eq_nil_iff, not_or, not_and,
    Bool.not_eq_false, not_lt]
  constructor
  · rintro ⟨⟨⟨⟨⟨⟨hname, hdate⟩, hsigned⟩, hoptional⟩, hblank, hinteger, hrange⟩, hlines⟩, htaxes⟩
    exact ⟨{
        date := hdate
        subtotal := hsigned form.subtotal (by simp)
        total := hsigned form.total (by simp)
        optional := hoptional
        isInteger := hinteger
        range := hrange
        lines := fun line hmem => (FormLine.errors_eq_nil.mp (hlines line hmem)).2
        taxes := fun tax hmem => (FormTax.errors_eq_nil.mp (htaxes tax hmem)).1 },
      hname, hblank, hlines, htaxes⟩
  · rintro ⟨h, hname, hblank, hlines, htaxes⟩
    have hsigned : ∀ s ∈ [form.subtotal, form.total], isSignedDecimal (some s) = true :=
      by simpa using ⟨h.subtotal, h.total⟩
    exact ⟨⟨⟨⟨⟨⟨hname, h.date⟩, hsigned⟩, h.optional⟩, hblank, h.isInteger, h.range⟩, hlines⟩,
      htaxes⟩

/-! ## Texts

A text that the editor lets pass is read as a number by the server. The
two sides use different grammars, and what they have in common is what is
needed. -/

omit [JsNumbers] in
/-- A plain decimal has digits, and may have a point between them. The two
patterns of the source become one shape, in which the digits behind the
point may be missing. -/
theorem plain_of_isPlainDecimal {s : String} (h : isPlainDecimal (some s) = true) :
    ∃ int frac, jsTrim s.toList = plain int frac ∧ Digits int ∧ int ≠ [] ∧ Digits frac := by
  unfold isPlainDecimal at h
  dsimp only at h
  generalize jsTrim s.toList = l at h ⊢
  rcases Bool.or_eq_true_iff.mp h with hint | hdec
  · unfold intRe at hint
    rw [Bool.and_eq_true, Bool.not_eq_true', List.isEmpty_eq_false_iff, List.all_eq_true] at hint
    exact ⟨l, [], by rw [plain, if_pos rfl, List.append_nil], hint.2, hint.1,
      fun c hc => absurd hc List.not_mem_nil⟩
  · unfold decRe at hdec
    dsimp only at hdec
    simp only [Bool.and_eq_true, Bool.not_eq_true', List.isEmpty_eq_false_iff, beq_iff_eq,
      List.all_eq_true] at hdec
    obtain ⟨⟨⟨hne, hpoint⟩, htail⟩, hfrac⟩ := hdec
    obtain ⟨frac, hrest⟩ := List.head?_eq_some_iff.mp hpoint
    rw [hrest, List.tail_cons] at htail hfrac
    refine ⟨l.takeWhile (Numerals.isDigit 10), frac, ?_, fun c hc => List.mem_takeWhile_imp hc,
      hne, hfrac⟩
    rw [plain, if_neg htail, ← hrest, List.takeWhile_append_dropWhile]

omit [JsNumbers] in
theorem toList_trimmed (s : String) : (trimmed s).toList = jsTrim s.toList := String.toList_ofList

omit [JsNumbers] in
theorem decimal?_of_isSignedDecimal {s : String} (h : isSignedDecimal (some s) = true) :
    decimal? (trimmed s) = some (amount s) := by
  unfold decimal? amount
  rw [toList_trimmed]
  exact if_pos h

omit [JsNumbers] in
/-- What the editor takes for a plain decimal is one for the server too,
and not negative. This is where the two grammars meet. -/
theorem decimal?_of_isPlainDecimal {s : String} (h : isPlainDecimal (some s) = true) :
    decimal? (trimmed s) = some (amount s) ∧ 0 ≤ amount s := by
  obtain ⟨int, frac, htext, hint, hne, hfrac⟩ := plain_of_isPlainDecimal h
  have hsigned : isSignedDecimal (some s) = true := by
    show signedRe (jsTrim s.toList) = true
    rw [htext]
    exact signedRe_signed false hint hne hfrac
  refine ⟨decimal?_of_isSignedDecimal hsigned, ?_⟩
  have hvalue : amount s = number int frac := by
    unfold amount
    rw [htext]
    exact (decimalValue_signed false hint hne).trans (one_mul _)
  rw [hvalue]
  unfold number
  positivity

omit [JsNumbers] in
theorem amount_of_blank {s : String} (h : trimmed s = "") : amount s = 0 := by
  unfold amount
  rw [← toList_trimmed, h]
  decide +kernel

omit [JsNumbers] in
/-- An amount that may be left out is then zero. The editor writes the
zero itself, so the server does not see an empty text. -/
theorem decimal?_orText {s : String} (h : trimmed s ≠ "" → isPlainDecimal (some s) = true) :
    decimal? (orText (trimmed s) "0") = some (amount s) ∧ 0 ≤ amount s := by
  unfold orText
  split
  · next hblank =>
    rw [amount_of_blank hblank]
    exact ⟨by decide +kernel, le_rfl⟩
  · next hne => exact decimal?_of_isPlainDecimal (h hne)

/-! ## What the server accepts

The server validates bounds and the total as well. For a form without
errors only two things can be missing: a date that exists, and totals
whose difference can be computed. -/

variable [CaseFolding]

omit [JsNumbers] in
theorem exists_update {w : LineItemWrite} {q : PyFloat} {category : SpendingCategory}
    {unitPrice totalPrice : ℚ} (hcategory : SpendingCategory.ofCode w.spendingCategory = some category)
    (hquantity : w.quantity.toFloat? = some q) (hpos : q.IsPos)
    (hunit : decimal? w.unitPrice = some unitPrice)
    (htotal : decimal? w.totalPrice = some totalPrice) :
    ∃ item, w.modelValidate = .ok item := by
  unfold LineItemWrite.modelValidate
  rw [hcategory, hquantity, hunit, htotal]
  simp only [required, Option.elim_some, bind, Except.bind]
  unfold LineItem.modelValidate
  rw [dif_pos hpos]
  exact ⟨_, rfl⟩

omit [JsNumbers] [CaseFolding] in
theorem payload_of_reads {w : TaxLineWrite} {tax : TaxLine} (h : ReadsTaxWrite w tax) :
    w.payload = .ok tax.modelDump := by
  unfold TaxLineWrite.payload TaxLine.modelDump
  rw [h.amount, h.name, h.rate]
  rfl

omit [JsNumbers] in
/-- **A body is accepted** with the fields that are read from it, if each
of its line items is. That the check of the total does not overflow comes
with the fields. -/
theorem modelValidate_of_reads {w : ReceiptWrite} {r : ReceiptFields} {items : List LineItemUpdate}
    (h : ReadsFields w r) (hitems : w.lineItems.mapM LineItemWrite.modelValidate = .ok items) :
    w.modelValidate = .ok {
      toReceiptFields := r, lineItems := items, collectionIds := some w.collectionIds } := by
  have htaxes : w.taxes.mapM TaxLineWrite.payload = .ok (r.taxes.map TaxLine.modelDump) := by
    refine mapM_eq_ok_iff.mpr ?_
    rw [List.forall₂_map_right_iff]
    exact List.Forall₂.imp (fun _ _ htax => payload_of_reads htax) h.taxes
  have htip : requiredOrNull "tip" w.tip = .ok r.tip := by
    have hread := h.tip
    cases hw : w.tip with
    | none =>
      rw [hw, Option.map_none, Option.map_eq_none_iff] at hread
      rw [hread]
      rfl
    | some s =>
      rw [hw, Option.map_some] at hread
      obtain ⟨x, hx, heq⟩ := Option.map_eq_some_iff.mp hread
      rw [hx, requiredOrNull, ← heq]
      rfl
  -- validating the dump of what was read gives it back
  have hdump := Receipt.modelValidate_dump r []
  unfold ReceiptFields.modelDump at hdump
  rw [h.merchantName, h.merchantAddress, h.receiptNumber, h.time, h.currency, h.category,
    h.paymentMethod] at hdump
  unfold ReceiptWrite.modelValidate
  rw [h.confidence, h.date, hitems, htaxes, h.subtotal, h.discountTotal, h.taxTotal, htip, h.total]
  simp only [required, Option.elim_some, bind, Except.bind]
  rw [List.map_nil] at hdump
  rw [hdump]
  rfl

/-- What the editor offers to choose from. A form that is filled in by
hand has no other values. It is not among the errors that the editor looks
for, since its lists do not have anything else to choose. -/
structure EditorForm.Offered (form : EditorForm) : Prop where
  category : (Category.ofText form.category).isSome
  paymentMethod : (PaymentMethod.ofText form.paymentMethod).isSome
  spendingCategory : ∀ line ∈ form.lines, (SpendingCategory.ofCode line.spendingCategory).isSome

omit [CaseFolding] [JsNumbers] in
/-- Where each element has a partner, so has the list. -/
theorem exists_forall₂ {α β : Type} {R : α → β → Prop} {l : List α} (h : ∀ a ∈ l, ∃ b, R a b) :
    ∃ m, List.Forall₂ R l m := by
  induction l with
  | nil => exact ⟨[], .nil⟩
  | cons a l ih =>
    obtain ⟨b, hb⟩ := h a List.mem_cons_self
    obtain ⟨m, hm⟩ := ih fun a' ha' => h a' (List.mem_cons_of_mem a ha')
    exact ⟨b :: m, .cons hb hm⟩

omit [CaseFolding] in
/-- A tax with a plain amount is read. -/
theorem FormTax.exists_reads {tax : FormTax} (h : isPlainDecimal (some tax.amount) = true) :
    ∃ read, ReadsTaxWrite tax.write read := by
  obtain ⟨hamount, hnonneg⟩ := decimal?_of_isPlainDecimal h
  exact ⟨⟨trimmed tax.name, tax.write.rate.bind JsNumber.toFloat?, VisionBill.amount tax.amount,
    hnonneg⟩,
    rfl, rfl, hamount⟩

omit [CaseFolding] in
/-- A quantity that is a number is read as it is: the numbers of the
browser are floats already. -/
theorem FormLine.toFloat?_quantity {line : FormLine}
    (h : (JsNumbers.number line.quantity).isFinite = true) :
    ∃ grid, line.write.quantity.toFloat?
      = some (.finite (JsNumbers.number line.quantity).value grid) := by
  obtain ⟨grid, hfloat⟩ := floatOfColumn_of_onGrid (JsNumbers.number_onGrid line.quantity)
  refine ⟨grid, ?_⟩
  rw [← hfloat]
  exact if_pos h

/-- A line without errors is accepted. -/
theorem FormLine.Valid.exists_update {line : FormLine} (h : line.Valid)
    (hoffered : (SpendingCategory.ofCode line.spendingCategory).isSome) :
    ∃ item, line.write.modelValidate = .ok item := by
  obtain ⟨category, hcategory⟩ := Option.isSome_iff_exists.mp hoffered
  obtain ⟨grid, hquantity⟩ := toFloat?_quantity h.isFinite
  exact VisionBill.exists_update hcategory hquantity h.quantity_pos
    (decimal?_of_isSignedDecimal h.unitPrice) (decimal?_of_isSignedDecimal h.totalPrice)

/-- A quantity that is read is positive. -/
theorem FormLine.quantity_pos_of_reads {line : FormLine} {item : LineItemUpdate}
    (hread : ReadsItemWrite line.write item)
    (h : (JsNumbers.number line.quantity).isFinite = true) :
    0 < (JsNumbers.number line.quantity).value := by
  obtain ⟨grid, hquantity⟩ := toFloat?_quantity h
  have hsame : item.quantity = .finite (JsNumbers.number line.quantity).value grid :=
    Option.some.inj (hread.quantity.symm.trans hquantity)
  have hpos := item.quantity_pos
  rw [hsame] at hpos
  exact hpos

omit [CaseFolding] [JsNumbers] in
/-- A tip that is plain or left out is read. -/
theorem exists_tip {s : String} (h : trimmed s ≠ "" → isPlainDecimal (some s) = true) :
    ∃ tip : Option ℚ, tip.map some = (orNull (trimmed s)).map decimal? ∧ ∀ x ∈ tip, 0 ≤ x := by
  unfold orNull
  split
  · exact ⟨none, rfl, nonneg_of_mem_none⟩
  · next hne =>
    obtain ⟨hread, hnonneg⟩ := decimal?_of_isPlainDecimal (h hne)
    refine ⟨some (amount s), congrArg some hread.symm, fun x hx => ?_⟩
    rw [← Option.some.inj hx]
    exact hnonneg

omit [CaseFolding] in
/-- A confidence without errors is an integer in its range. -/
theorem EditorForm.Valid.exists_confidence {form : EditorForm} (h : form.Valid) :
    ∃ n, (JsNumbers.number form.confidence).toInt? = some n ∧ 0 ≤ n ∧ n ≤ 100 := by
  have hinteger := h.isInteger
  unfold JsNumber.isInteger at hinteger
  rw [Bool.and_eq_true, beq_iff_eq] at hinteger
  obtain ⟨hlow, hhigh⟩ := h.range
  rw [← Rat.coe_int_num_of_den_eq_one hinteger.2] at hlow hhigh
  exact ⟨_, if_pos hinteger, by exact_mod_cast hlow, by exact_mod_cast hhigh⟩

omit [CaseFolding] in
/-- The fields of a form without errors are read, if its date is one. The
pattern of the editor lets dates pass that are not in the calendar. -/
theorem EditorForm.Valid.exists_fields [UpperCase] {form : EditorForm} (h : form.Valid)
    (hoffered : form.Offered) {date : Date} (hdate : Date.ofText form.date = some date)
    (hchecked : sanityCheckTotal (amount form.total) (amount form.subtotal) (amount form.taxTotal)
      (amount form.discountTotal) = .ok ()) : ∃ r, ReadsFields form.buildWrite r := by
  obtain ⟨category, hcategory⟩ := Option.isSome_iff_exists.mp hoffered.category
  obtain ⟨paymentMethod, hpayment⟩ := Option.isSome_iff_exists.mp hoffered.paymentMethod
  have hdiscount := decimal?_orText (h.optional form.discountTotal (by simp))
  have htax := decimal?_orText (h.optional form.taxTotal (by simp))
  obtain ⟨taxes, htaxes⟩ := exists_forall₂ fun tax hmem => FormTax.exists_reads (h.taxes tax hmem)
  obtain ⟨tip, htip, htipNonneg⟩ := exists_tip (h.optional form.tip (by simp))
  obtain ⟨confidence, hconfidence, hrange⟩ := h.exists_confidence
  exact ⟨{
      confidence := confidence
      merchantName := trimmed form.merchantName
      merchantAddress := orNull (trimmed form.merchantAddress)
      receiptNumber := orNull (trimmed form.receiptNumber)
      date := date
      time := orNull (trimmed form.time)
      currency := writtenCurrency form.currency
      category := category
      taxes := taxes
      subtotal := amount form.subtotal
      discountTotal := amount form.discountTotal
      taxTotal := amount form.taxTotal
      tip := tip
      total := amount form.total
      paymentMethod := paymentMethod
      confidence_range := hrange
      discountTotal_nonneg := hdiscount.2
      taxTotal_nonneg := htax.2
      tip_nonneg := htipNonneg
      total_checked := hchecked }, {
      confidence := hconfidence
      merchantName := rfl
      merchantAddress := by dsimp only [EditorForm.buildWrite]
      receiptNumber := by dsimp only [EditorForm.buildWrite]
      date := hdate
      time := by dsimp only [EditorForm.buildWrite]
      currency := by dsimp only [EditorForm.buildWrite]
      category := Category.text_of_ofText hcategory
      taxes := List.forall₂_map_left_iff.mpr htaxes
      subtotal := decimal?_of_isSignedDecimal h.subtotal
      discountTotal := by
        dsimp only [EditorForm.buildWrite]
        exact hdiscount.1
      taxTotal := by
        dsimp only [EditorForm.buildWrite]
        exact htax.1
      tip := by
        dsimp only [EditorForm.buildWrite]
        exact htip
      total := decimal?_of_isSignedDecimal h.total
      paymentMethod := PaymentMethod.text_of_ofText hpayment }⟩

/-- A form without errors is accepted if its date is in the calendar and
the check of the total does not overflow. Both are looked at with the
values that the server reads. -/
theorem EditorForm.Valid.modelValidate_iff [UpperCase] {form : EditorForm} (hvalid : form.Valid)
    (hoffered : form.Offered) :
    (∃ receipt, form.buildWrite.modelValidate = .ok receipt)
      ↔ (∃ date, Date.ofText form.date = some date)
        ∧ sanityCheckTotal (amount form.total) (amount form.subtotal) (amount form.taxTotal)
          (amount form.discountTotal) = .ok () := by
  have hdiscount := decimal?_orText (hvalid.optional form.discountTotal (by simp))
  have htax := decimal?_orText (hvalid.optional form.taxTotal (by simp))
  constructor
  · rintro ⟨receipt, hreceipt⟩
    have hread := readsWrite hreceipt
    have hsentDiscount := hread.discountTotal
    have hsentTax := hread.taxTotal
    dsimp only [EditorForm.buildWrite] at hsentDiscount hsentTax
    refine ⟨⟨receipt.date, hread.date⟩, ?_⟩
    -- the server has read the numbers that the editor looked at, so its check is the one here
    have hsubtotal : receipt.subtotal = amount form.subtotal := Option.some.inj
      (hread.subtotal.symm.trans (decimal?_of_isSignedDecimal hvalid.subtotal))
    have htotal : receipt.total = amount form.total := Option.some.inj
      (hread.total.symm.trans (decimal?_of_isSignedDecimal hvalid.total))
    have hdiscountTotal : receipt.discountTotal = amount form.discountTotal :=
      Option.some.inj (hsentDiscount.symm.trans hdiscount.1)
    have htaxTotal : receipt.taxTotal = amount form.taxTotal :=
      Option.some.inj (hsentTax.symm.trans htax.1)
    rw [← hsubtotal, ← htotal, ← hdiscountTotal, ← htaxTotal]
    exact receipt.total_checked
  · rintro ⟨⟨date, hdate⟩, hchecked⟩
    obtain ⟨r, hr⟩ := hvalid.exists_fields hoffered hdate hchecked
    have hlines : ∀ w ∈ form.buildWrite.lineItems, ∃ item, w.modelValidate = .ok item := by
      intro w hw
      obtain ⟨line, hline, rfl⟩ := List.mem_map.mp hw
      exact (hvalid.lines line hline).exists_update (hoffered.spendingCategory line hline)
    obtain ⟨items, hitems⟩ := mapM_isOk hlines
    exact ⟨_, modelValidate_of_reads hr hitems⟩

/-- **What the editor lets pass, the server accepts**, unless the date is
not in the calendar or the check of the total overflows. -/
theorem modelValidate_iff_of_noErrors [UpperCase] {form : EditorForm} (herrors : form.errors = [])
    (hoffered : form.Offered) :
    (∃ receipt, form.buildWrite.modelValidate = .ok receipt)
      ↔ (∃ date, Date.ofText form.date = some date)
        ∧ sanityCheckTotal (amount form.total) (amount form.subtotal) (amount form.taxTotal)
          (amount form.discountTotal) = .ok () := by
  obtain ⟨hvalid, -⟩ := EditorForm.errors_eq_nil.mp herrors
  exact hvalid.modelValidate_iff hoffered

end FormErrors

/-! ## At the kiosk -/

section KioskForm

local instance asciiFoldingOfForm : CaseFolding := asciiFolding

local instance plainNumbersOfForm : JsNumbers := plainNumbers

local instance asciiUpperCaseOfForm : UpperCase := ⟨String.toUpper⟩

/-- What is filled in at the kiosk. There are blanks around texts, an
empty tip, a line with a negative total and a tag that is blank: all of
this is let pass. -/
def kioskForm : EditorForm where
  confidence := "90"
  merchantName := " Kiosk"
  merchantAddress := ""
  receiptNumber := ""
  date := "2024-02-29"
  time := "09:05"
  currency := "eur"
  category := "grocery"
  paymentMethod := "cash"
  subtotal := "2.50"
  discountTotal := " "
  taxTotal := "0.25"
  tip := ""
  total := " 2.5"
  lines := [⟨none, "Papers", "2", "1.25", "-2.50", "unknown", true, ["news", " "]⟩]
  taxLines := [⟨"VAT", "", "0.25"⟩]
  collectionIds := []

/-- The form of the kiosk is accepted. -/
theorem modelValidate_iff_of_noErrors_kiosk :
    kioskForm.errors = [] ∧ ∃ receipt, kioskForm.buildWrite.modelValidate = .ok receipt := by
  have herrors : kioskForm.errors = [] := by decide +kernel
  have hdate : (Date.ofText kioskForm.date).isSome := by decide +kernel
  exact ⟨herrors, (modelValidate_iff_of_noErrors herrors
    ⟨by decide +kernel, by decide +kernel, by decide +kernel⟩).mpr
      ⟨Option.isSome_iff_exists.mp hdate, by decide +kernel⟩⟩

end KioskForm

end VisionBill
