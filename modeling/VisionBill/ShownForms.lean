import VisionBill.FormErrors

/-!
# What is shown and not edited

A receipt that was stored is shown in the form of the editor, with its
amounts, numbers and dates as texts. The editor then looks at these texts
like at those that are put in, and if nothing is edited the server reads
them back.

So a receipt can be stored and then not be saved again: the editor asks
for the name of a merchant, which the server does not, wants rates between
zero and one, where a column holds up to a hundred, and a quantity may
have been rounded to zero. Nothing else keeps it, and only the last the
server refuses (`unedited_of_run`).

Why nothing else does, is a matter of each field: an amount is shown with
two decimals and a sign if it has one, which is what the editor wants to
see; a date is shown as it asks for it; what is chosen from a list is
stored as one of its entries. And the check of the total was passed when
the receipt was stored and passes again with the amounts as they were
rounded on their way into the columns, because these are too small for it
to overflow (`ReceiptWithDetails.Written.total_checked`).

All of this needs to know where the stored values come from: a row holds
what some column has returned (`LineItemRecord.Written`,
`TaxRecord.Written`), and that is so of every row in every state that is
reached.
-/

namespace VisionBill

section ShownForms

open DecimalText

/-! ## Texts

The server writes amounts, dates and times in one form, and the editor
lets all of these pass. -/

theorem isPlainDecimal_of_plain {s : String} {int frac : List Char} (hs : s.toList = plain int frac)
    (hint : Digits int) (hne : int ≠ []) (hfrac : Digits frac) : isPlainDecimal (some s) = true := by
  have htrim : jsTrim s.toList = plain int frac := by
    rw [hs]
    exact jsTrim_eq_self (isJsSpace_signed false hint hfrac)
  unfold isPlainDecimal
  dsimp only
  rw [htrim, Bool.or_eq_true]
  unfold plain
  by_cases hempty : frac = []
  · rw [if_pos hempty, List.append_nil]
    refine .inl ?_
    unfold intRe
    rw [Bool.and_eq_true, Bool.not_eq_true', List.isEmpty_eq_false_iff, List.all_eq_true]
    exact ⟨hne, hint⟩
  · rw [if_neg hempty]
    refine .inr ?_
    unfold decRe
    dsimp only
    rw [List.takeWhile_append_of_pos hint, List.dropWhile_append_of_pos hint,
      List.takeWhile_cons_of_neg (by decide), List.dropWhile_cons_of_neg (by decide),
      List.append_nil, List.tail_cons]
    have hall : frac.all (Numerals.isDigit 10) = true := List.all_eq_true.mpr hfrac
    simp [hne, hempty, hall]

/-- A stored amount is shown as a decimal, with a sign if it has one. -/
theorem isSignedDecimal_amountText (x : ℚ) : isSignedDecimal (some (amountText x)) = true := by
  obtain ⟨negative, int, frac, heq, hint, hne, hfrac⟩ := fixed_eq (x * 10 ^ 2).num 2
  show signedRe (jsTrim (amountText x).toList) = true
  rw [trimmed_amountText, amountText, String.toList_ofList, heq]
  exact signedRe_signed negative hint hne hfrac

/-- And as a plain one if it is not negative. -/
theorem isPlainDecimal_amountText {x : ℚ} (hx : 0 ≤ x) :
    isPlainDecimal (some (amountText x)) = true := by
  have hnum : ¬ (x * 10 ^ 2).num < 0 := not_lt.mpr (Rat.num_nonneg.mpr (by positivity))
  have htext : (amountText x).toList = signed (decide ((x * 10 ^ 2).num < 0)) _ :=
    String.toList_ofList
  rw [decide_eq_false hnum] at htext
  exact isPlainDecimal_of_plain htext (digits_toDigits _) Nat.toDigits_ne_nil (digits_fixed _ _)

/-- A stored amount is read as it is shown. -/
theorem amount_amountText {x : ℚ} (hx : HasPlaces 2 x) : amount (amountText x) = x := by
  have hread := decimal?_of_isSignedDecimal (isSignedDecimal_amountText x)
  rw [trim_amountText, decimal?_amountText hx] at hread
  exact (Option.some.inj hread).symm

/-- A date is shown as the editor expects it. Years are padded to four
digits, and no year of the calendar has more. -/
theorem dateRe_isoformat (d : Date) : dateRe d.isoformat.toList = true := by
  obtain ⟨hyear, hmonth, hday⟩ := d.lt_pow
  have hlen := length_padStart (by decide : 0 < 4) hyear
  have hlenMonth := length_padStart two_pos hmonth
  have hlenDay := length_padStart two_pos hday
  have hdigits : Digits (padStart 4 d.year ++ (padStart 2 d.month ++ padStart 2 d.day)) :=
    (digits_padStart 4 d.year).append ((digits_padStart 2 d.month).append (digits_padStart 2 d.day))
  rw [d.toList_isoformat]
  generalize padStart 4 d.year = y at hlen hdigits
  generalize padStart 2 d.month = m at hlenMonth hdigits
  generalize padStart 2 d.day = e at hlenDay hdigits
  match y, m, e, hlen, hlenMonth, hlenDay with
  | [y₁, y₂, y₃, y₄], [m₁, m₂], [e₁, e₂], _, _, _ => exact List.all_eq_true.mpr hdigits

/-! ## Rows

A row that was written holds numbers in their bounds, but a quantity may
be zero and a rate may be above one. These are what the editor objects
to. -/

variable [CaseFolding] [JsNumbers]

/-- A stored quantity is shown as a number. -/
theorem LineItemRecord.Written.number_shown {row : LineItemRecord} (h : row.Written) :
    (JsNumbers.number (FormLine.ofRow row).quantity).isFinite = true
      ∧ (JsNumbers.number (FormLine.ofRow row).quantity).value = row.quantity := by
  obtain ⟨_, _, _, item, decision, hwritten⟩ := h
  obtain ⟨hplaces, hplain⟩ := isPlain_of_quantityColumn (lineItemRecord_spec hwritten).quantity
  exact VisionBill.number_shown hplaces hplain

/-- A stored line is shown without an error exactly if its quantity is
positive. -/
theorem FormLine.valid_ofRow {row : LineItemRecord} (h : row.Written) :
    (FormLine.ofRow row).Valid ↔ 0 < row.quantity := by
  obtain ⟨hfinite, hvalue⟩ := h.number_shown
  constructor
  · intro hvalid
    exact hvalue ▸ hvalid.quantity_pos
  · intro hpos
    exact ⟨hfinite, hvalue.symm ▸ hpos, isSignedDecimal_amountText _, isSignedDecimal_amountText _⟩

/-- A stored line is shown with an error if its quantity was rounded to
zero. -/
theorem FormLine.errors_ofRow {row : LineItemRecord} (h : row.Written) :
    (FormLine.ofRow row).errors = [] ↔ 0 < row.quantity := by
  have hblank : trimmed (FormLine.ofRow row).quantity ≠ "" := JsNumber.trimmed_text_ne _
  rw [errors_eq_nil, valid_ofRow h]
  exact and_iff_right hblank

/-- A rate that the editor takes: it lies between zero and one. One that
is no number is not shown, and an empty input is taken as well. -/
def PyDecimal.IsRate : PyDecimal → Prop
  | .finite x => 0 ≤ x ∧ x ≤ 1
  | _ => True

instance : DecidablePred PyDecimal.IsRate
  | .finite x => inferInstanceAs (Decidable (0 ≤ x ∧ x ≤ 1))
  | .nan => inferInstanceAs (Decidable True)
  | .inf _ => inferInstanceAs (Decidable True)

omit [CaseFolding] in
/-- A rate is shown with an error if it is none. The column has more
decimals than the bounds, so that a rate above one can be stored, and is
shown. -/
theorem isRate_of_rateColumn {q : PyFloat} {rate : PyDecimal} (h : rateColumn q = .ok rate) :
    (trimmed (rateText rate) ≠ "" → (JsNumbers.number (rateText rate)).isFinite = true
      ∧ 0 ≤ (JsNumbers.number (rateText rate)).value
      ∧ (JsNumbers.number (rateText rate)).value ≤ 1) ↔ rate.IsRate := by
  obtain rfl | ⟨x, rfl, hplaces, hplain⟩ := rateColumn_cases h
  · exact iff_of_true (fun hblank => absurd (by decide) hblank) trivial
  · obtain ⟨hfinite, hvalue⟩ := number_shown hplaces hplain
    have hblank : trimmed (rateText (.finite x)) ≠ "" := JsNumber.trimmed_text_ne _
    rw [imp_iff_right hblank]
    dsimp only [rateText]
    rw [hfinite, hvalue]
    exact and_iff_right rfl

omit [CaseFolding] [JsNumbers] in
/-- A stored tax has an amount that is plain when it is shown. -/
theorem TaxRecord.Written.plain {row : TaxRecord} (h : row.Written) :
    isPlainDecimal (some (FormTax.ofRow row).amount) = true := by
  obtain ⟨_, _, tax, hwritten⟩ := h
  exact isPlainDecimal_amountText
    ((amountColumn_spec (taxRecord_spec hwritten).amount).2.2 tax.amount_nonneg)

omit [CaseFolding] in
/-- A stored tax is shown with an error if its rate is none. Name and
amount are what the form wants them to be. -/
theorem FormTax.errors_ofRow {row : TaxRecord} (h : row.Written) :
    (FormTax.ofRow row).errors = [] ↔ ∀ rate ∈ row.rate, rate.IsRate := by
  rw [errors_eq_nil, and_iff_right h.plain]
  obtain ⟨_, _, tax, hwritten⟩ := h
  have hcolumn := (taxRecord_spec hwritten).rate
  dsimp only [FormTax.ofRow]
  cases hrate : tax.rate with
  | none =>
    rw [hrate] at hcolumn
    rw [← Except.ok.inj hcolumn]
    exact iff_of_true (fun hblank => absurd (by decide) hblank) (by simp)
  | some q =>
    rw [hrate] at hcolumn
    obtain ⟨rate, hq, hsome⟩ := map_eq_ok hcolumn
    rw [← hsome, Option.elim_some, isRate_of_rateColumn hq]
    simp

/-! ## Receipts

A form that nobody has edited has the errors of its rows, and one more if
there is no merchant. Sent anyway, it is accepted by the server unless a
quantity is zero. -/

variable {details : ReceiptWithDetails}

/-- What is shown has errors as far as the server looks at it only if a
quantity was rounded to zero. -/
theorem ReceiptWithDetails.Written.valid_iff (h : details.Written) :
    (buildForm details).Valid ↔ ∀ row ∈ details.lineItems, 0 < row.quantity := by
  obtain ⟨old, hold⟩ := h.receipt
  obtain ⟨hheader, htotals⟩ := ReceiptFields.values_spec hold
  have hrange : 0 ≤ details.receipt.confidence ∧ details.receipt.confidence ≤ 100 :=
    hheader.confidence ▸ old.confidence_range
  obtain ⟨hfinite, hvalue⟩ := percent_shown hrange
  have hdiscount := (amountColumn_spec htotals.discountTotal).2.2 old.discountTotal_nonneg
  have htaxTotal := (amountColumn_spec htotals.taxTotal).2.2 old.taxTotal_nonneg
  constructor
  · intro hvalid row hrow
    exact (FormLine.valid_ofRow (h.lineItems row hrow)).mp
      (hvalid.lines _ (List.mem_map_of_mem hrow))
  · intro hpos
    exact {
      date := dateRe_isoformat _
      subtotal := isSignedDecimal_amountText _
      total := isSignedDecimal_amountText _
      optional := by
        simp only [List.mem_cons, List.not_mem_nil, or_false]
        rintro s (rfl | rfl | rfl) hblank
        · exact isPlainDecimal_amountText hdiscount
        · exact isPlainDecimal_amountText htaxTotal
        · -- a tip that is missing is shown as a blank text, which is none of the editor's errors
          dsimp only [buildForm] at hblank ⊢
          cases htip : details.receipt.tip with
          | none =>
            rw [htip] at hblank
            exact absurd (by decide) hblank
          | some x => exact isPlainDecimal_amountText (htotals.tip_spec.2 x htip).2
      isInteger := by
        unfold JsNumber.isInteger
        dsimp only [buildForm]
        rw [hfinite, hvalue, Rat.den_intCast]
        rfl
      range := by
        dsimp only [buildForm]
        rw [hvalue]
        exact_mod_cast hrange
      lines := by
        intro line hline
        obtain ⟨row, hrow, rfl⟩ := List.mem_map.mp hline
        exact (FormLine.valid_ofRow (h.lineItems row hrow)).mpr (hpos row hrow)
      taxes := by
        intro tax htax
        obtain ⟨row, hrow, rfl⟩ := List.mem_map.mp htax
        exact (h.taxes row hrow).plain }

omit [JsNumbers] in
/-- What is shown was offered. Categories and payment methods are stored
as the texts of the ones there are, which are also those that the page
offers. -/
theorem ReceiptWithDetails.Written.offered (h : details.Written) : (buildForm details).Offered := by
  obtain ⟨old, hold⟩ := h.receipt
  obtain ⟨hheader, -⟩ := ReceiptFields.values_spec hold
  refine ⟨?_, ?_, ?_⟩
  · dsimp only [buildForm]
    rw [hheader.category, Category.ofText_text]
    rfl
  · dsimp only [buildForm]
    rw [hheader.paymentMethod, PaymentMethod.ofText_text]
    rfl
  · intro line hline
    obtain ⟨row, hrow, rfl⟩ := List.mem_map.mp hline
    dsimp only [FormLine.ofRow]
    rw [SpendingCategory.ofCode_code]
    rfl

omit [JsNumbers] in
/-- The totals that are shown pass the check of the total: amounts of the
columns are far from the largest exponent. -/
theorem ReceiptWithDetails.Written.total_checked (h : details.Written) :
    sanityCheckTotal (amount (buildForm details).total) (amount (buildForm details).subtotal)
      (amount (buildForm details).taxTotal) (amount (buildForm details).discountTotal)
        = .ok () := by
  obtain ⟨old, hold⟩ := h.receipt
  obtain ⟨-, htotals⟩ := ReceiptFields.values_spec hold
  dsimp only [buildForm]
  rw [amount_amountText (hasPlaces_of_floatColumn htotals.total),
    amount_amountText (hasPlaces_of_floatColumn htotals.subtotal),
    amount_amountText (hasPlaces_of_floatColumn htotals.taxTotal),
    amount_amountText (hasPlaces_of_floatColumn htotals.discountTotal)]
  exact sanityCheckTotal_of_le (amountColumn_spec htotals.total).1
    (amountColumn_spec htotals.subtotal).1 (amountColumn_spec htotals.taxTotal).1
    (amountColumn_spec htotals.discountTotal).1

/-- The errors of what is shown. All that a stored receipt can have are a
blank merchant, a quantity of zero and a rate that is none. -/
theorem ReceiptWithDetails.Written.errors_eq_nil (h : details.Written) :
    (buildForm details).errors = [] ↔ trimmed details.receipt.merchantName ≠ ""
      ∧ (∀ row ∈ details.lineItems, 0 < row.quantity)
      ∧ ∀ tax ∈ details.taxes, ∀ rate ∈ tax.rate, rate.IsRate := by
  have hconfidence : trimmed (buildForm details).confidence ≠ "" := JsNumber.trimmed_text_ne _
  have hlines : (∀ line ∈ (buildForm details).lines, line.errors = [])
      ↔ ∀ row ∈ details.lineItems, 0 < row.quantity := by
    refine List.forall_mem_map.trans ?_
    exact forall₂_congr fun row hrow => FormLine.errors_ofRow (h.lineItems row hrow)
  have htaxes : (∀ tax ∈ (buildForm details).taxLines, tax.errors = [])
      ↔ ∀ tax ∈ details.taxes, ∀ rate ∈ tax.rate, rate.IsRate := by
    refine List.forall_mem_map.trans ?_
    exact forall₂_congr fun row hrow => FormTax.errors_ofRow (h.taxes row hrow)
  rw [EditorForm.errors_eq_nil, h.valid_iff, hlines, htaxes]
  constructor
  · rintro ⟨-, hname, -, hpos, hrates⟩
    exact ⟨hname, hpos, hrates⟩
  · rintro ⟨hname, hpos, hrates⟩
    exact ⟨hpos, hname, hconfidence, hpos, hrates⟩

/-- What is shown is accepted if no quantity was rounded to zero. The
server asks for less than the editor: a blank merchant passes. -/
theorem ReceiptWithDetails.Written.modelValidate_iff [UpperCase] (h : details.Written) :
    (∃ receipt, (buildForm details).buildWrite.modelValidate = .ok receipt)
      ↔ ∀ row ∈ details.lineItems, 0 < row.quantity := by
  constructor
  · rintro ⟨receipt, hreceipt⟩ row hrow
    have hlines := (readsWrite hreceipt).lineItems
    obtain ⟨hfinite, hvalue⟩ := (h.lineItems row hrow).number_shown
    have hmem : (FormLine.ofRow row).write ∈ (buildForm details).buildWrite.lineItems :=
      List.mem_map_of_mem (List.mem_map_of_mem hrow)
    -- the line of this row has been read at its own place
    obtain ⟨i, hi⟩ := List.get_of_mem hmem
    have hitem := hlines.get i.isLt (hlines.length_eq ▸ i.isLt)
    rw [Fin.eta, hi] at hitem
    exact hvalue ▸ FormLine.quantity_pos_of_reads hitem hfinite
  · intro hpos
    exact ((h.valid_iff.mpr hpos).modelValidate_iff h.offered).mpr
      ⟨⟨_, Date.ofText_isoformat _⟩, h.total_checked⟩

omit [JsNumbers] in
/-- A quantity is stored of a positive number, and may be rounded to zero.
Rounding to four decimals does not change its sign otherwise. -/
theorem LineItemRecord.Written.quantity_nonneg {row : LineItemRecord} (h : row.Written) :
    0 ≤ row.quantity := by
  obtain ⟨newId, receiptId, index, item, decision, hrow⟩ := h
  have hquantity := (lineItemRecord_spec hrow).quantity
  have hpos := item.quantity_pos
  unfold quantityColumn at hquantity
  split at hquantity
  · next x grid heq =>
    obtain ⟨r, hr, heq', -⟩ := floatColumn_spec hquantity
    rw [heq] at hpos
    rw [heq', float_eq_some hr]
    exact Rounding.halfAway_nonneg (by norm_num) (Rounding.floatRound_nonneg (le_of_lt hpos))
  · exact absurd hquantity (by simp)

/-- **A receipt that is shown and not edited** has an error exactly if its
merchant has no name, a quantity was rounded to zero or a rate is none,
and the server takes it back unless a quantity was. Quantities are never
negative, so those that are not positive are zero. -/
theorem unedited_of_run [UpperCase] {settings : Settings} {files : Files} {clock : Timestamp}
    {s : Threads Op.Ret Exn World}
    (run : Transition.Reachable (TenantStep settings) ⟨World.initial files clock, []⟩ s)
    {reader : Caller} {receiptId : UUID}
    (hshown : s.shared.db.getReceiptWithDetails reader receiptId = some details) :
    (∀ row ∈ details.lineItems, 0 ≤ row.quantity)
      ∧ ((buildForm details).errors = [] ↔ trimmed details.receipt.merchantName ≠ ""
        ∧ (∀ row ∈ details.lineItems, 0 < row.quantity)
        ∧ ∀ tax ∈ details.taxes, ∀ rate ∈ tax.rate, rate.IsRate)
      ∧ ((∃ receipt, (buildForm details).buildWrite.modelValidate = .ok receipt)
        ↔ ∀ row ∈ details.lineItems, 0 < row.quantity) := by
  have hwritten := (written_of_run run).shown hshown
  exact ⟨fun row hrow => (hwritten.lineItems row hrow).quantity_nonneg, hwritten.errors_eq_nil,
    hwritten.modelValidate_iff⟩

end ShownForms

/-! ## At the kiosk -/

section KioskShown

local instance asciiFoldingOfShown : CaseFolding := asciiFolding

local instance plainNumbersOfShown : JsNumbers := plainNumbers

local instance asciiUpperCaseOfShown : UpperCase := ⟨String.toUpper⟩

/-- What its owner is shown, if it can be saved as it is. -/
def Db.savableKiosk (db : Db) : Option ReceiptWithDetails :=
  (db.getReceiptWithDetails ⟨1, false⟩ 2).filter fun details =>
    trimmed details.receipt.merchantName ≠ "" ∧ (∀ row ∈ details.lineItems, 0 < row.quantity)
      ∧ ∀ tax ∈ details.taxes, ∀ rate ∈ tax.rate, rate.IsRate

/-- The receipt of the kiosk is shown without errors and taken back. It
has been uploaded and analysed in this run, so the state is one that is
reached. -/
theorem unedited_of_run_kiosk :
    ∃ s details, Transition.Reachable (TenantStep plainSettings)
        ⟨World.initial photoFiles 0, []⟩ s
      ∧ s.shared.db.getReceiptWithDetails ⟨1, false⟩ 2 = some details
      ∧ (buildForm details).errors = []
      ∧ ∃ receipt, (buildForm details).buildWrite.modelValidate = .ok receipt := by
  obtain ⟨s, run, hsavable⟩ :
      ∃ s, Transition.Reachable (TenantStep plainSettings) ⟨World.initial photoFiles 0, []⟩ s
        ∧ s.shared.db.savableKiosk.isSome = true :=
    Transition.Run.of_exec uploadingKiosk (by decide +kernel)
  obtain ⟨details, hsavable⟩ := Option.isSome_iff_exists.mp hsavable
  obtain ⟨hshown, hgood⟩ := Option.filter_eq_some_iff.mp hsavable
  obtain ⟨-, herrors, haccepted⟩ := unedited_of_run run hshown
  have hgood := of_decide_eq_true hgood
  exact ⟨s, details, run, hshown, herrors.mpr hgood, haccepted.mpr hgood.2.1⟩

end KioskShown

end VisionBill
