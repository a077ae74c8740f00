import VisionBill.PutReceipt
import VisionBill.ReceiptForm
import VisionBill.SavedItems
import VisionBill.StoredRows
import VisionBill.Tags

/-!
# What is not edited is not changed

The editor sends the whole receipt back, whatever was edited of it, and
the server replaces what it has stored. On the way out a number becomes a
text and on the way back it becomes a float and then a column again, so
that a receipt could change by being looked at and saved.

It does not. In every state that is reached, each field that the user has
left as it was shown is stored again as what was shown, down to the last
decimal (`keeps_of_run`): texts are trimmed, and that is all. This is so
whatever others have stored in the meantime, which is then overwritten.

Two columns of a line item are not shown. What it was first called stays
what it is when the form is saved, unless it is blank, for then the
description takes its place. Where its category comes from stays what it
is if the category in the form is the one that is stored at that time and
is not to be remembered; a category that another user has changed in
between is changed back, and counts as the choice of whoever saves.

The links of the receipt are not the business of `update_receipt` and are
untouched by it. The editor sends the collections along, and the request
replaces the links by these in a step of its own, after this one.
-/

namespace VisionBill

section UneditedFields

open DecimalText

/-! ## Trimming -/

theorem trimmed_eq_self {s : String} (h : ∀ c ∈ s.toList, isJsSpace c = false) : trimmed s = s := by
  unfold trimmed
  rw [jsTrim_eq_self h, String.ofList_toList]

theorem length_trimmed_le (s : String) : (trimmed s).toList.length ≤ s.toList.length := by
  unfold trimmed jsTrim
  rw [String.toList_ofList]
  exact (List.rdropWhile_prefix _ _).length_le.trans (List.dropWhile_suffix _).length_le

/-- What is more than white space is not blank. Trimming only takes
characters off at the ends that are white space. -/
theorem trimmed_ne_empty {s : String} (h : ∃ c ∈ s.toList, isJsSpace c = false) : trimmed s ≠ "" := by
  obtain ⟨c, hc, hspace⟩ := h
  intro hempty
  have hnil : jsTrim s.toList = [] := by
    have htoList := congrArg String.toList hempty
    rwa [trimmed, String.toList_ofList] at htoList
  have hall := List.rdropWhile_eq_nil_iff.mp hnil
  have hdrop : s.toList.dropWhile isJsSpace = [] := by
    rw [← List.takeWhile_append_dropWhile (p := isJsSpace) (l := s.toList)] at hc
    by_contra hne
    exact absurd (hall _ (List.head_mem hne)) (by simp [List.head_dropWhile_not])
  exact absurd (List.dropWhile_eq_nil_iff.mp hdrop c hc) (by simp [hspace])

/-- A number has some character that is no white space. So its text is not
blank, and the form does not send zero or `null` for it. -/
theorem JsNumber.exists_mem_positional (digits : ℕ) (k : ℤ) :
    ∃ c ∈ positional (Nat.toDigits 10 digits) k, isJsSpace c = false := by
  obtain ⟨d, ds, hds⟩ := List.exists_cons_of_ne_nil (Nat.toDigits_ne_nil (n := digits) (b := 10))
  have hdigit : isJsSpace d = false := isJsSpace_of_isDigit
    (digits_toDigits digits d (by rw [hds]; exact List.mem_cons_self))
  unfold positional
  split
  · exact ⟨d, by rw [hds]; exact List.mem_cons_self, hdigit⟩
  · split
    · exact ⟨'.', List.mem_append_right _ List.mem_cons_self, by decide⟩
    · split
      · exact ⟨'0', List.mem_cons_self, by decide⟩
      · dsimp only
        split
        · exact ⟨'e', List.mem_append_right _ List.mem_cons_self, by decide⟩
        · exact ⟨'e', List.mem_append_right _ List.mem_cons_self, by decide⟩

/-- A number is not blank. So a rate that was shown is sent as a number,
and not as `null`. -/
theorem JsNumber.trimmed_text_ne (q : JsNumber) : trimmed (String.ofList q.text) ≠ "" := by
  have hsigned : ∀ {negative : Bool} {l : List Char} {c : Char}, c ∈ l → c ∈ signed negative l := by
    intro negative l c hc
    cases negative with
    | false => exact hc
    | true => exact List.mem_cons_of_mem _ hc
  refine trimmed_ne_empty ?_
  rw [String.toList_ofList]
  cases q with
  | nan => exact ⟨'N', by decide, by decide⟩
  | infinity negative => exact ⟨'I', hsigned (by decide), by decide⟩
  | zero => exact ⟨'0', by decide, by decide⟩
  | finite negative digits exponent _ =>
    obtain ⟨c, hc, hspace⟩ := exists_mem_positional digits
      (exponent + (Nat.toDigits 10 digits).length)
    exact ⟨c, hsigned hc, hspace⟩

theorem Time.trimmed_isoformat (t : Time) : trimmed t.isoformat = t.isoformat := by
  refine trimmed_eq_self fun c hc => ?_
  rw [toList_isoformat] at hc
  rcases mem_clock hc with hdigit | rfl | rfl
  · exact isJsSpace_of_isDigit hdigit
  · decide
  · decide

theorem Time.isoformat_ne (t : Time) : t.isoformat ≠ "" := by
  intro h
  have hread := t.fromisoformat_isoformat
  have hnone : fromisoformat "" = none := by decide
  rw [h, hnone] at hread
  exact absurd hread (by simp)

theorem amountText_ne {x : ℚ} (hx : HasPlaces 2 x) : amountText x ≠ "" := by
  intro h
  have hread := decimal?_amountText hx
  have hnone : decimal? "" = none := by decide
  rw [h, hnone] at hread
  exact absurd hread (by simp)

theorem trim_amountText (x : ℚ) : trimmed (amountText x) = amountText x := by
  unfold trimmed
  rw [trimmed_amountText, String.ofList_toList]

/-! ## What is kept

The specification compares what is stored after the save with what was
shown, field by field, for those fields that are in the form as they were
shown. -/

variable [CaseFolding] [JsNumbers] [UpperCase]

/-- The values of a receipt that is saved, against those that were shown:
what is still in the form as it was shown is stored as it was shown. -/
structure KeepsValues (details : ReceiptWithDetails) (form : EditorForm) (v : ReceiptValues) :
    Prop where
  confidence : form.confidence = (buildForm details).confidence →
    v.confidence = details.receipt.confidence
  merchantName : form.merchantName = (buildForm details).merchantName →
    v.merchantName = trimmed details.receipt.merchantName
  merchantAddress : form.merchantAddress = (buildForm details).merchantAddress →
    v.merchantAddress = orNull (trimmed (details.receipt.merchantAddress.getD ""))
  receiptNumber : form.receiptNumber = (buildForm details).receiptNumber →
    v.receiptNumber = orNull (trimmed (details.receipt.receiptNumber.getD ""))
  date : form.date = (buildForm details).date → v.date = details.receipt.date
  time : form.time = (buildForm details).time → v.time = details.receipt.time
  /-- A currency that is in upper case. -/
  currency : form.currency = (buildForm details).currency →
    writtenCurrency form.currency = details.receipt.currency →
      v.currency = details.receipt.currency
  category : form.category = (buildForm details).category → v.category = details.receipt.category
  paymentMethod : form.paymentMethod = (buildForm details).paymentMethod →
    v.paymentMethod = details.receipt.paymentMethod
  subtotal : form.subtotal = (buildForm details).subtotal → v.subtotal = details.receipt.subtotal
  discountTotal : form.discountTotal = (buildForm details).discountTotal →
    v.discountTotal = details.receipt.discountTotal
  taxTotal : form.taxTotal = (buildForm details).taxTotal → v.taxTotal = details.receipt.taxTotal
  tip : form.tip = (buildForm details).tip → v.tip = details.receipt.tip
  total : form.total = (buildForm details).total → v.total = details.receipt.total

/-- **What a line of the form keeps** of the old row that it is saved
over, and of the row that was shown, which need not be the same: others
may have stored another description or category under the id meanwhile.
The first four columns are not in the form. What is stored in the others
is what was shown, if it was not edited. -/
structure KeepsItem (line : FormLine) (shown old row : LineItemRecord) : Prop where
  id : row.id = old.id
  receiptId : row.receiptId = old.receiptId
  /-- It is not shown and kept, but if it is blank the old description
  takes its place. -/
  originalDescription : row.originalDescription
    = if old.originalDescription = "" then old.description else old.originalDescription
  /-- It is kept if the category in the form is the one that is stored
  when the form is saved, and need not be remembered. Otherwise the
  category counts as the user's, also where it was not edited and somebody
  else has changed it. -/
  categorySource : line.spendingCategory = old.spendingCategory.code →
    line.rememberCategory = false → row.categorySource = old.categorySource
  description : line.description = (FormLine.ofRow shown).description →
    row.description = trimmed shown.description
  quantity : line.quantity = (FormLine.ofRow shown).quantity → row.quantity = shown.quantity
  unitPrice : line.unitPrice = (FormLine.ofRow shown).unitPrice → row.unitPrice = shown.unitPrice
  totalPrice : line.totalPrice = (FormLine.ofRow shown).totalPrice →
    row.totalPrice = shown.totalPrice
  spendingCategory : line.spendingCategory = (FormLine.ofRow shown).spendingCategory →
    row.spendingCategory = shown.spendingCategory
  tags : line.tags = (FormLine.ofRow shown).tags → (∀ tag ∈ shown.tags, trimmed tag = tag) →
    row.tags = shown.tags

/-- A line of the form that was saved, with its index. Nothing is said of
a line that was added, but that it is at its place. -/
structure KeepsLine (details : ReceiptWithDetails) (db : Db) (receiptId : UUID)
    (line : FormLine × ℕ) (row : LineItemRecord) : Prop where
  position : row.position = line.2
  /-- A line of a row that was shown is saved over the row that has its
  place. -/
  shown : ∀ shown ∈ details.lineItems, line.1.id = some shown.id →
    ∃ old ∈ db.listLineItems receiptId, old.id = shown.id ∧ KeepsItem line.1 shown old row

/-- A tax of the form that was saved, against those that were shown. A
rate that is no number is not shown and lost. -/
structure KeepsTax (details : ReceiptWithDetails) (tax : FormTax) (row : TaxRecord) : Prop where
  name : ∀ shown ∈ details.taxes, tax.name = (FormTax.ofRow shown).name →
    row.name = trimmed shown.name
  rate : ∀ shown ∈ details.taxes, tax.rate = (FormTax.ofRow shown).rate →
    shown.rate ≠ some .nan → row.rate = shown.rate
  amount : ∀ shown ∈ details.taxes, tax.amount = (FormTax.ofRow shown).amount →
    row.amount = shown.amount

/-- **What a save leaves** of what was shown, and of what it is not about.
The first three are about the receipt that is saved: its values, its lines
in order, its taxes in order. The others say that nothing else in the
database is touched, which a form of one receipt should not do. -/
structure KeepsUnedited (details : ReceiptWithDetails) (form : EditorForm) (db db' : Db)
    (receiptId : UUID) : Prop where
  /-- The row keeps all but its values. -/
  values : ∃ old v, db.receipts.get? receiptId = some old
    ∧ db'.receipts.get? receiptId = some { old with toReceiptValues := v }
    ∧ KeepsValues details form v
  lines : List.Forall₂ (KeepsLine details db receiptId) form.lines.zipIdx
    (db'.listLineItems receiptId)
  taxes : List.Forall₂ (KeepsTax details) form.taxLines (db'.taxesOf receiptId)
  aliases : (∀ line ∈ form.lines, line.rememberCategory = false) → ∀ k, db'.alias? k = db.alias? k
  others : ∀ other ≠ receiptId, db'.receipts.get? other = db.receipts.get? other
    ∧ db'.listLineItems other = db.listLineItems other ∧ db'.taxesOf other = db.taxesOf other
  rest : db'.images = db.images ∧ db'.collections = db.collections ∧ db'.links = db.links

/-! ## Values

Each kind of column has a lemma: a text, an amount, a time, a number. Its
value is shown, trimmed, sent, read, and stored, and is the same in the
end. -/

omit [JsNumbers] [UpperCase] [CaseFolding] in
/-- An amount that was shown goes back into its column. -/
theorem keeps_amount {x y r z : ℚ} {s : String} (hold : amountColumn x = .ok y)
    (hs : s = amountText y) (hread : decimal? s = some r) (hnew : amountColumn r = .ok z) :
    z = y := by
  have hplaces : HasPlaces 2 y := hasPlaces_of_floatColumn hold
  rw [hs, decimal?_amountText hplaces] at hread
  obtain rfl := Option.some.inj hread
  exact Except.ok.inj (hnew.symm.trans (amountColumn_of_returned hold))

omit [JsNumbers] [UpperCase] [CaseFolding] in
theorem length_of_varchar {n : ℕ} {s s' : String} (h : varchar n s = .ok s') :
    s'.toList.length ≤ n := by
  rw [toList_of_varchar h, List.length_take]
  exact min_le_left _ _

omit [JsNumbers] [UpperCase] [CaseFolding] in
/-- A text that was shown goes back into its column, trimmed. -/
theorem keeps_text {n : ℕ} {s s' t : String} (hold : varchar n s = .ok s')
    (hnew : varchar n (trimmed s') = .ok t) : t = trimmed s' :=
  eq_of_varchar hnew ((length_trimmed_le s').trans (length_of_varchar hold))

omit [JsNumbers] [UpperCase] [CaseFolding] in
/-- So does one that may be missing, where nothing is left of a blank
one. -/
theorem keeps_nullable {n : ℕ} {s s' t : Option String} (hold : nullable (varchar n) s = .ok s')
    (hnew : nullable (varchar n) (orNull (trimmed (s'.getD ""))) = .ok t) :
    t = orNull (trimmed (s'.getD "")) := by
  have hlen : (s'.getD "").toList.length ≤ n := by
    cases s with
    | none =>
      rw [← Except.ok.inj hold]
      exact Nat.zero_le n
    | some s =>
      obtain ⟨s'', hs, rfl⟩ := map_eq_ok hold
      exact length_of_varchar hs
  unfold orNull at hnew ⊢
  split at hnew
  · next hblank =>
    rw [if_pos hblank]
    exact (Except.ok.inj hnew).symm
  · next hblank =>
    dsimp only [nullable] at hnew
    obtain ⟨t', ht, rfl⟩ := map_eq_ok hnew
    rw [if_neg hblank, eq_of_varchar ht ((length_trimmed_le _).trans hlen)]

omit [JsNumbers] [UpperCase] [CaseFolding] in
/-- A time that was shown is parsed again. -/
theorem receiptTimeValue_shown (t : Option Time) :
    receiptTimeValue (orNull (trimmed ((t.map Time.isoformat).getD ""))) = .ok t := by
  cases t with
  | none => rfl
  | some t =>
    show receiptTimeValue (orNull (trimmed t.isoformat)) = _
    unfold receiptTimeValue
    rw [t.trimmed_isoformat, orNull, if_neg t.isoformat_ne]
    dsimp only
    rw [if_neg t.isoformat_ne, t.fromisoformat_isoformat]

omit [JsNumbers] [UpperCase] [CaseFolding] in
/-- A tip that was shown, or that was missing. A missing one is an empty
field of the form, which is sent as `null` and stored as none. -/
theorem keeps_tip {x y r z : Option ℚ} (hold : nullable amountColumn x = .ok y)
    (hread : r.map some = (orNull (trimmed (y.elim "" amountText))).map decimal?)
    (hnew : nullable amountColumn r = .ok z) : z = y := by
  cases x with
  | none =>
    obtain rfl := Except.ok.inj hold
    have hblank : orNull (trimmed "") = none := by decide
    rw [Option.elim_none, hblank, Option.map_none, Option.map_eq_none_iff] at hread
    rw [hread] at hnew
    exact (Except.ok.inj hnew).symm
  | some x =>
    obtain ⟨y, hy, rfl⟩ := map_eq_ok hold
    have hplaces : HasPlaces 2 y := hasPlaces_of_floatColumn hy
    have hshown : orNull (trimmed (amountText y)) = some (amountText y) := by
      rw [trim_amountText, orNull, if_neg (amountText_ne hplaces)]
    have hread' : r.map some = some (decimal? (amountText y)) := by
      rw [hread]
      exact congrArg (Option.map decimal?) hshown
    obtain ⟨r', rfl, hr⟩ := Option.map_eq_some_iff.mp hread'
    obtain ⟨z, hz, rfl⟩ := map_eq_ok hnew
    rw [keeps_amount hy rfl hr.symm hz]

omit [UpperCase] [CaseFolding] in
/-- A number that was shown is read again. -/
theorem number_numberText {places : ℕ} {x : ℚ} (h : (JsNumber.ofFixed places x).IsPlain) :
    JsNumbers.number (numberText places x) = JsNumber.ofFixed places x :=
  JsNumbers.number_text _ h

omit [UpperCase] [CaseFolding] in
/-- It is read as what it was. -/
theorem number_shown {places : ℕ} {x : ℚ} (hx : HasPlaces places x)
    (h : (JsNumber.ofFixed places x).IsPlain) :
    (JsNumbers.number (numberText places x)).isFinite = true
      ∧ (JsNumbers.number (numberText places x)).value = x := by
  rw [number_numberText h]
  exact ⟨JsNumber.isFinite_ofFixed places x, JsNumber.value_ofFixed hx⟩

omit [UpperCase] [CaseFolding] in
theorem percent_shown {n : ℤ} (h : 0 ≤ n ∧ n ≤ 100) :
    (JsNumbers.number (numberText 0 n)).isFinite = true
      ∧ (JsNumbers.number (numberText 0 n)).value = n := by
  have hplaces : HasPlaces 0 (n : ℚ) := ⟨n, by norm_num⟩
  have hsize : |(n : ℚ)| * 10 ^ 0 < 10 ^ 15 := by
    have hle : (n : ℚ) ≤ 100 := by exact_mod_cast h.2
    rw [abs_of_nonneg (by exact_mod_cast h.1), pow_zero, mul_one]
    exact hle.trans_lt (by norm_num)
  exact number_shown hplaces (JsNumber.isPlain_ofFixed hplaces hsize (Nat.zero_le 6))

omit [UpperCase] [CaseFolding] in
theorem toInt?_number {n : ℤ} (h : 0 ≤ n ∧ n ≤ 100) :
    (JsNumbers.number (numberText 0 n)).toInt? = some n := by
  obtain ⟨hfinite, hvalue⟩ := percent_shown h
  unfold JsNumber.toInt?
  rw [hvalue, if_pos ⟨hfinite, Rat.den_intCast n⟩, Rat.num_intCast]

omit [UpperCase] [CaseFolding] in
theorem toFloat?_number {x : ℚ} (hx : HasPlaces 4 x) (h : (JsNumber.ofFixed 4 x).IsPlain) :
    (JsNumbers.number (numberText 4 x)).toFloat? = some (floatOfColumn x) := by
  obtain ⟨hfinite, hvalue⟩ := number_shown hx h
  unfold JsNumber.toFloat?
  rw [hvalue, if_pos hfinite]

/-- **The values of a receipt** are kept. Each column is compared with
what was shown of it, and what was shown with what is stored. -/
theorem keepsValues {details : ReceiptWithDetails} {form : EditorForm} {receipt : ReceiptUpdate}
    {v : ReceiptValues} (hwritten : details.receipt.toReceiptValues.Written)
    (hread : ReadsWrite form.buildWrite receipt) (hv : receipt.values = .ok v) :
    KeepsValues details form v := by
  obtain ⟨old, hold⟩ := hwritten
  obtain ⟨hheader, htotals⟩ := ReceiptFields.values_spec hold
  obtain ⟨hheader', htotals'⟩ := ReceiptFields.values_spec hv
  have hamount : ∀ {s : String} {x y : ℚ}, amountColumn x = .ok y → s = amountText y →
      trimmed s = amountText y := fun _ hs => by rw [hs, trim_amountText]
  have horText : ∀ {s : String} {x y : ℚ}, amountColumn x = .ok y → s = amountText y →
      orText (trimmed s) "0" = amountText y := fun hx hs => by
    rw [hs, trim_amountText, orText, if_neg (amountText_ne (hasPlaces_of_floatColumn hx))]
  exact {
    confidence := fun h => by
      have hshown : (JsNumbers.number form.confidence).toInt? = some details.receipt.confidence := by
        rw [h]
        exact toInt?_number (hheader.confidence ▸ old.confidence_range)
      rw [hheader'.confidence]
      exact Option.some.inj (hread.confidence.symm.trans hshown)
    merchantName := fun h => by
      have hname := hheader'.merchantName
      rw [hread.merchantName] at hname
      dsimp only [EditorForm.buildWrite] at hname
      rw [h] at hname
      dsimp only [buildForm] at hname
      exact keeps_text hheader.merchantName hname
    merchantAddress := fun h => by
      rw [hheader'.merchantAddress, hread.merchantAddress]
      dsimp only [EditorForm.buildWrite]
      rw [h]
      dsimp only [buildForm]
    receiptNumber := fun h => by
      have hnumber := hheader'.receiptNumber
      rw [hread.receiptNumber] at hnumber
      dsimp only [EditorForm.buildWrite] at hnumber
      rw [h] at hnumber
      dsimp only [buildForm] at hnumber
      exact keeps_nullable hheader.receiptNumber hnumber
    date := fun h => by
      have hshown : Date.ofText form.date = some details.receipt.date := by
        rw [h]
        exact Date.ofText_isoformat _
      rw [hheader'.date]
      exact Option.some.inj (hread.date.symm.trans hshown)
    time := fun h => by
      have htime := hheader'.time
      rw [hread.time] at htime
      dsimp only [EditorForm.buildWrite] at htime
      rw [h] at htime
      dsimp only [buildForm] at htime
      exact Except.ok.inj (htime.symm.trans (receiptTimeValue_shown details.receipt.time))
    -- a currency is sent in capitals, so that it was not edited is not enough
    currency := fun _ hupper => by
      have hcurrency := hheader'.currency
      rw [hread.currency] at hcurrency
      dsimp only [EditorForm.buildWrite] at hcurrency
      rw [hupper] at hcurrency
      exact eq_of_varchar hcurrency (length_of_varchar hheader.currency)
    category := fun h => by
      rw [hheader'.category, hread.category]
      exact h
    paymentMethod := fun h => by
      rw [hheader'.paymentMethod, hread.paymentMethod]
      exact h
    subtotal := fun h =>
      keeps_amount htotals.subtotal (hamount htotals.subtotal h) hread.subtotal htotals'.subtotal
    -- an amount that may be left out has a zero for an empty text
    discountTotal := fun h => by
      have hsent := hread.discountTotal
      dsimp only [EditorForm.buildWrite] at hsent
      rw [horText htotals.discountTotal h] at hsent
      exact keeps_amount htotals.discountTotal rfl hsent htotals'.discountTotal
    taxTotal := fun h => by
      have hsent := hread.taxTotal
      dsimp only [EditorForm.buildWrite] at hsent
      rw [horText htotals.taxTotal h] at hsent
      exact keeps_amount htotals.taxTotal rfl hsent htotals'.taxTotal
    tip := fun h => by
      refine keeps_tip htotals.tip ?_ htotals'.tip
      rw [hread.tip]
      dsimp only [EditorForm.buildWrite]
      rw [h]
      dsimp only [buildForm]
    total := fun h =>
      keeps_amount htotals.total (hamount htotals.total h) hread.total htotals'.total }

/-! ## Taxes -/

omit [JsNumbers] [UpperCase] [CaseFolding] in
/-- What a column of rates holds. -/
theorem rateColumn_cases {q : PyFloat} {d : PyDecimal} (h : rateColumn q = .ok d) :
    d = .nan ∨ ∃ x, d = .finite x ∧ HasPlaces 4 x ∧ (JsNumber.ofFixed 4 x).IsPlain := by
  cases q with
  | finite x grid =>
    obtain ⟨y, hy, rfl⟩ := map_eq_ok h
    exact .inr ⟨y, rfl, hasPlaces_of_floatColumn hy,
      isPlain_of_floatColumn hy (by decide) (by decide) (by decide)⟩
  | inf negative => exact absurd h (by simp [rateColumn])
  | nan => exact .inl (Except.ok.inj h).symm

omit [UpperCase] [CaseFolding] in
/-- A rate that was shown is sent as it is stored. The column may hold
`NaN`, which is no number for the form, so that it is excluded. -/
theorem keeps_rate {tax : FormTax} {r : Option PyFloat} {y z : Option PyDecimal}
    (hold : nullable rateColumn r = .ok y) (htext : tax.rate = y.elim "" rateText)
    (hnan : y ≠ some .nan)
    (hnew : nullable rateColumn (tax.write.rate.bind JsNumber.toFloat?) = .ok z) : z = y := by
  have hrate : tax.write.rate
      = if trimmed tax.rate = "" then none else some (JsNumbers.number tax.rate) := rfl
  rw [hrate, htext] at hnew
  cases r with
  | none =>
    obtain rfl := Except.ok.inj hold
    have hblank : trimmed "" = "" := by decide
    rw [Option.elim_none, if_pos hblank] at hnew
    exact (Except.ok.inj hnew).symm
  | some q =>
    obtain ⟨d, hd, rfl⟩ := map_eq_ok hold
    obtain rfl | ⟨x, rfl, hplaces, hplain⟩ := rateColumn_cases hd
    · exact absurd rfl hnan
    · have hshown : trimmed (rateText (.finite x)) ≠ "" := JsNumber.trimmed_text_ne _
      rw [Option.elim_some, if_neg hshown, Option.bind_some] at hnew
      dsimp only [rateText] at hnew
      rw [toFloat?_number hplaces hplain] at hnew
      obtain ⟨d, hd', rfl⟩ := map_eq_ok hnew
      exact congrArg some (Except.ok.inj (hd'.symm.trans (rateColumn_of_returned hd)))

omit [UpperCase] [CaseFolding] in
/-- **A tax** is kept. Taxes have no identifier in the form, so that it is
compared with each of those that were shown. -/
theorem keepsTax {details : ReceiptWithDetails} {tax : FormTax} {line : TaxLine}
    {newId receiptId : UUID} {row : TaxRecord} (hwritten : ∀ shown ∈ details.taxes, shown.Written)
    (hread : ReadsTaxWrite tax.write line) (hrow : taxRecord newId receiptId line = .ok row) :
    KeepsTax details tax row := by
  have hinserts := taxRecord_spec hrow
  have hshown : ∀ shown ∈ details.taxes, ∃ id i old, InsertsTax id i old shown :=
    fun shown hmem => by
      obtain ⟨id, i, old, hold⟩ := hwritten shown hmem
      exact ⟨id, i, old, taxRecord_spec hold⟩
  refine ⟨fun shown hmem h => ?_, fun shown hmem h hnan => ?_, fun shown hmem h => ?_⟩
  · obtain ⟨_, _, old, hold⟩ := hshown shown hmem
    have hname := hinserts.name
    rw [hread.name] at hname
    dsimp only [FormTax.write] at hname
    rw [h] at hname
    exact keeps_text hold.name hname
  · obtain ⟨_, _, old, hold⟩ := hshown shown hmem
    have hrate := hinserts.rate
    rw [hread.rate] at hrate
    exact keeps_rate hold.rate h hnan hrate
  · obtain ⟨_, _, old, hold⟩ := hshown shown hmem
    have hsent : trimmed tax.amount = amountText shown.amount := by
      rw [h]
      exact trim_amountText _
    exact keeps_amount hold.amount hsent hread.amount hinserts.amount

/-! ## Line items -/

omit [JsNumbers] [UpperCase] in
/-- No tag is blank. -/
theorem ne_empty_of_normal {tags : List String} (hnormal : normalizeTags tags = tags) :
    ∀ tag ∈ tags, tag ≠ "" := by
  rintro tag htag rfl
  have hblank : strip "" = "" := by decide
  exact (canonicalTags tags).notBlank "" (hnormal.symm ▸ htag) hblank

omit [JsNumbers] [UpperCase] in
/-- Tags without white space around them are kept. -/
theorem keeps_tags {tags : List String} (hnormal : normalizeTags tags = tags)
    (htrimmed : ∀ tag ∈ tags, trimmed tag = tag) :
    normalizeTags ((tags.map trimmed).filter (· ≠ "")) = tags := by
  have hmap : tags.map trimmed = tags := (List.map_congr_left htrimmed).trans (List.map_id tags)
  have hfilter : tags.filter (· ≠ "") = tags := List.filter_eq_self.mpr fun tag htag =>
    decide_eq_true (ne_empty_of_normal hnormal tag htag)
  rw [hmap, hfilter, hnormal]

omit [JsNumbers] [UpperCase] [CaseFolding] in
theorem isPlain_of_quantityColumn {q : PyFloat} {y : ℚ} (h : quantityColumn q = .ok y) :
    HasPlaces 4 y ∧ (JsNumber.ofFixed 4 y).IsPlain := by
  cases q with
  | finite x grid =>
    exact ⟨hasPlaces_of_floatColumn h,
      isPlain_of_floatColumn h (by decide) (by decide) (by decide)⟩
  | inf negative => exact absurd h (by simp [quantityColumn])
  | nan => exact absurd h (by simp [quantityColumn])

omit [JsNumbers] [UpperCase] in
/-- The category of an item that has one keeps its source if it is the old
one, unless it is to be remembered. -/
theorem updateDecision_source {old : LineItemRecord} {item : LineItemUpdate}
    (hcategory : item.spendingCategory = old.spendingCategory)
    (hremember : item.rememberCategory = false) :
    (updateDecision (some old) item).source = old.categorySource := by
  simp [updateDecision, hcategory, hremember]

omit [UpperCase] in
/-- **A line** is kept. The row that was shown is one that the service has
written, so that its amounts come back unchanged. -/
theorem keepsItem {line : FormLine} {shown old row : LineItemRecord} {item : LineItemUpdate}
    {newId receiptId : UUID} {position : ℕ} (hshown : shown.Written)
    (hread : ReadsItemWrite line.write item)
    (hstored : ItemStored receiptId position item.toLineItem row)
    (hrow : Rewrites newId item (some old) row) (hold : old.receiptId = receiptId) :
    KeepsItem line shown old row := by
  obtain ⟨_, _, _, first, decision, hwritten⟩ := hshown
  have hinserts := lineItemRecord_spec hwritten
  have hcode : ∀ {c : SpendingCategory}, line.spendingCategory = c.code →
      item.spendingCategory = c := fun h => by
    have hcategory := hread.spendingCategory
    dsimp only [FormLine.write] at hcategory
    rw [h, SpendingCategory.ofCode_code] at hcategory
    exact (Option.some.inj hcategory).symm
  have hamount : ∀ {s : String} {x : ℚ}, s = amountText x → trimmed s = amountText x :=
    fun h => by rw [h, trim_amountText]
  exact {
    id := hrow.id_eq
    receiptId := hstored.receiptId_eq.trans hold.symm
    -- these come from the row that the item continues, whatever the form has
    originalDescription := hrow.original_eq
    categorySource := fun h hremember => by
      rw [hrow.source_eq]
      exact updateDecision_source (hcode h) (hread.rememberCategory.trans hremember)
    description := fun h => by
      have hdescription := hstored.description
      rw [hread.description] at hdescription
      dsimp only [FormLine.write] at hdescription
      rw [h] at hdescription
      exact keeps_text hinserts.description hdescription
    -- a quantity is a number of the browser in between, not a text
    quantity := fun h => by
      obtain ⟨hplaces, hplain⟩ := isPlain_of_quantityColumn hinserts.quantity
      have hquantity := hread.quantity
      dsimp only [FormLine.write] at hquantity
      rw [h] at hquantity
      have hsame : floatOfColumn shown.quantity = item.quantity :=
        Option.some.inj ((toFloat?_number hplaces hplain).symm.trans hquantity)
      have hagain := quantityColumn_of_returned hinserts.quantity
      rw [hsame] at hagain
      exact Except.ok.inj (hstored.quantity.symm.trans hagain)
    unitPrice := fun h =>
      keeps_amount hinserts.unitPrice (hamount h) hread.unitPrice hstored.unitPrice
    totalPrice := fun h =>
      keeps_amount hinserts.totalPrice (hamount h) hread.totalPrice hstored.totalPrice
    spendingCategory := fun h => by
      rw [hrow.category_eq, updateDecision_explicit hread.explicitCategory]
      exact hcode h
    tags := fun h htrimmed => by
      have hnormal : normalizeTags shown.tags = shown.tags := by
        rw [hinserts.tags_eq]
        exact first.tags_normal
      rw [hstored.tags_eq, hread.tags]
      dsimp only [FormLine.write]
      rw [h]
      exact keeps_tags hnormal htrimmed }

/-! ## A save

The lines of the form are compared with the rows that are there at the
save, which need not be those that were shown. So what is kept of the old
row and what is kept of the shown one are two things. -/

omit [JsNumbers] [UpperCase] in
/-- What is shown was written. -/
theorem Db.Written.shown {db : Db} (h : db.Written) {caller : Caller} {receiptId : UUID}
    {details : ReceiptWithDetails}
    (hshown : db.getReceiptWithDetails caller receiptId = some details) : details.Written := by
  obtain ⟨shown, hvisible, rfl⟩ := Option.map_eq_some_iff.mp hshown
  have hmem := (Table.get?_eq_some_iff.mp (Option.filter_eq_some_iff.mp hvisible).1).1
  refine ⟨h.receipts shown hmem, fun item hitem => ?_, fun tax htax => ?_⟩
  · exact h.lineItems item (Db.mem_listLineItems.mp hitem).1
  · have htax' : tax ∈ db.taxesOf receiptId := mem_orderBy.mp htax
    exact h.taxes tax (List.mem_filter.mp htax').1

section Save

variable {db db' : Db} {details : ReceiptWithDetails} {form : EditorForm} {receipt : ReceiptUpdate}
  {fresh : ℕ → UUID} {receiptId : UUID} {caller : Caller} {row : ReceiptRecord}

omit [UpperCase] in
/-- Each line is saved at its index, over the row with its id. A line that
was added in the form is over no row that was shown, and nothing is said
of it but its place. -/
theorem keepsLines (hwritten : ∀ shown ∈ details.lineItems, shown.Written)
    (hread : List.Forall₂ (fun line item => ReadsItemWrite (FormLine.write line) item) form.lines
      receipt.lineItems)
    (hsave : db.updateReceipt fresh receiptId receipt caller = .ok (some (db', row))) :
    List.Forall₂ (KeepsLine details db receiptId) form.lines.zipIdx
      (db'.listLineItems receiptId) := by
  have hholds := (Db.updateReceipt_saves hsave).holds
  obtain ⟨ownerId, hrewrites⟩ := Db.updateReceipt_rewrites hsave
  have hlen : form.lines.length = (db'.listLineItems receiptId).length := by
    rw [hread.length_eq, ← hholds.length_eq, List.length_zipIdx]
  refine List.forall₂_iff_get.mpr ⟨by rw [List.length_zipIdx, hlen], fun i hi hi' => ?_⟩
  rw [List.length_zipIdx] at hi
  have hitem : i < receipt.lineItems.length := hread.length_eq ▸ hi
  have hline := hread.get hi hitem
  have hstored := hholds.get (by rw [List.length_zipIdx]; exact hitem) hi'
  have hrow := hrewrites.get (by rw [List.length_zipIdx]; exact hitem) hi'
  simp only [List.get_eq_getElem, List.getElem_zipIdx, Nat.zero_add] at hline hstored hrow ⊢
  refine ⟨hstored.position_eq, fun shown hshown hid => ?_⟩
  obtain ⟨continued, hcontinued, hrow⟩ := hrow
  have hnamed : receipt.lineItems[i].id = some shown.id := hline.id.trans hid
  obtain ⟨old, hmem, holdId⟩ := (UpdateContext.old?_spec hcontinued).1 shown.id hnamed
  obtain rfl := Option.mem_def.mp hmem
  have hold : old ∈ db.listLineItems receiptId := UpdateContext.mem_of_old? hcontinued
  exact ⟨old, hold, holdId, keepsItem (hwritten shown hshown) hline hstored hrow
    (Db.mem_listLineItems.mp hold).2⟩

omit [UpperCase] in
/-- Each tax is saved in its place. The rows are made anew, from the taxes
of the form in their order. -/
theorem keepsTaxes {index : ℕ} {taxRows : List TaxRecord}
    (hwritten : ∀ shown ∈ details.taxes, shown.Written)
    (hread : List.Forall₂ (fun tax line => ReadsTaxWrite (FormTax.write tax) line) form.taxLines
      receipt.taxes) (hstores : StoresTaxes fresh receiptId index receipt.taxes taxRows) :
    List.Forall₂ (KeepsTax details) form.taxLines taxRows := by
  have hrows : List.Forall₂ (fun line row => ∃ newId, taxRecord newId receiptId line = .ok row)
      receipt.taxes taxRows := by
    rw [← List.zipIdx_map_fst index receipt.taxes, List.forall₂_map_left_iff]
    exact List.Forall₂.imp (fun _ _ hrow => ⟨_, hrow⟩) hstores
  refine forall₂_comp (fun tax line row hline hrow => ?_) hread hrows
  obtain ⟨newId, hrow⟩ := hrow
  exact keepsTax hwritten hline hrow

omit [JsNumbers] [UpperCase] in
/-- Items that are not to be remembered leave no alias. -/
theorem lastRemembered_eq_none {descriptionKey : String} {items : List LineItemUpdate}
    (h : ∀ item ∈ items, item.rememberCategory = false) (labels : List (String × SpendingCategory)) :
    lastRemembered descriptionKey (labels.zip items) = none := by
  have hnone : (labels.zip items).filter (fun p => RemembersAs descriptionKey p.1.1 p.2) = [] := by
    refine List.filter_eq_nil_iff.mpr fun p hp => ?_
    have hitem := h p.2 (List.of_mem_zip hp).2
    simp [RemembersAs, hitem]
  unfold lastRemembered
  rw [hnone]
  rfl

/-- **What is not edited is not changed** by a save, of what was shown of
rows that were written. -/
theorem keeps_of_written (hwritten : details.Written)
    (hread : ReadsWrite form.buildWrite receipt)
    (hsave : db.updateReceipt fresh receiptId receipt caller = .ok (some (db', row))) :
    KeepsUnedited details form db db' receiptId := by
  obtain ⟨old, v, decisions, rows, taxRows, hold, heffect⟩ := Db.updateReceipt_spec hsave
  have hget : db.receipts.get? receiptId = some old := (Option.filter_eq_some_iff.mp hold).1
  have hlines : List.Forall₂ (fun line item => ReadsItemWrite (FormLine.write line) item) form.lines
      receipt.lineItems := List.forall₂_map_left_iff.mp hread.lineItems
  refine ⟨⟨old, v, hget, ?_, keepsValues hwritten.receipt hread heffect.values_eq⟩,
    keepsLines hwritten.lineItems hlines hsave, ?_, fun hforget k => ?_, fun other hne => ?_, ?_⟩
  · rw [heffect.writesReceipt.get, if_pos rfl, hget]
    rfl
  · rw [heffect.replaces.taxesOf heffect.storesTaxes]
    exact keepsTaxes hwritten.taxes (List.forall₂_map_left_iff.mp hread.taxes) heffect.storesTaxes
  · have hitem : ∀ item ∈ receipt.lineItems, item.rememberCategory = false := by
      intro item hitem
      obtain ⟨i, hi, rfl⟩ := List.mem_iff_getElem.mp hitem
      have hline : i < form.lines.length := hlines.length_eq ▸ hi
      exact (hlines.get hline hi).rememberCategory.trans (hforget _ (List.getElem_mem hline))
    rw [heffect.aliases k, lastRemembered_eq_none hitem]
    exact ite_self _
  · refine ⟨?_, heffect.replaces.listLineItems_of_ne heffect.stores hne,
      heffect.replaces.taxesOf_of_ne heffect.storesTaxes hne⟩
    rw [heffect.writesReceipt.get, if_neg hne]
  · rw [heffect.frame]
    exact ⟨rfl, rfl, rfl⟩

end Save

/-- **What is not edited is not changed**: a form of what was shown in a
state that is reached, edited anyhow and saved at any later time. -/
theorem keeps_of_run {settings : Settings} {files : Files} {clock : Timestamp}
    {s : Threads Op.Ret Exn World}
    (run : Transition.Reachable (TenantStep settings) ⟨World.initial files clock, []⟩ s)
    {reader writer : Caller} {receiptId : UUID} {details : ReceiptWithDetails}
    (hshown : s.shared.db.getReceiptWithDetails reader receiptId = some details)
    {form : EditorForm} {receipt : ReceiptUpdate} (hread : form.buildWrite.modelValidate = .ok receipt)
    {db db' : Db} {fresh : ℕ → UUID} {row : ReceiptRecord}
    (hsave : db.updateReceipt fresh receiptId receipt writer = .ok (some (db', row))) :
    KeepsUnedited details form db db' receiptId := by
  have hwritten := (written_of_run run).shown hshown
  exact keeps_of_written hwritten (readsWrite hread) hsave

end UneditedFields

/-! ## A kiosk -/

section Kiosk

local instance asciiFoldingOfKiosk : CaseFolding := asciiFolding

local instance plainNumbersOfKiosk : JsNumbers := plainNumbers

local instance asciiUpperCaseOfKiosk : UpperCase := ⟨String.toUpper⟩

/-- Newspapers. -/
def newspapers : LineItem where
  description := "Papers "
  spendingCategory := .unknown
  quantity := .ofInt 2
  unitPrice := 5 / 4
  totalPrice := 5 / 2
  tags := ["news"]
  quantity_pos := isPos_two
  tags_normal := by decide +kernel

/-- A receipt of a kiosk. -/
def kioskReceipt : Receipt :=
  { emptyFields with
    merchantName := " Kiosk"
    time := some "09:05"
    lineItems := [newspapers]
    taxes := [⟨"VAT", some (floatOfColumn (7 / 100)), 1 / 4, by norm_num⟩]
    subtotal := 5 / 2
    total := 5 / 2
    total_checked := by decide +kernel }

/-- Its photo is uploaded. -/
def uploadingKiosk : List (Threads.Action TenantRequest Choice ⊕ CollectionStatement) :=
  [.inl (.start (.request (.upload photo))),
    .inl (.advance 0 (smoothly 1 [])), .inl (.advance 0 (smoothly 2 [])),
    .inl (.advance 0 (smoothly 3 [1])), .inl (.advance 0 (smoothly 4 [])),
    .inl (.advance 0 { smoothly 5 [] with analysis := .ok kioskReceipt }),
    .inl (.advance 0 (smoothly 6 [2, 3, 4]))]

/-- What its owner is shown, and what the server reads and stores when
another merchant is put in. -/
def Db.renamedKiosk (db : Db) : Option (ReceiptWithDetails × ReceiptUpdate × Db × ReceiptRecord) := do
  let details ← db.getReceiptWithDetails ⟨1, false⟩ 2
  let form := { buildForm details with merchantName := "Corner shop" }
  let receipt ← form.buildWrite.modelValidate.toOption
  let saved ← (db.updateReceipt (fun n => 10 + n) 2 receipt ⟨1, false⟩).toOption.join
  return (details, receipt, saved)

/-- **A receipt of a kiosk** is renamed, and nothing else of it changes.
It was stored in a run of the service, so that its rows are of the kind
that the theorem speaks of. -/
theorem keeps_of_run_kiosk :
    ∃ s details db', Transition.Reachable (TenantStep plainSettings)
        ⟨World.initial photoFiles 0, []⟩ s
      ∧ s.shared.db.getReceiptWithDetails ⟨1, false⟩ 2 = some details
      ∧ KeepsUnedited details { buildForm details with merchantName := "Corner shop" }
        s.shared.db db' 2 := by
  obtain ⟨s, run, hrenamed⟩ :
      ∃ s, Transition.Reachable (TenantStep plainSettings) ⟨World.initial photoFiles 0, []⟩ s
        ∧ s.shared.db.renamedKiosk.isSome = true :=
    Transition.Run.of_exec uploadingKiosk (by decide +kernel)
  obtain ⟨renamed, hrenamed⟩ := Option.isSome_iff_exists.mp hrenamed
  obtain ⟨details, hshown, hrenamed⟩ := Option.bind_eq_some_iff.mp hrenamed
  obtain ⟨receipt, hreceipt, hrenamed⟩ := Option.bind_eq_some_iff.mp hrenamed
  obtain ⟨⟨db', row⟩, hsaved, -⟩ := Option.bind_eq_some_iff.mp hrenamed
  exact ⟨s, details, db', run, hshown, keeps_of_run run hshown (ok_of_toOption hreceipt)
    (ok_of_toOption (Option.join_eq_some_iff.mp hsaved))⟩

end Kiosk

end VisionBill
