import VisionBill.BenchmarkScoring
import VisionBill.Creation
import VisionBill.ReadBack

/-!
# The ground truth of a benchmark

The expected receipt of a benchmark is rebuilt from what is stored of a
verified receipt. Amounts and quantities are rounded to their columns, and
a quantity that is rounded to zero cannot be validated again. The header
is compared by plain equality. Texts come back as they were, up to spaces
beyond the end of their columns; the time of purchase is stored as a time
of day and comes back as `isoformat` prints it, so that `09:05`, the form
that the model is asked for, comes back as `09:05:00`.

## From an extraction to an expectation

Four steps lie between the two: the receipt is validated, its values go
through the columns, the row is verified, and what is stored is validated
again. The first and the third leave the header alone. Of the second and
the fourth together it has to be said when they do, and each is described
by what it makes of the other's result: `StoredAs` says how a row holds a
receipt, and `StoredAs.validates` that what it holds is valid again if all
quantities are positive.

## When the header survives

Three conditions, all of them on the extracted receipt
(`Receipt.FitsColumns`): no text is longer than its column, the time is
written as it would be printed, and no quantity is so small that its
column holds zero. They are necessary as well as sufficient. A text that
is too long by spaces is stored without them, and one that is too long by
anything else is not stored at all, so that nothing has been verified. The
amounts do not matter for the header, but they have to be in range if
scores are to exist; a column sees to that (`amountsInRange`).
-/

namespace VisionBill

section GroundTruth

variable [CaseFolding]

/-! ## Amounts that were stored

A stored amount went through a float and was rounded to cents, and its
column has bounded it. So it is in the range in which scoring can quantize
it, and read back and stored again it stays the same. -/

omit [CaseFolding] in
/-- A number that a column holds was rounded twice, and is bounded. Which
float it was rounded to in between does not matter for that. -/
theorem floatColumn_spec {p s : ℕ} {x y : ℚ} (h : floatColumn p s x = .ok y) :
    ∃ r, float x = some r ∧ y = Rounding.halfAway (1 / 10 ^ s) r ∧ |y| < 10 ^ (p - s) := by
  unfold floatColumn at h
  split at h
  · next r hr =>
    unfold numericColumn at h
    dsimp only at h
    split at h
    · next hlt =>
      obtain rfl := Except.ok.inj h
      exact ⟨r, hr, rfl, hlt⟩
    · exact absurd h (by simp)
  · exact absurd h (by simp)

omit [CaseFolding] in
theorem float_eq_some {x r : ℚ} (h : float x = some r) :
    r = Rounding.floatRound 2 53 (-1074) x := by
  unfold float at h
  dsimp only at h
  split at h
  · exact absurd h (by simp)
  · exact (Option.some.inj h).symm

omit [CaseFolding] in
/-- What is stored as a small number was small. -/
theorem abs_le_of_float {x r : ℚ} (h : float x = some r) : |x| ≤ 2 * |r| + 1 := by
  rw [float_eq_some h]
  by_cases hx : ((2 : ℕ) : ℚ) ^ (-1074 : ℤ) ≤ |x|
  · have hround := Rounding.abs_le_two_mul_abs_floatRound (p := 53) one_lt_two (by norm_num) hx
    linarith
  · have hone : ((2 : ℕ) : ℚ) ^ (-1074 : ℤ) ≤ 1 :=
      zpow_le_one_of_nonpos₀ (by norm_num) (by norm_num)
    have hround := abs_nonneg (Rounding.floatRound 2 53 (-1074) x)
    linarith

omit [CaseFolding] in
/-- A stored amount is bounded by its column, and has the sign it had. -/
theorem amountColumn_spec {x y : ℚ} (h : amountColumn x = .ok y) :
    |y| ≤ 10 ^ 12 ∧ |x| ≤ 10 ^ 13 ∧ (0 ≤ x → 0 ≤ y) := by
  obtain ⟨r, hr, rfl, hlt⟩ := floatColumn_spec h
  have hunit : (0 : ℚ) < 1 / 10 ^ 2 := by norm_num
  have hround := Rounding.abs_le_abs_halfAway_add (x := r) hunit
  have hfloat := abs_le_of_float hr
  refine ⟨hlt.le, ?_, fun hx => Rounding.halfAway_nonneg hunit ?_⟩
  · norm_num at hlt hround ⊢
    linarith
  · rw [float_eq_some hr]
    exact Rounding.floatRound_nonneg hx

omit [CaseFolding] in
theorem abs_halfUp_le (x : ℚ) : (|halfUp x| : ℚ) ≤ |x| + 1 / 2 := by
  have hfloor : ∀ y : ℚ, 0 ≤ y → (|(⌊y + 1 / 2⌋ : ℤ)| : ℚ) ≤ y + 1 / 2 := by
    intro y hy
    have hnonneg : (0 : ℚ) ≤ ⌊y + 1 / 2⌋ := by
      exact_mod_cast Int.floor_nonneg.mpr (by linarith : (0 : ℚ) ≤ y + 1 / 2)
    rw [abs_of_nonneg hnonneg]
    exact Int.floor_le _
  unfold halfUp
  split
  · next hx =>
    rw [abs_of_nonneg hx]
    exact hfloor x hx
  · next hx =>
    rw [abs_of_neg (not_le.mp hx), Int.cast_neg, abs_neg]
    exact hfloor (-x) (by linarith)

omit [CaseFolding] in
/-- Amounts that were stored can be scored, as they were and as they
are. -/
theorem inRange_of_le {x : ℚ} (h : |x| ≤ 10 ^ 13) : InRange x := by
  have hround := abs_halfUp_le (x * 100)
  rw [abs_mul, abs_of_pos (by norm_num : (0 : ℚ) < 100)] at hround
  have hlt : (|halfUp (x * 100)| : ℚ) < 10 ^ 28 := by linarith
  unfold InRange Decimal.prec
  exact_mod_cast hlt

omit [CaseFolding] in
theorem inRange_of_amountColumn {x y : ℚ} (h : amountColumn x = .ok y) :
    InRange x ∧ InRange y :=
  ⟨inRange_of_le (amountColumn_spec h).2.1,
    inRange_of_le ((amountColumn_spec h).1.trans (by norm_num))⟩

omit [CaseFolding] in
/-- Stored amounts pass the check of the total. It only warns of a
difference, and what could raise is the arithmetic, for which these
amounts are too small. -/
theorem sanityCheckTotal_of_le {v subtotal taxTotal discountTotal : ℚ} (hv : |v| ≤ 10 ^ 12)
    (hsubtotal : |subtotal| ≤ 10 ^ 12) (htax : |taxTotal| ≤ 10 ^ 12)
    (hdiscount : |discountTotal| ≤ 10 ^ 12) :
    sanityCheckTotal v subtotal taxTotal discountTotal = .ok () := by
  have hstep : ∀ {a b c d : ℚ}, |a| ≤ c → |b| ≤ d → |a - b| ≤ c + d ∧ |a + b| ≤ c + d := by
    intro a b c d ha hb
    exact ⟨(abs_sub a b).trans (add_le_add ha hb), (abs_add_le a b).trans (add_le_add ha hb)⟩
  obtain ⟨a, ha, hale⟩ := Decimal.fixFinite_of_le (e := 13) (by decide)
    ((hstep hsubtotal hdiscount).1.trans (by norm_num))
  obtain ⟨b, hb, hble⟩ := Decimal.fixFinite_of_le (e := 14) (by decide)
    ((hstep hale htax).2.trans (by norm_num))
  obtain ⟨c, hc, hcle⟩ := Decimal.fixFinite_of_le (e := 15) (by decide)
    ((hstep hv hble).1.trans (by norm_num))
  obtain ⟨d, hd, -⟩ := Decimal.fixFinite_of_le (e := 15) (by decide) ((abs_abs c).trans_le hcle)
  have habs : Decimal.abs (.finite c) = .ok (.finite d) := by
    show Decimal.fix |c| = _
    rw [Decimal.fix_eq_map, hd]
    rfl
  unfold sanityCheckTotal
  rw [Decimal.sub_finite, ha]
  show (Decimal.add (.finite a) (.finite taxTotal) >>= _) = _
  rw [Decimal.add_finite, hb]
  show (Decimal.sub (.finite v) (.finite b) >>= _) = _
  rw [Decimal.sub_finite, hc]
  show (Decimal.abs (.finite c) >>= _) = _
  rw [habs]
  rfl

/-! ## What is stored of a receipt -/

/-- A row of a line item, as far as validation depends on it. Its quantity
may be zero, which is the one thing that validation refuses. -/
structure HoldsItem (item : LineItem) (row : LineItemRecord) : Prop where
  quantity : quantityColumn item.quantity = .ok row.quantity
  totalPrice : amountColumn item.totalPrice = .ok row.totalPrice
  tags : row.tags = item.tags

/-- The details of a receipt hold what is stored of it. Line items are in
their order and taxes in any, as the two queries return them. -/
structure StoredAs (r : Receipt) (details : ReceiptWithDetails) : Prop where
  values : r.values = .ok details.receipt.toReceiptValues
  lineItems : List.Forall₂ HoldsItem r.lineItems details.lineItems
  taxes : ∀ tax ∈ r.taxes, ∃ y, amountColumn tax.amount = .ok y
  taxRows : ∀ row ∈ details.taxes, ∃ x, 0 ≤ x ∧ amountColumn x = .ok row.amount

omit [CaseFolding] in
/-- The bounds of the tip that is stored. The column bounds its size, and
the receipt that it is not negative, which rounding keeps. -/
theorem TotalsStored.tip_spec {r : ReceiptFields} {v : ReceiptValues} (h : TotalsStored r v) :
    (∀ x ∈ r.tip, InRange x) ∧ ∀ y ∈ v.tip, InRange y ∧ 0 ≤ y := by
  have htip := h.tip
  cases hr : r.tip with
  | none =>
    rw [hr] at htip
    rw [← Except.ok.inj htip]
    exact ⟨fun x hx => absurd hx (Option.not_mem_none x), fun y hy =>
      absurd hy (Option.not_mem_none y)⟩
  | some x =>
    rw [hr] at htip
    obtain ⟨y, hy, heq⟩ := map_eq_ok htip
    rw [← heq]
    have hrange := inRange_of_amountColumn hy
    refine ⟨fun x' hx' => Option.mem_some.mp hx' ▸ hrange.1, fun y' hy' => ?_⟩
    rw [← Option.mem_some.mp hy']
    exact ⟨hrange.2, (amountColumn_spec hy).2.2 (r.tip_nonneg x hr)⟩

/-! ## Quantities -/

omit [CaseFolding] in
/-- A number with four decimals is a float that prints as that number. So
a quantity is positive for Python if the column has a positive number. -/
theorem floatOfColumn_isPos_iff {q : PyFloat} {y : ℚ} (h : quantityColumn q = .ok y) :
    (floatOfColumn y).IsPos ↔ 0 < y := by
  have hgrid : ∃ n : ℤ, y = n * floatUnit := by
    cases q with
    | finite x grid =>
      obtain ⟨r, -, rfl, -⟩ := floatColumn_spec h
      obtain ⟨n, hn⟩ := Rounding.exists_halfAway_eq (1 / 10 ^ 4) r
      refine ⟨n * 10 ^ 320, ?_⟩
      have hunit : (10 : ℚ) ^ 320 * floatUnit = 1 / 10 ^ 4 := by
        rw [floatUnit, ← zpow_natCast, ← zpow_add₀ (by norm_num)]
        norm_num
      rw [hn, Int.cast_mul, mul_assoc, Int.cast_pow, Int.cast_ofNat, hunit]
    | inf negative => exact absurd h (by simp [quantityColumn])
    | nan => exact absurd h (by simp [quantityColumn])
  obtain ⟨n, rfl⟩ := hgrid
  show 0 < (⌊n * floatUnit / floatUnit⌋ : ℚ) * floatUnit ↔ _
  rw [mul_div_cancel_right₀ _ floatUnit_pos.ne', Int.floor_intCast]

/-! ## Validating what is stored

The stored values are validated by the same models as an answer. Amounts,
names and tags pass, as they came from a receipt that did; a quantity may
not, since a small one is stored as zero. -/

/-- A row as the payload of a line item. The category is a code, and the
quantity a float again. -/
def LineItemRecord.payload (x : LineItemRecord) : LineItemPayload where
  description := x.description
  spendingCategory := some x.spendingCategory.code
  quantity := floatOfColumn x.quantity
  unitPrice := .finite x.unitPrice
  totalPrice := .finite x.totalPrice
  tags := x.tags

/-- A row as the payload of a tax. -/
def TaxRecord.payload (x : TaxRecord) : TaxLinePayload where
  name := x.name
  rate := x.rate.map floatOfRate
  amount := .finite x.amount

omit [CaseFolding] in
theorem ReceiptWithDetails.payload_lineItems (details : ReceiptWithDetails) :
    details.payload.lineItems = details.lineItems.map LineItemRecord.payload := rfl

omit [CaseFolding] in
/-- Where each element has a preimage, so has the list. -/
theorem exists_map_eq {α β γ : Type} {f : α → γ} {g : β → γ} {p : β → Prop} {l : List α}
    (h : ∀ a ∈ l, ∃ b, f a = g b ∧ p b) : ∃ l' : List β, l.map f = l'.map g ∧ ∀ b ∈ l', p b := by
  induction l with
  | nil => exact ⟨[], rfl, fun b hb => absurd hb List.not_mem_nil⟩
  | cons a l ih =>
    obtain ⟨b, hb, hp⟩ := h a List.mem_cons_self
    obtain ⟨l', hl, hps⟩ := ih fun a' ha' => h a' (List.mem_cons_of_mem a ha')
    refine ⟨b :: l', ?_, List.forall_mem_cons.mpr ⟨hp, hps⟩⟩
    rw [List.map_cons, List.map_cons, hb, hl]

/-- A row is the dump of a line item if its quantity is positive. It is
the only bound of a line item that the column can break, by rounding a
small quantity to zero. -/
theorem HoldsItem.exists_dump {item : LineItem} {row : LineItemRecord} (h : HoldsItem item row)
    (hq : 0 < row.quantity) :
    ∃ x : LineItem, row.payload = x.modelDump ∧ InRange x.totalPrice := by
  refine ⟨{
    description := row.description
    spendingCategory := row.spendingCategory
    quantity := floatOfColumn row.quantity
    unitPrice := row.unitPrice
    totalPrice := row.totalPrice
    tags := row.tags
    quantity_pos := (floatOfColumn_isPos_iff h.quantity).mpr hq
    tags_normal := h.tags ▸ item.tags_normal }, rfl, ?_⟩
  exact (inRange_of_amountColumn h.totalPrice).2

namespace StoredAs

variable {r : Receipt} {details : ReceiptWithDetails}

/-- The rows of the taxes are the dumps of taxes. -/
theorem exists_taxes (h : StoredAs r details) :
    ∃ taxes : List TaxLine, details.taxes.map TaxRecord.payload = taxes.map TaxLine.modelDump
      ∧ ∀ tax ∈ taxes, InRange tax.amount := by
  refine exists_map_eq fun row hrow => ?_
  obtain ⟨x, hx, hamount⟩ := h.taxRows row hrow
  exact ⟨⟨row.name, row.rate.map floatOfRate, row.amount, (amountColumn_spec hamount).2.2 hx⟩, rfl,
    (inRange_of_amountColumn hamount).2⟩

/-- The rows of the line items are the dumps of line items. -/
theorem exists_lineItems (h : StoredAs r details) (hq : ∀ row ∈ details.lineItems, 0 < row.quantity) :
    ∃ items : List LineItem,
      details.lineItems.map LineItemRecord.payload = items.map LineItem.modelDump
        ∧ ∀ item ∈ items, InRange item.totalPrice := by
  refine exists_map_eq fun row hrow => ?_
  obtain ⟨i, hi, rfl⟩ := List.mem_iff_getElem.mp hrow
  exact (h.lineItems.get (h.lineItems.length_eq ▸ hi) hi).exists_dump (hq _ hrow)

/-- The fields that are validated, with taxes put in. They satisfy what
validation asks for, since what is stored came from a receipt that did. -/
def fields (h : StoredAs r details) (taxes : List TaxLine) : ReceiptFields :=
  let v := details.receipt.toReceiptValues
  have hheader := (ReceiptFields.values_spec h.values).1
  have htotals := (ReceiptFields.values_spec h.values).2
  { confidence := v.confidence
    merchantName := v.merchantName
    merchantAddress := v.merchantAddress
    receiptNumber := v.receiptNumber
    date := v.date
    time := v.time.map Time.isoformat
    currency := v.currency
    category := r.category
    taxes := taxes
    subtotal := v.subtotal
    discountTotal := v.discountTotal
    taxTotal := v.taxTotal
    tip := v.tip
    total := v.total
    paymentMethod := r.paymentMethod
    confidence_range := hheader.confidence ▸ r.confidence_range
    discountTotal_nonneg := (amountColumn_spec htotals.discountTotal).2.2 r.discountTotal_nonneg
    taxTotal_nonneg := (amountColumn_spec htotals.taxTotal).2.2 r.taxTotal_nonneg
    tip_nonneg := fun y hy => (htotals.tip_spec.2 y hy).2
    total_checked := sanityCheckTotal_of_le (amountColumn_spec htotals.total).1
      (amountColumn_spec htotals.subtotal).1 (amountColumn_spec htotals.taxTotal).1
      (amountColumn_spec htotals.discountTotal).1 }

/-- **Stored values are validated** if the quantities are positive: they
are those of a receipt. The check of the total does not raise, since
amounts from columns are small. -/
theorem validates (h : StoredAs r details) (hq : ∀ row ∈ details.lineItems, 0 < row.quantity) :
    ∃ taxes items, Receipt.modelValidate details.payload
        = .ok { toReceiptFields := h.fields taxes, lineItems := items }
      ∧ AmountsInRange { toReceiptFields := h.fields taxes, lineItems := items } := by
  obtain ⟨taxes, htaxes, htaxesRange⟩ := h.exists_taxes
  obtain ⟨items, hitems, hitemsRange⟩ := h.exists_lineItems hq
  obtain ⟨hheader, htotals⟩ := ReceiptFields.values_spec h.values
  have hdump : details.payload = (h.fields taxes).modelDump (items.map LineItem.modelDump) := by
    unfold ReceiptWithDetails.payload ReceiptFields.modelDump fields
    dsimp only
    rw [← hitems, ← htaxes, hheader.category, hheader.paymentMethod]
    rfl
  refine ⟨taxes, items, ?_, ?_, hitemsRange, htaxesRange⟩
  · rw [hdump]
    exact Receipt.modelValidate_dump (h.fields taxes) items
  · have hamount : ∀ {x y : ℚ}, amountColumn x = .ok y → ∀ z ∈ some y, InRange z :=
      fun hx z hz => Option.mem_some.mp hz ▸ (inRange_of_amountColumn hx).2
    unfold totalFields fields
    simp only [List.forall_mem_cons]
    exact ⟨hamount htotals.subtotal, hamount htotals.discountTotal, hamount htotals.taxTotal,
      fun y hy => (htotals.tip_spec.2 y hy).1, hamount htotals.total,
      fun x hx => absurd hx List.not_mem_nil⟩

/-- Only positive quantities are validated. One that has been rounded to
zero makes the receipt as a whole invalid. -/
theorem quantities_of_validates (h : StoredAs r details) {e : Receipt}
    (he : Receipt.modelValidate details.payload = .ok e) :
    ∀ row ∈ details.lineItems, 0 < row.quantity := by
  unfold Receipt.modelValidate at he
  obtain ⟨-, -, he⟩ := bind_eq_ok.mp he
  obtain ⟨items, hitems, -⟩ := bind_eq_ok.mp he
  rw [details.payload_lineItems, mapM_eq_ok_iff, List.forall₂_map_left_iff] at hitems
  intro row hrow
  obtain ⟨i, hi, rfl⟩ := List.mem_iff_getElem.mp hrow
  have hvalid := hitems.get hi (hitems.length_eq ▸ hi)
  have hitem := h.lineItems.get (h.lineItems.length_eq ▸ hi) hi
  refine (floatOfColumn_isPos_iff hitem.quantity).mp ?_
  unfold LineItem.modelValidate at hvalid
  split at hvalid
  · next hpos => exact hpos
  · exact absurd hvalid (by simp)

end StoredAs

/-! ## The header

Eight fields are compared. Some are texts that a column may cut, the time
is printed in another form than it was read in, and the rest come back as
they were. -/

/-- The header fields that are compared are equal, as `score_receipts`
compares them. These are the eight that count for the header score, with
none left out; amounts and children are scored elsewhere. -/
structure SameHeader (e r : Receipt) : Prop where
  merchantName : e.merchantName = r.merchantName
  merchantAddress : e.merchantAddress = r.merchantAddress
  receiptNumber : e.receiptNumber = r.receiptNumber
  date : e.date = r.date
  time : e.time = r.time
  currency : e.currency = r.currency
  category : e.category = r.category
  paymentMethod : e.paymentMethod = r.paymentMethod

/-- A receipt whose header comes back from its columns as it was, with
quantities that do: the texts are not longer than their columns, the time
is written as `isoformat` writes it, and no quantity is rounded to
zero. -/
structure Receipt.FitsColumns (r : Receipt) : Prop where
  merchantName : r.merchantName.toList.length ≤ 255
  receiptNumber : ∀ s ∈ r.receiptNumber, s.toList.length ≤ 100
  currency : r.currency.toList.length ≤ 10
  time : ∀ s ∈ r.time, (Time.fromisoformat s).map Time.isoformat = some s
  quantities : ∀ item ∈ r.lineItems, ∃ y, quantityColumn item.quantity = .ok y ∧ 0 < y

omit [CaseFolding] in
theorem nullable_varchar_iff {n : ℕ} {o o' : Option String}
    (h : nullable (varchar n) o = .ok o') : o' = o ↔ ∀ s ∈ o, s.toList.length ≤ n := by
  cases o with
  | none =>
    rw [← Except.ok.inj h]
    exact ⟨fun _ s hs => absurd hs (Option.not_mem_none s), fun _ => rfl⟩
  | some s =>
    obtain ⟨s', hs, rfl⟩ := map_eq_ok h
    rw [Option.some_inj, eq_of_varchar_iff hs]
    exact ⟨fun hlen s' hs' => Option.mem_some.mp hs' ▸ hlen, fun hlen => hlen s rfl⟩

omit [CaseFolding] in
/-- The time is printed as it was read only in one of its forms. All other
forms are read, and come back as this one. -/
theorem receiptTimeValue_iff {o : Option String} {t : Option Time}
    (h : receiptTimeValue o = .ok t) :
    t.map Time.isoformat = o
      ↔ ∀ s ∈ o, (Time.fromisoformat s).map Time.isoformat = some s := by
  cases o with
  | none =>
    rw [← Except.ok.inj h]
    exact ⟨fun _ s hs => absurd hs (Option.not_mem_none s), fun _ => rfl⟩
  | some s =>
    have hmem : (∀ s' ∈ some s, (Time.fromisoformat s').map Time.isoformat = some s')
        ↔ (Time.fromisoformat s).map Time.isoformat = some s :=
      ⟨fun hall => hall s rfl, fun hs s' hs' => Option.mem_some.mp hs' ▸ hs⟩
    rw [hmem]
    unfold receiptTimeValue at h
    dsimp only at h
    split at h
    · next hempty =>
      -- the empty text is stored as no time, and is none
      rw [← Except.ok.inj h, hempty]
      exact ⟨fun hnone => absurd hnone (by simp), fun hnone => absurd hnone (by decide)⟩
    · split at h
      · next t' ht =>
        rw [← Except.ok.inj h, ht]
      · exact absurd h (by simp)

namespace StoredAs

variable {r : Receipt} {details : ReceiptWithDetails}

/-- What is validated has the header of the receipt if that fits its
columns. The texts and the time are all that can change. -/
theorem sameHeader_iff (h : StoredAs r details) (taxes : List TaxLine) (items : List LineItem) :
    SameHeader { toReceiptFields := h.fields taxes, lineItems := items } r
      ↔ r.merchantName.toList.length ≤ 255 ∧ (∀ s ∈ r.receiptNumber, s.toList.length ≤ 100)
        ∧ r.currency.toList.length ≤ 10
        ∧ ∀ s ∈ r.time, (Time.fromisoformat s).map Time.isoformat = some s := by
  obtain ⟨hheader, -⟩ := ReceiptFields.values_spec h.values
  rw [← eq_of_varchar_iff hheader.merchantName, ← nullable_varchar_iff hheader.receiptNumber,
    ← eq_of_varchar_iff hheader.currency, ← receiptTimeValue_iff hheader.time]
  constructor
  · intro hsame
    exact ⟨hsame.merchantName, hsame.receiptNumber, hsame.currency, hsame.time⟩
  · rintro ⟨hname, hnumber, hcurrency, htime⟩
    exact ⟨hname, hheader.merchantAddress, hnumber, hheader.date, htime, hcurrency, rfl, rfl⟩

/-- Which quantities are stored as positive numbers. The right side is
about the receipt that was extracted, before anything is stored. -/
theorem quantities_iff (h : StoredAs r details) :
    (∀ row ∈ details.lineItems, 0 < row.quantity)
      ↔ ∀ item ∈ r.lineItems, ∃ y, quantityColumn item.quantity = .ok y ∧ 0 < y := by
  have hlen := h.lineItems.length_eq
  constructor
  · intro hpos item hitem
    obtain ⟨i, hi, rfl⟩ := List.mem_iff_getElem.mp hitem
    exact ⟨_, (h.lineItems.get hi (hlen ▸ hi)).quantity, hpos _ (List.getElem_mem _)⟩
  · intro hpos row hrow
    obtain ⟨i, hi, rfl⟩ := List.mem_iff_getElem.mp hrow
    obtain ⟨y, hy, hlt⟩ := hpos _ (List.getElem_mem (hlen.symm ▸ hi))
    have hquantity := (h.lineItems.get (hlen.symm ▸ hi) hi).quantity
    exact Except.ok.inj (hy.symm.trans hquantity) ▸ hlt

/-- The amounts of a stored receipt can be scored. They have passed
through their columns, which are narrower than what the scoring can
compute with. -/
theorem amountsInRange (h : StoredAs r details) : AmountsInRange r := by
  obtain ⟨-, htotals⟩ := ReceiptFields.values_spec h.values
  have hamount : ∀ {x y : ℚ}, amountColumn x = .ok y → ∀ z ∈ some x, InRange z :=
    fun hx z hz => Option.mem_some.mp hz ▸ (inRange_of_amountColumn hx).1
  refine ⟨?_, fun item hitem => ?_, fun tax htax => ?_⟩
  · unfold totalFields
    simp only [List.forall_mem_cons]
    exact ⟨hamount htotals.subtotal, hamount htotals.discountTotal, hamount htotals.taxTotal,
      htotals.tip_spec.1, hamount htotals.total, fun x hx => absurd hx List.not_mem_nil⟩
  · obtain ⟨i, hi, rfl⟩ := List.mem_iff_getElem.mp hitem
    exact (inRange_of_amountColumn
      (h.lineItems.get hi (h.lineItems.length_eq ▸ hi)).totalPrice).1
  · obtain ⟨y, hy⟩ := h.taxes tax htax
    exact (inRange_of_amountColumn hy).1

end StoredAs

/-- Equal headers have the full score. -/
theorem SameHeader.headerHits {e r : Receipt} (h : SameHeader e r) :
    (VisionBill.headerHits e r).count true = 8 := by
  unfold VisionBill.headerHits
  rw [h.merchantName, h.merchantAddress, h.receiptNumber, h.date, h.time, h.currency, h.category,
    h.paymentMethod]
  simp only [beq_self_eq_true]
  rfl

theorem SameHeader.scoreReceipts {e r : Receipt} (h : SameHeader e r) {s : Scores}
    (hs : scoreReceipts e r = .ok s) : s.header = 1 := by
  unfold VisionBill.scoreReceipts at hs
  obtain ⟨totalHits, -, hs⟩ := bind_eq_ok.mp hs
  obtain ⟨itemHits, -, hs⟩ := bind_eq_ok.mp hs
  obtain ⟨taxHits, -, hs⟩ := bind_eq_ok.mp hs
  rw [← Except.ok.inj hs]
  show fraction ((VisionBill.headerHits e r).count true) 8 = 1
  rw [h.headerHits]
  exact fraction_self 8

/-! ## Saved, verified and expected

The three steps are put together here: a receipt is stored, verified
without a change, and read again with its image. Verifying touches neither
the values nor the children. -/

/-- **What is expected of a stored receipt** has its header if everything
fits its column. The tables in between are not looked at again: `StoredAs`
says what they have of the receipt, column by column. -/
theorem StoredAs.modelValidate_iff {r : Receipt} {details : ReceiptWithDetails}
    (h : StoredAs r details) :
    (∃ e s, Receipt.modelValidate details.payload = .ok e ∧ SameHeader e r
      ∧ scoreReceipts e r = .ok s ∧ s.header = 1) ↔ r.FitsColumns := by
  constructor
  · rintro ⟨e, s, he, hsame, -, -⟩
    have hq := h.quantities_of_validates he
    obtain ⟨taxes, items, hvalid, -⟩ := h.validates hq
    obtain rfl := Except.ok.inj (he.symm.trans hvalid)
    obtain ⟨hname, hnumber, hcurrency, htime⟩ := (h.sameHeader_iff taxes items).mp hsame
    exact ⟨hname, hnumber, hcurrency, htime, h.quantities_iff.mp hq⟩
  · rintro ⟨hname, hnumber, hcurrency, htime, hq⟩
    obtain ⟨taxes, items, hvalid, hrange⟩ := h.validates (h.quantities_iff.mpr hq)
    have hsame := (h.sameHeader_iff taxes items).mpr ⟨hname, hnumber, hcurrency, htime⟩
    obtain ⟨s, hs, -⟩ := scoreReceipts_inUnit hrange h.amountsInRange
    exact ⟨_, s, hvalid, hsame, hs, hsame.scoreReceipts hs⟩

/-- The rows of line items hold what they were made of. Of the category
decisions nothing is needed here but that there is one for each item. -/
theorem StoresItems.holdsItems {fresh : ℕ → UUID} {receiptId : UUID} {lineItems : List LineItem}
    {decisions : List ItemCategoryDecision} {rows : List LineItemRecord}
    (hlen : decisions.length = lineItems.length)
    (h : StoresItems fresh receiptId 0 (lineItems.zip decisions) rows) :
    List.Forall₂ HoldsItem lineItems rows := by
  have hrows : List.Forall₂ (fun p row => HoldsItem p.1.1 row)
      ((lineItems.zip decisions).zipIdx 0) rows := by
    refine List.Forall₂.imp (fun p row hrow => ?_) h
    have hinserts := lineItemRecord_spec hrow
    exact ⟨hinserts.quantity, hinserts.totalPrice, hinserts.tags_eq⟩
  have hfst : ((lineItems.zip decisions).zipIdx 0).map (fun p => p.1.1) = lineItems := by
    rw [show (fun p : (LineItem × ItemCategoryDecision) × ℕ => p.1.1) = Prod.fst ∘ Prod.fst from rfl,
      ← List.map_map, List.zipIdx_map_fst, List.map_fst_zip hlen.ge]
  rw [← hfst, List.forall₂_map_left_iff]
  exact hrows

/-- What is stored of a receipt that was saved and then verified.
Verifying writes a status and a flag, and no value. -/
theorem storedAs_of_verified {db db' db'' : Db} {now : Timestamp} {fresh : ℕ → UUID}
    {receipt : Receipt} {imageId : Option UUID} {status : ReceiptStatus} {verified : Bool}
    {userId : Option UUID} {row row' : ReceiptRecord} {caller : Caller}
    (hpersist : db.persistReceipt now fresh receipt imageId status verified userId
      = .ok (db', row))
    (hverify : db'.verifyReceipt row.id caller = some (db'', row')) :
    ∃ details, db''.getReceiptWithDetails everyone row.id = some details
      ∧ details.receipt.verified = true ∧ StoredAs receipt details := by
  obtain ⟨values, history, rows, taxRows, heffect⟩ := Db.persistReceipt_spec hpersist
  obtain ⟨-, -, -, -, -, -, -, -, -, -, hget⟩ := (Saves.persisted hpersist).stores
  have hwrite := Db.verifyReceipt_spec hverify
  -- verifying rewrites two columns of the row, and no children
  have hget' : db''.receipts.get? row.id
      = some { row with status := .verified, verified := true } := by
    rw [hwrite.get, if_pos rfl, hget]
    rfl
  have hfor : db''.receiptFor? everyone row.id
      = some { row with status := .verified, verified := true } :=
    Option.filter_eq_some_iff.mpr ⟨hget', rfl⟩
  obtain ⟨old, -, hold⟩ := Option.map_eq_some_iff.mp hverify
  have hchildren : db''.lineItems = db'.lineItems ∧ db''.taxes = db'.taxes := by
    rw [← (Prod.mk.inj hold).1]
    exact ⟨rfl, rfl⟩
  have hitems : db''.listLineItems row.id = rows := by
    unfold Db.listLineItems
    rw [hchildren.1]
    exact heffect.replaces.listLineItems heffect.stores
  have htaxes : db''.listTaxes row.id = db'.listTaxes row.id := by
    unfold Db.listTaxes
    rw [hchildren.2]
  have hlisted := listTaxes_forall₂ heffect.storesTaxes
    (heffect.replaces.taxesOf heffect.storesTaxes)
  have hvalues : row.toReceiptValues = values := by
    obtain ⟨db₁, hwriteReceipt, -⟩ := heffect.writes
    cases Db.writeReceipt_spec hwriteReceipt with
    | updated i old himage hold hrow hdb => rw [hrow]; rfl
    | inserted hnone hfree hexists hrow hinsert hdb => rw [hrow]
  refine ⟨_, by unfold Db.getReceiptWithDetails; rw [hfor]; rfl, rfl, ?_⟩
  refine ⟨?_, ?_, fun tax htax => ?_, fun taxRow htaxRow => ?_⟩
  · rw [heffect.values_eq]
    exact congrArg _ hvalues.symm
  · rw [hitems]
    exact heffect.stores.holdsItems (List.length_map _)
  · obtain ⟨i, hi, rfl⟩ := List.mem_iff_getElem.mp htax
    have hlen := heffect.storesTaxes.length_eq
    rw [List.length_zipIdx] at hlen
    have hstored := heffect.storesTaxes.get (by rw [List.length_zipIdx]; exact hi) (hlen ▸ hi)
    simp only [List.get_eq_getElem, List.getElem_zipIdx] at hstored
    exact ⟨_, (taxRecord_spec hstored).amount⟩
  · rw [htaxes] at htaxRow
    obtain ⟨i, hi, rfl⟩ := List.mem_iff_getElem.mp htaxRow
    obtain ⟨id, hstored⟩ := hlisted.get (hlisted.length_eq ▸ hi) hi
    exact ⟨_, TaxLine.amount_nonneg _, (taxRecord_spec hstored).amount⟩

/-- **The ground truth of a verified receipt is the header that was
extracted** if everything fits its column, and only then. The receipt may
be one of many, and the database any that has taken it. -/
theorem expectedReceipt_sameHeader_iff {db db' db'' : Db} {now : Timestamp} {fresh : ℕ → UUID}
    {receipt : Receipt} {imageId : Option UUID} {status : ReceiptStatus} {verified : Bool}
    {userId : Option UUID} {row row' : ReceiptRecord} {caller : Caller}
    (hpersist : db.persistReceipt now fresh receipt imageId status verified userId
      = .ok (db', row))
    (hverify : db'.verifyReceipt row.id caller = some (db'', row')) :
    (∃ e s, db''.expectedReceipt row.id = .ok e ∧ SameHeader e receipt
      ∧ scoreReceipts e receipt = .ok s ∧ s.header = 1) ↔ receipt.FitsColumns := by
  obtain ⟨details, hdetails, hverified, hstored⟩ := storedAs_of_verified hpersist hverify
  have hexpected : db''.expectedReceipt row.id
      = (Receipt.modelValidate details.payload).mapError .invalid := by
    unfold Db.expectedReceipt
    rw [hdetails]
    exact if_pos hverified
  have hok : ∀ e, db''.expectedReceipt row.id = .ok e
      ↔ Receipt.modelValidate details.payload = .ok e := by
    intro e
    rw [hexpected]
    cases Receipt.modelValidate details.payload with
    | error e' => exact ⟨fun h => absurd h (by simp [Except.mapError]), fun h => absurd h (by simp)⟩
    | ok e' => exact ⟨fun h => congrArg _ (Except.ok.inj h), fun h => congrArg _ (Except.ok.inj h)⟩
  simp only [hok]
  exact hstored.modelValidate_iff

end GroundTruth

/-! ## A receipt from the morning -/

section Morning

local instance asciiFoldingOfMorning : CaseFolding := asciiFolding

/-- A receipt with the time in the form that the model is asked for. -/
def morningReceipt : Receipt :=
  { emptyFields with
    time := some "09:05"
    lineItems := [] }

/-- A receipt that is saved and then verified. -/
def savedAndVerified (receipt : Receipt) :
    Except DbError (Option ((Db × ReceiptRecord) × (Db × ReceiptRecord))) :=
  (Db.empty.persistReceipt 0 id receipt none .unverified false (some 1)).map fun saved =>
    (saved.1.verifyReceipt saved.2.id ⟨1, false⟩).map fun verified => (saved, verified)

theorem savedAndVerified_spec {receipt : Receipt}
    {runs : (Db × ReceiptRecord) × (Db × ReceiptRecord)}
    (h : savedAndVerified receipt = .ok (some runs)) :
    Db.empty.persistReceipt 0 id receipt none .unverified false (some 1) = .ok runs.1
      ∧ runs.1.1.verifyReceipt runs.1.2.id ⟨1, false⟩ = some runs.2 := by
  obtain ⟨saved, hsaved, hmap⟩ := map_eq_ok h
  obtain ⟨verified, hverified, rfl⟩ := Option.map_eq_some_iff.mp hmap
  exact ⟨hsaved, hverified⟩

/-- **Its time gets seconds**, and the header of what is expected of it is
another one. The form is the one that the schema describes to the model,
so this is what becomes of every receipt with a time that the model prints
as it is told. -/
theorem morningReceipt_changed :
    ∃ db' row db'' row',
      Db.empty.persistReceipt 0 id morningReceipt none .unverified false (some 1)
          = .ok (db', row)
        ∧ db'.verifyReceipt row.id ⟨1, false⟩ = some (db'', row')
        ∧ ¬ ∃ e, db''.expectedReceipt row.id = .ok e ∧ SameHeader e morningReceipt := by
  obtain ⟨⟨⟨db', row⟩, ⟨db'', row'⟩⟩, h, htime⟩ := exists_of_returns
    (x := savedAndVerified morningReceipt)
    (p := fun runs => ∀ e ∈ (runs.2.1.expectedReceipt runs.1.2.id).toOption,
      e.time = some "09:05:00") (by decide +kernel)
  obtain ⟨hpersist, hverify⟩ := savedAndVerified_spec h
  refine ⟨db', row, db'', row', hpersist, hverify, ?_⟩
  rintro ⟨e, he, hsame⟩
  have hchanged := htime e (by rw [he]; exact rfl)
  exact absurd (hchanged.symm.trans hsame.time) (by decide)

/-- The time with its seconds, the number that is printed on the receipt,
and something bought. -/
def breakfastReceipt : Receipt :=
  { emptyFields with
    merchantName := "Bakery"
    receiptNumber := some "R-17"
    time := some "09:05:00"
    subtotal := 5
    total := 5
    lineItems := [dish "Croissant" .breadBakery 5]
    total_checked := by decide +kernel }

/-- Its texts are short, its time has seconds, and two croissants are
still two in their column. -/
theorem fitsColumns_breakfastReceipt : breakfastReceipt.FitsColumns where
  merchantName := by decide
  receiptNumber := by decide
  currency := by decide
  time := by decide +kernel
  quantities := by
    intro item hitem
    rw [List.mem_singleton.mp hitem]
    exact ⟨2, by decide +kernel, by norm_num⟩

/-- **With seconds it comes back as it was**: its header is expected as it
was extracted, time and number included, and scores 1. It has a line item
too, whose quantity has to fit its column. -/
theorem breakfastReceipt_expected :
    ∃ db' row db'' row',
      Db.empty.persistReceipt 0 id breakfastReceipt none .unverified false (some 1)
          = .ok (db', row)
        ∧ db'.verifyReceipt row.id ⟨1, false⟩ = some (db'', row')
        ∧ ∃ e s, db''.expectedReceipt row.id = .ok e ∧ SameHeader e breakfastReceipt
          ∧ scoreReceipts e breakfastReceipt = .ok s ∧ s.header = 1 := by
  obtain ⟨⟨⟨db', row⟩, ⟨db'', row'⟩⟩, h, -⟩ := exists_of_returns
    (x := savedAndVerified breakfastReceipt) (p := fun _ => True) (by decide +kernel)
  obtain ⟨hpersist, hverify⟩ := savedAndVerified_spec h
  exact ⟨db', row, db'', row', hpersist, hverify,
    (expectedReceipt_sameHeader_iff hpersist hverify).mpr fitsColumns_breakfastReceipt⟩

end Morning

end VisionBill
