import VisionBill.Receipt

/-!
# Benchmark scores

A benchmark compares what a model extracts with a verified receipt,
component by component, and weighs the components. Every component is a
fraction of matches, so all scores lie between 0 and 1. A receipt scored
against itself matches in every field but one: `money_equal` takes two
absent amounts for different, and the tip is often absent. The totals of
such a receipt get 4/5.

The fractions are exact here; the program computes them in floating point.

## When a score exists

Amounts are quantized to cents before they are compared, with the digits
of the context, and a number of too many digits raises. So does a
difference that is too large. Amounts that have been stored are far below
these bounds, and what is proved is about amounts that can be quantized
(`AmountsInRange`). This is a condition on each receipt alone.

## Why the tip is different

`normalize_money` maps an absent amount to `None`, and `money_equal` is
true only if neither side is `None`. For the other amounts that is right,
since a receipt always has them. The tip is optional, and its absence on
both sides is a match that is not counted. The weights then make a perfect
extraction of a receipt without a tip score less than 1 overall
(`scoreReceipts_perfect_iff`).
-/

namespace VisionBill

/-- The nearest integer, ties away from zero, as `ROUND_HALF_UP`. It is
the rounding of a shop, and another one than that of the context. -/
def halfUp (x : ℚ) : ℤ := if 0 ≤ x then ⌊x + 1 / 2⌋ else -⌊-x + 1 / 2⌋

/-- `x.quantize(MONEY_TOLERANCE, rounding=ROUND_HALF_UP)`. -/
def quantizeMoney (x : ℚ) : Except PyError ℚ :=
  let n := halfUp (x * 100)
  if 10 ^ Decimal.prec ≤ |n| then .error .invalidOperation else .ok (n / 100)

/-- `normalize_money`. -/
def normalizeMoney (value : Option ℚ) : Except PyError (Option ℚ) :=
  match value with
  | none => .ok none
  | some x => (quantizeMoney x).map some

/-- `money_equal`. Absent amounts are equal to nothing, not even to each
other. -/
def moneyEqual (expected actual : Option ℚ) : Except PyError Bool := do
  let left ← normalizeMoney expected
  let right ← normalizeMoney actual
  match left, right with
  | some left, some right => Decimal.absDiffLe (.finite left) (.finite right) (.finite (1 / 100))
  | _, _ => return false

/-- `_fraction`. Nothing to be matched is a full match. -/
def fraction (hits total : ℕ) : ℚ := if total = 0 then 1 else hits / total

/-- `sum(test(x) for x in l)`. A test may raise, and then the elements
after it are not looked at. -/
def countHits {α : Type} (test : α → Except PyError Bool) : List α → Except PyError ℕ
  | [] => .ok 0
  | x :: l => do
    let hit ← test x
    let hits ← countHits test l
    return hit.toNat + hits

section Scoring

variable [CaseFolding]

/-- What `score_receipts` returns. Fractions are exact here, so that a
score of 1 is not one that was rounded to it. A receipt without categories
has no score for them. -/
structure Scores where
  header : ℚ
  totals : ℚ
  lineItems : ℚ
  taxes : ℚ
  spendingCategories : Option ℚ
  overall : ℚ

/-- The comparison of the header fields. The source compares them with
`==` and none with a tolerance, so that `None` equals `None`. -/
def headerHits (expected actual : Receipt) : List Bool :=
  [expected.merchantName == actual.merchantName,
    expected.merchantAddress == actual.merchantAddress,
    expected.receiptNumber == actual.receiptNumber,
    expected.date == actual.date,
    expected.time == actual.time,
    expected.currency == actual.currency,
    expected.category == actual.category,
    expected.paymentMethod == actual.paymentMethod]

/-- The total fields. -/
def totalFields (r : Receipt) : List (Option ℚ) :=
  [some r.subtotal, some r.discountTotal, some r.taxTotal, r.tip, some r.total]

/-- The line items that have a category, with their positions. The
position is that in the list of all line items, since the actual item is
looked up by it. -/
def labelledItems (r : Receipt) : List (LineItem × ℕ) :=
  r.lineItems.zipIdx.filter fun item => item.1.spendingCategory ≠ .unknown

/-- Whether the actual item at a position has the category it should
have. -/
def categoryHit (actual : Receipt) (item : LineItem × ℕ) : Bool :=
  actual.lineItems[item.2]?.any fun a =>
    item.1.description = a.description ∧ item.1.spendingCategory = a.spendingCategory

/-- Whether two line items match. -/
def itemHit (items : LineItem × LineItem) : Except PyError Bool :=
  if items.1.description = items.2.description then
    moneyEqual (some items.1.totalPrice) (some items.2.totalPrice)
  else .ok false

/-- Whether two tax lines match. -/
def taxHit (taxes : TaxLine × TaxLine) : Except PyError Bool :=
  if taxes.1.name = taxes.2.name then
    moneyEqual (some taxes.1.amount) (some taxes.2.amount)
  else .ok false

/-- The components, weighted. The weights are those of the source. -/
def overallScore (header totals lineItems taxes : ℚ) : ℚ :=
  header * (20 / 100) + totals * (35 / 100) + lineItems * (30 / 100) + taxes * (15 / 100)

/-- `score_receipts`. Each component is a fraction of what could be
matched; line items or taxes of which there are none on either side are a
full match. -/
def scoreReceipts (expected actual : Receipt) : Except PyError Scores := do
  let header := fraction ((headerHits expected actual).count true) 8
  let totalHits ← countHits (fun fields => moneyEqual fields.1 fields.2)
    ((totalFields expected).zip (totalFields actual))
  let totals := fraction totalHits 5
  let itemHits ← countHits itemHit (expected.lineItems.zip actual.lineItems)
  let lineItems := fraction itemHits (max expected.lineItems.length actual.lineItems.length)
  let labelled := labelledItems expected
  let spendingCategories := if labelled = [] then none
    else some (fraction (labelled.countP (categoryHit actual)) labelled.length)
  let taxHits ← countHits taxHit (expected.taxes.zip actual.taxes)
  let taxes := fraction taxHits (max expected.taxes.length actual.taxes.length)
  return { header, totals, lineItems, taxes, spendingCategories,
           overall := overallScore header totals lineItems taxes }

/-! ## Amounts in range

Amounts are quantized to cents before they are compared, and quantizing
raises for amounts that are too large. For all others two amounts are
equal if they are equal after rounding, and then a comparison with itself
always holds. -/

omit [CaseFolding] in
/-- The amount has no more digits than `quantize` allows. -/
def InRange (x : ℚ) : Prop := |halfUp (x * 100)| < 10 ^ Decimal.prec

omit [CaseFolding] in
instance : DecidablePred InRange := fun x =>
  inferInstanceAs (Decidable (|halfUp (x * 100)| < 10 ^ Decimal.prec))

/-- Every amount that is scored is in range: the totals, and those of line
items and taxes. Beyond that range `quantize` raises, and there are no
scores at all. The models accept amounts with more digits than that. -/
structure AmountsInRange (r : Receipt) : Prop where
  totals : ∀ x ∈ totalFields r, ∀ y ∈ x, InRange y
  lineItems : ∀ item ∈ r.lineItems, InRange item.totalPrice
  taxes : ∀ tax ∈ r.taxes, InRange tax.amount

omit [CaseFolding] in
theorem quantizeMoney_of_inRange {x : ℚ} (h : InRange x) :
    ∃ q, quantizeMoney x = .ok q ∧ |q| ≤ 10 ^ 26 := by
  refine ⟨halfUp (x * 100) / 100, if_neg (not_le.mpr h), ?_⟩
  have hlt : |(halfUp (x * 100) : ℚ)| < 10 ^ 28 := by exact_mod_cast h
  rw [abs_div, abs_of_pos (by norm_num : (0 : ℚ) < 100), div_le_iff₀ (by norm_num)]
  linarith

omit [CaseFolding] in
/-- The distance of two amounts in range does not overflow. It has one
digit more than the amounts at most, and these were chosen to leave room
for it. -/
theorem absDiffLe_of_le {x y t : ℚ} (hx : |x| ≤ 10 ^ 26) (hy : |y| ≤ 10 ^ 26) :
    ∃ b, Decimal.absDiffLe (.finite x) (.finite y) (.finite t) = .ok b := by
  have hdiff : |x - y| ≤ 10 ^ 27 := by
    have htriangle := abs_sub x y
    linarith
  obtain ⟨d, hd, hdle⟩ := Decimal.fixFinite_of_le (by decide) hdiff
  obtain ⟨a, ha, -⟩ := Decimal.fixFinite_of_le (by decide) ((abs_abs d).trans_le hdle)
  have hsub : Decimal.sub (.finite x) (.finite y) = .ok (.finite d) := by
    rw [Decimal.sub_finite, hd]
    rfl
  have habs : Decimal.abs (.finite d) = .ok (.finite a) := by
    show Decimal.fix |d| = _
    rw [Decimal.fix_eq_map, ha]
    rfl
  unfold Decimal.absDiffLe
  rw [hsub]
  show ∃ b, (Decimal.abs (.finite d) >>= fun distance => Decimal.le distance (.finite t)) = .ok b
  rw [habs]
  exact ⟨_, rfl⟩

omit [CaseFolding] in
theorem absDiffLe_self (x : ℚ) : Decimal.absDiffLe (.finite x) (.finite x) (.finite (1 / 100))
    = .ok true := by
  have hsub : Decimal.sub (.finite x) (.finite x) = .ok (.finite 0) := by
    rw [Decimal.sub_finite, sub_self, ← Decimal.fix_eq_map, Decimal.fix_zero]
  have habs : Decimal.abs (.finite 0) = .ok (.finite 0) := by
    show Decimal.fix |0| = _
    rw [abs_zero, Decimal.fix_zero]
  unfold Decimal.absDiffLe
  rw [hsub]
  show (Decimal.abs (.finite 0) >>= fun distance => Decimal.le distance (.finite (1 / 100)))
    = .ok true
  rw [habs]
  show Except.ok (decide ((0 : ℚ) ≤ 1 / 100)) = _
  rw [decide_eq_true (by norm_num)]

omit [CaseFolding] in
/-- Amounts in range, or absent, can be compared. Rounding them to cents
is what could raise, since the result has to fit the precision of the
context. -/
theorem moneyEqual_of_inRange {x y : Option ℚ} (hx : ∀ q ∈ x, InRange q)
    (hy : ∀ q ∈ y, InRange q) : ∃ b, moneyEqual x y = .ok b := by
  have hnormal : ∀ z : Option ℚ, (∀ q ∈ z, InRange q) →
      ∃ w, normalizeMoney z = .ok w ∧ ∀ q ∈ w, |q| ≤ 10 ^ 26 := by
    intro z hz
    cases z with
    | none => exact ⟨none, rfl, fun q hq => absurd hq (Option.not_mem_none q)⟩
    | some q =>
      obtain ⟨p, hp, hle⟩ := quantizeMoney_of_inRange (hz q rfl)
      refine ⟨some p, ?_, fun q hq => Option.mem_some.mp hq ▸ hle⟩
      show (quantizeMoney q).map some = _
      rw [hp]
      rfl
  obtain ⟨l, hl, hlle⟩ := hnormal x hx
  obtain ⟨r, hr, hrle⟩ := hnormal y hy
  unfold moneyEqual
  rw [hl, hr]
  simp only [bind, Except.bind]
  cases l with
  | none => exact ⟨false, rfl⟩
  | some l =>
    cases r with
    | none => exact ⟨false, rfl⟩
    | some r => exact absDiffLe_of_le (hlle l rfl) (hrle r rfl)

omit [CaseFolding] in
/-- **An amount equals itself unless it is absent.** Everything else about
a receipt that is scored against itself follows from lists being as long
as themselves. The bound is what keeps the subtraction of the amount from
itself within the context. -/
theorem moneyEqual_self {x : Option ℚ} (hx : ∀ q ∈ x, InRange q) :
    moneyEqual x x = .ok x.isSome := by
  cases x with
  | none => rfl
  | some x =>
    obtain ⟨q, hq, -⟩ := quantizeMoney_of_inRange (hx x rfl)
    have hnormal : normalizeMoney (some x) = .ok (some q) := by
      show (quantizeMoney x).map some = _
      rw [hq]
      rfl
    unfold moneyEqual
    rw [hnormal]
    exact absDiffLe_self q

/-! ## Fractions

A score is a number of hits among a number of places, and one if there are
no places. It is one exactly if all places are hit. -/

omit [CaseFolding] in
theorem fraction_nonneg (hits total : ℕ) : 0 ≤ fraction hits total := by
  unfold fraction
  split
  · exact zero_le_one
  · exact div_nonneg (Nat.cast_nonneg _) (Nat.cast_nonneg _)

omit [CaseFolding] in
theorem fraction_le_one {hits total : ℕ} (h : hits ≤ total) : fraction hits total ≤ 1 := by
  unfold fraction
  split
  · exact le_rfl
  · exact div_le_one_of_le₀ (by exact_mod_cast h) (Nat.cast_nonneg _)

omit [CaseFolding] in
theorem fraction_eq_one_iff {hits total : ℕ} (h : 0 < total) :
    fraction hits total = 1 ↔ hits = total := by
  have hne : (total : ℚ) ≠ 0 := by exact_mod_cast h.ne'
  unfold fraction
  rw [if_neg h.ne', div_eq_one_iff_eq hne]
  exact Nat.cast_inj

omit [CaseFolding] in
theorem fraction_self (total : ℕ) : fraction total total = 1 := by
  rcases Nat.eq_zero_or_pos total with rfl | h
  · rfl
  · exact (fraction_eq_one_iff h).mpr rfl

omit [CaseFolding] in
theorem countHits_ok {α : Type} {test : α → Except PyError Bool} {l : List α}
    (h : ∀ x ∈ l, ∃ b, test x = .ok b) : ∃ n, countHits test l = .ok n ∧ n ≤ l.length := by
  induction l with
  | nil => exact ⟨0, rfl, le_rfl⟩
  | cons x l ih =>
    obtain ⟨hx, hl⟩ := List.forall_mem_cons.mp h
    obtain ⟨b, hb⟩ := hx
    obtain ⟨n, hn, hle⟩ := ih hl
    refine ⟨b.toNat + n, ?_, ?_⟩
    · unfold countHits
      rw [hb, hn]
      rfl
    · have hbit := b.toNat_le
      rw [List.length_cons]
      omega

omit [CaseFolding] in
theorem countHits_eq {α : Type} {test : α → Except PyError Bool} {hit : α → Bool} {l : List α}
    (h : ∀ x ∈ l, test x = .ok (hit x)) : countHits test l = .ok (l.countP hit) := by
  induction l with
  | nil => rfl
  | cons x l ih =>
    obtain ⟨hx, hl⟩ := List.forall_mem_cons.mp h
    unfold countHits
    rw [hx, ih hl, List.countP_cons]
    cases hit x <;> simp [bind, Except.bind, pure, Except.pure, Nat.add_comm]

omit [CaseFolding] in
theorem mem_zip_self {α : Type} {l : List α} {p : α × α} (h : p ∈ l.zip l) :
    p.1 = p.2 ∧ p.2 ∈ l := by
  obtain ⟨i, hi⟩ := List.mem_iff_getElem?.mp h
  rw [List.getElem?_zip_eq_some] at hi
  exact ⟨Option.some.inj (hi.1.symm.trans hi.2), List.mem_of_getElem? hi.2⟩

/-! ## Scores

The overall score is a weighted mean of the components, and the weights
add up to one. So it lies where they lie. -/

/-- A score lies between 0 and 1. -/
def InUnit (x : ℚ) : Prop := 0 ≤ x ∧ x ≤ 1

/-- Every component and the overall score lie between 0 and 1. It holds of
any two receipts, whether they have to do with each other or not. -/
structure Scores.InUnit (s : Scores) : Prop where
  header : VisionBill.InUnit s.header
  totals : VisionBill.InUnit s.totals
  lineItems : VisionBill.InUnit s.lineItems
  taxes : VisionBill.InUnit s.taxes
  spendingCategories : ∀ x ∈ s.spendingCategories, VisionBill.InUnit x
  overall : VisionBill.InUnit s.overall

/-- Every component and the overall score are 1. This is what is expected
of a receipt that is compared with itself. -/
structure Scores.Perfect (s : Scores) : Prop where
  header : s.header = 1
  totals : s.totals = 1
  lineItems : s.lineItems = 1
  taxes : s.taxes = 1
  spendingCategories : ∀ x ∈ s.spendingCategories, x = 1
  overall : s.overall = 1

/-- The scores that the counts of matches give. With them the scoring is
two steps, of which only the counting can raise. -/
def scoresOf (expected actual : Receipt) (totalHits itemHits taxHits : ℕ) : Scores :=
  let header := fraction ((headerHits expected actual).count true) 8
  let totals := fraction totalHits 5
  let lineItems := fraction itemHits (max expected.lineItems.length actual.lineItems.length)
  let taxes := fraction taxHits (max expected.taxes.length actual.taxes.length)
  let labelled := labelledItems expected
  { header, totals, lineItems, taxes
    spendingCategories := if labelled = [] then none
      else some (fraction (labelled.countP (categoryHit actual)) labelled.length)
    overall := overallScore header totals lineItems taxes }

theorem scoreReceipts_of_counts {expected actual : Receipt} {totalHits itemHits taxHits : ℕ}
    (htotals : countHits (fun fields => moneyEqual fields.1 fields.2)
      ((totalFields expected).zip (totalFields actual)) = .ok totalHits)
    (hitems : countHits itemHit (expected.lineItems.zip actual.lineItems) = .ok itemHits)
    (htaxes : countHits taxHit (expected.taxes.zip actual.taxes) = .ok taxHits) :
    scoreReceipts expected actual = .ok (scoresOf expected actual totalHits itemHits taxHits) := by
  unfold scoreReceipts
  rw [htotals, hitems, htaxes]
  rfl

omit [CaseFolding] in
/-- The weights sum up to one. -/
theorem overallScore_inUnit {header totals lineItems taxes : ℚ} (hh : InUnit header)
    (ht : InUnit totals) (hl : InUnit lineItems) (hx : InUnit taxes) :
    InUnit (overallScore header totals lineItems taxes) := by
  obtain ⟨hh₀, hh₁⟩ := hh
  obtain ⟨ht₀, ht₁⟩ := ht
  obtain ⟨hl₀, hl₁⟩ := hl
  obtain ⟨hx₀, hx₁⟩ := hx
  unfold overallScore
  constructor
  · positivity
  · linarith

/-- All scores of amounts in range lie between 0 and 1. Each counts at
most as many matches as there are fields, and the weights add up to
one. -/
theorem scoreReceipts_inUnit {expected actual : Receipt} (he : AmountsInRange expected)
    (ha : AmountsInRange actual) :
    ∃ s, scoreReceipts expected actual = .ok s ∧ s.InUnit := by
  have htotalHit : ∀ fields ∈ (totalFields expected).zip (totalFields actual),
      ∃ b, moneyEqual fields.1 fields.2 = .ok b := fun fields hfields =>
    moneyEqual_of_inRange (he.totals _ (List.of_mem_zip hfields).1)
      (ha.totals _ (List.of_mem_zip hfields).2)
  have hitemHit : ∀ items ∈ expected.lineItems.zip actual.lineItems,
      ∃ b, itemHit items = .ok b := by
    intro items hitems
    unfold itemHit
    split
    · refine moneyEqual_of_inRange (fun q hq => ?_) fun q hq => ?_
      · exact Option.mem_some.mp hq ▸ he.lineItems _ (List.of_mem_zip hitems).1
      · exact Option.mem_some.mp hq ▸ ha.lineItems _ (List.of_mem_zip hitems).2
    · exact ⟨false, rfl⟩
  have htaxHit : ∀ taxes ∈ expected.taxes.zip actual.taxes, ∃ b, taxHit taxes = .ok b := by
    intro taxes htaxes
    unfold taxHit
    split
    · refine moneyEqual_of_inRange (fun q hq => ?_) fun q hq => ?_
      · exact Option.mem_some.mp hq ▸ he.taxes _ (List.of_mem_zip htaxes).1
      · exact Option.mem_some.mp hq ▸ ha.taxes _ (List.of_mem_zip htaxes).2
    · exact ⟨false, rfl⟩
  -- only comparisons of amounts could raise, and these amounts are in range
  obtain ⟨n, hn, hn₅⟩ := countHits_ok htotalHit
  obtain ⟨i, hi, hile⟩ := countHits_ok hitemHit
  obtain ⟨t, ht, htle⟩ := countHits_ok htaxHit
  rw [List.length_zip] at hn₅ hile htle
  have hheader : InUnit (fraction ((headerHits expected actual).count true) 8) :=
    ⟨fraction_nonneg _ _, fraction_le_one List.count_le_length⟩
  have htotals : InUnit (fraction n 5) :=
    ⟨fraction_nonneg _ _, fraction_le_one (hn₅.trans (Nat.min_le_left 5 5))⟩
  have hitems : InUnit
      (fraction i (max expected.lineItems.length actual.lineItems.length)) :=
    ⟨fraction_nonneg _ _, fraction_le_one (hile.trans min_le_max)⟩
  have htaxes : InUnit (fraction t (max expected.taxes.length actual.taxes.length)) :=
    ⟨fraction_nonneg _ _, fraction_le_one (htle.trans min_le_max)⟩
  refine ⟨_, scoreReceipts_of_counts hn hi ht, hheader, htotals, hitems, htaxes, ?_,
    overallScore_inUnit hheader htotals hitems htaxes⟩
  intro x hx
  unfold scoresOf at hx
  dsimp only at hx
  split at hx
  · exact absurd hx (Option.not_mem_none x)
  · rw [← Option.mem_some.mp hx]
    exact ⟨fraction_nonneg _ _, fraction_le_one List.countP_le_length⟩

/-! ## A receipt against itself

Every comparison of a field with itself holds but that of a missing tip:
amounts are equal only if both are there. So the totals of a receipt
without a tip are not all hit. -/

/-- Every header field matches. -/
theorem headerHits_self (r : Receipt) : (headerHits r r).count true = 8 := by
  unfold headerHits
  simp only [beq_self_eq_true]
  rfl

/-- A labelled item has its category at its own position. -/
theorem categoryHit_self (r : Receipt) :
    (labelledItems r).countP (categoryHit r) = (labelledItems r).length := by
  refine List.countP_eq_length.mpr fun item hitem => ?_
  have hget := List.mem_zipIdx_iff_getElem?.mp (List.mem_of_mem_filter hitem)
  unfold categoryHit
  rw [hget]
  exact decide_eq_true ⟨rfl, rfl⟩

/-- All total fields match, the tip if it is present. This is the only
component in which a receipt can miss itself, since an absent amount
matches nothing. -/
theorem totalHits_self {r : Receipt} (h : AmountsInRange r) :
    countHits (fun fields => moneyEqual fields.1 fields.2) ((totalFields r).zip (totalFields r))
      = .ok (4 + r.tip.isSome.toNat) := by
  have hhit : ∀ fields ∈ (totalFields r).zip (totalFields r),
      moneyEqual fields.1 fields.2 = .ok fields.1.isSome := by
    intro fields hfields
    obtain ⟨heq, hmem⟩ := mem_zip_self hfields
    rw [heq]
    exact moneyEqual_self (h.totals _ hmem)
  rw [countHits_eq hhit]
  unfold totalFields
  cases r.tip <;> rfl

theorem itemHits_self {r : Receipt} (h : AmountsInRange r) :
    countHits itemHit (r.lineItems.zip r.lineItems) = .ok r.lineItems.length := by
  have hhit : ∀ items ∈ r.lineItems.zip r.lineItems, itemHit items = .ok true := by
    intro items hitems
    obtain ⟨heq, hmem⟩ := mem_zip_self hitems
    unfold itemHit
    rw [heq, if_pos rfl]
    exact moneyEqual_self fun q hq => Option.mem_some.mp hq ▸ h.lineItems _ hmem
  rw [countHits_eq hhit, List.countP_true, List.length_zip, Nat.min_self]

theorem taxHits_self {r : Receipt} (h : AmountsInRange r) :
    countHits taxHit (r.taxes.zip r.taxes) = .ok r.taxes.length := by
  have hhit : ∀ taxes ∈ r.taxes.zip r.taxes, taxHit taxes = .ok true := by
    intro taxes htaxes
    obtain ⟨heq, hmem⟩ := mem_zip_self htaxes
    unfold taxHit
    rw [heq, if_pos rfl]
    exact moneyEqual_self fun q hq => Option.mem_some.mp hq ▸ h.taxes _ hmem
  rw [countHits_eq hhit, List.countP_true, List.length_zip, Nat.min_self]

/-- A receipt scored against itself: everything is 1 but the totals, which
miss an absent tip. -/
theorem scoreReceipts_self {r : Receipt} (h : AmountsInRange r) :
    ∃ s, scoreReceipts r r = .ok s ∧ s.header = 1 ∧ s.lineItems = 1 ∧ s.taxes = 1
      ∧ (∀ x ∈ s.spendingCategories, x = 1)
      ∧ s.totals = (if r.tip.isSome then 1 else 4 / 5)
      ∧ s.overall = (if r.tip.isSome then 1 else 93 / 100) := by
  refine ⟨_, scoreReceipts_of_counts (totalHits_self h) (itemHits_self h) (taxHits_self h), ?_⟩
  have hheader : fraction ((headerHits r r).count true) 8 = 1 := by
    rw [headerHits_self, fraction_self]
  have hitems : fraction r.lineItems.length (max r.lineItems.length r.lineItems.length) = 1 := by
    rw [max_self, fraction_self]
  have htaxes : fraction r.taxes.length (max r.taxes.length r.taxes.length) = 1 := by
    rw [max_self, fraction_self]
  have htotals : fraction (4 + r.tip.isSome.toNat) 5
      = if r.tip.isSome then 1 else 4 / 5 := by
    cases r.tip with
    | none => rfl
    | some tip => exact fraction_self 5
  refine ⟨hheader, hitems, htaxes, fun x hx => ?_, htotals, ?_⟩
  · unfold scoresOf at hx
    dsimp only at hx
    split at hx
    · exact absurd hx (Option.not_mem_none x)
    · rw [← Option.mem_some.mp hx, categoryHit_self, fraction_self]
  · show overallScore (fraction ((headerHits r r).count true) 8)
      (fraction (4 + r.tip.isSome.toNat) 5) _ _ = _
    rw [hheader, htotals, hitems, htaxes]
    unfold overallScore
    split <;> norm_num

/-- **A perfect extraction scores 1** exactly if it has a tip; all scores
of all extractions lie between 0 and 1. Whether anything else is on the
receipt does not matter. -/
theorem scoreReceipts_perfect_iff (expected actual : Receipt) (he : AmountsInRange expected)
    (ha : AmountsInRange actual) :
    (∃ s, scoreReceipts expected actual = .ok s ∧ s.InUnit)
      ∧ ((∃ s, scoreReceipts expected expected = .ok s ∧ s.Perfect)
        ↔ expected.tip.isSome = true) := by
  refine ⟨scoreReceipts_inUnit he ha, ?_⟩
  obtain ⟨s, hs, hheader, hitems, htaxes, hcategories, htotals, hoverall⟩ := scoreReceipts_self he
  constructor
  · rintro ⟨s', hs', hperfect⟩
    obtain rfl := Except.ok.inj (hs.symm.trans hs')
    by_contra htip
    rw [hperfect.totals, if_neg htip] at htotals
    norm_num at htotals
  · intro htip
    rw [if_pos htip] at htotals hoverall
    exact ⟨s, hs, hheader, htotals, hitems, htaxes, hcategories, hoverall⟩

end Scoring

/-! ## A receipt without a tip -/

section WithoutTip

local instance asciiFoldingOfBlank : CaseFolding := asciiFolding

/-- A receipt with nothing on it. -/
def blankReceipt : Receipt := { toReceiptFields := emptyFields, lineItems := [] }

theorem inRange_zero : InRange 0 := by
  unfold InRange halfUp
  norm_num [Decimal.prec]

theorem amountsInRange_blankReceipt : AmountsInRange blankReceipt := by
  refine ⟨fun x hx y hy => ?_, fun item hitem => absurd hitem List.not_mem_nil,
    fun tax htax => absurd htax List.not_mem_nil⟩
  have hzero : ∀ x ∈ totalFields blankReceipt, ∀ y ∈ x, y = 0 := by decide
  rw [hzero x hx y hy]
  exact inRange_zero

/-- **It does not score 1 against itself.** Its tip is absent, and for
`_money_equal` an absent amount does not equal an absent one. -/
theorem blankReceipt_imperfect : AmountsInRange blankReceipt
    ∧ ¬ ∃ s, scoreReceipts blankReceipt blankReceipt = .ok s ∧ s.Perfect := by
  refine ⟨amountsInRange_blankReceipt, ?_⟩
  rintro ⟨s, hs, hperfect⟩
  obtain ⟨s', hs', -, -, -, -, htotals, -⟩ := scoreReceipts_self amountsInRange_blankReceipt
  obtain rfl := Except.ok.inj (hs.symm.trans hs')
  rw [hperfect.totals] at htotals
  exact absurd htotals (by norm_num [blankReceipt, emptyFields])

end WithoutTip

/-! ## A receipt with a tip -/

section WithTip

local instance asciiFoldingOfDinner : CaseFolding := asciiFolding

/-- A dish of `dinnerReceipt`. -/
def dish (description : String) (spendingCategory : SpendingCategory) (totalPrice : ℚ) :
    LineItem where
  description := description
  spendingCategory := spendingCategory
  quantity := .ofInt 2
  unitPrice := totalPrice / 2
  totalPrice := totalPrice
  tags := []
  quantity_pos := isPos_two
  tags_normal := rfl

/-- A dinner for two, with value added tax and a tip. One dish is labelled
and one is not. -/
def dinnerReceipt : Receipt :=
  { emptyFields with
    merchantName := "Trattoria"
    time := some "20:15"
    category := .restaurant
    lineItems := [dish "Pizza" .restaurant 19, dish "Water" .unknown (28 / 5)]
    taxes := [⟨"VAT", some (.ofInt 10), 123 / 50, by norm_num⟩]
    subtotal := 123 / 5
    taxTotal := 123 / 50
    tip := some (147 / 50)
    total := 30
    taxTotal_nonneg := by norm_num
    tip_nonneg := fun t ht => by rw [← Option.mem_some.mp ht]; norm_num
    total_checked := by decide +kernel }

theorem amountsInRange_dinnerReceipt : AmountsInRange dinnerReceipt := by
  constructor <;> decide +kernel

/-- **A dinner with a tip** scores 1 against itself, in every component
and overall, and between 0 and 1 against a receipt on which nothing was
found. It has two line items and a tax, so that no component is an average
over nothing. -/
theorem dinnerReceipt_scored :
    (∃ s, scoreReceipts dinnerReceipt blankReceipt = .ok s ∧ s.InUnit)
      ∧ ∃ s, scoreReceipts dinnerReceipt dinnerReceipt = .ok s ∧ s.Perfect := by
  have hscored := scoreReceipts_perfect_iff dinnerReceipt blankReceipt
    amountsInRange_dinnerReceipt amountsInRange_blankReceipt
  exact ⟨hscored.1, hscored.2.mpr rfl⟩

end WithTip

end VisionBill
