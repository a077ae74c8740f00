import VisionBill.CollectionDB
import VisionBill.Lib.Tally
import Mathlib.Data.Prod.Lex
import Mathlib.Data.String.Basic

/-!
# The item-spending report

`item_statistics_service.py` and its one query. The query adds up the line
items of the verified receipts of a window of months, by month, category
and currency, and the receipts themselves by currency; the report puts
these sums together. Deposits stand apart, and what the line items of a
currency leave of its receipts is listed as unallocated.

The sums are finite `Decimal`s, and the program adds in the default
context.

## The window

The report is about the month of today and some months before it. A month
is named by its first day, and `month_start` computes with the number of
months since the year 0, so that it may leave the calendar and then
raises. The last day of the window is today, and not the end of its month.

## From rows to a report

The rows of the query come with what they sum up, line items or receipts,
and a loop sorts them into dictionaries: the total of each category, of
each category in each month, of all items, of deposits, and of receipts. A
category that does not occur in a month has no entry there, and the report
lists it with zero. Shares are computed at the end, and a total that is
not positive has none. All of this is in the order of the source, because
every addition is rounded to the context, and one that raises ends the
report.
-/

namespace VisionBill

/-! ## Months -/

/-- `date(year, month, 1)`. -/
def firstOf (year month : ℤ) : Except PyError Date :=
  if h : (1 ≤ year ∧ year ≤ 9999) ∧ 1 ≤ month ∧ month ≤ 12 then
    .ok ⟨year.toNat, month.toNat, 1, by omega, by omega, Nat.le_refl 1, one_le_daysInMonth _ _⟩
  else .error (.valueError ("year " ++ toString year ++ " is out of range"))

/-- `month_start`. An offset may be negative, and the division is that of
Python, which rounds down. -/
def monthStart (value : Date) (offset : ℤ := 0) : Except PyError Date :=
  let months : ℤ := value.year * 12 + value.month - 1 + offset
  firstOf (months / 12) (months % 12 + 1)

/-- The number of a month, counted from the beginning of the year 0. -/
def Date.monthIndex (d : Date) : ℤ := d.year * 12 + d.month - 1

theorem firstOf_eq_ok {year month : ℤ} {d : Date} :
    firstOf year month = .ok d ↔ (d.year : ℤ) = year ∧ (d.month : ℤ) = month ∧ d.day = 1 := by
  obtain ⟨hyear, hmonth, -⟩ := d.valid
  unfold firstOf
  split
  · next h =>
    rw [Except.ok.injEq]
    constructor
    · rintro rfl
      exact ⟨Int.toNat_of_nonneg (by omega), Int.toNat_of_nonneg (by omega), rfl⟩
    · rintro ⟨rfl, rfl, hday⟩
      exact Date.ext (Int.toNat_natCast _) (Int.toNat_natCast _) hday.symm
  · next h =>
    refine ⟨fun heq => absurd heq (by simp), fun ⟨h₁, h₂, _⟩ => absurd ?_ h⟩
    omega

/-- **`month_start` moves by months**: it returns the first day of the
month that is `offset` months away. Counting months from the year zero
makes of it one addition, where the code takes quotient and remainder of
one. -/
theorem monthStart_eq_ok {value d : Date} {offset : ℤ} :
    monthStart value offset = .ok d ↔ d.monthIndex = value.monthIndex + offset ∧ d.day = 1 := by
  obtain ⟨-, hmonth, -⟩ := d.valid
  unfold monthStart
  dsimp only
  rw [firstOf_eq_ok]
  unfold Date.monthIndex
  omega

/-- It raises for a month outside the calendar. -/
theorem monthStart_isOk {value : Date} {offset : ℤ}
    (hlow : 12 ≤ value.monthIndex + offset) (hhigh : value.monthIndex + offset < 120000) :
    ∃ d, monthStart value offset = .ok d := by
  unfold monthStart
  dsimp only
  unfold Date.monthIndex at hlow hhigh
  exact ⟨_, dif_pos (by omega)⟩

/-! ## The query

One statement returns the line items by month, category and currency, and
the receipts by currency. Both parts look at verified receipts of the same
window. -/

/-- What a row of the result sums up. One statement returns both kinds, so
that they are about the same state. -/
inductive RowKind
  | item | receipt
  deriving DecidableEq, Repr

/-- A row of `ITEM_STATISTICS_SQL`. The rows of receipts have no month and
no category. -/
structure StatisticsRow where
  kind : RowKind
  month : Option Date
  category : Option String
  currency : String
  total : ℚ

namespace Db

/-- Whether a receipt is one of `scoped_receipts`: verified, in the
window, of the caller, and in the collection if one is asked for. -/
def InScope (db : Db) (dateFrom dateTo : Date) (caller : Caller) (collectionId : Option UUID)
    (r : ReceiptRecord) : Prop :=
  r.status = .verified ∧ r.verified = true ∧ dateFrom ≤ r.date ∧ r.date ≤ dateTo
    ∧ caller.Scope r.userId ∧ ∀ id ∈ collectionId, ⟨r.id, id⟩ ∈ db.links.rows

instance (db : Db) (dateFrom dateTo : Date) (caller : Caller) (collectionId : Option UUID) :
    DecidablePred (db.InScope dateFrom dateTo caller collectionId) := fun _ =>
  inferInstanceAs (Decidable (_ ∧ _ ∧ _ ∧ _ ∧ _ ∧ _))

/-- `scoped_receipts`. -/
def scopedReceipts (db : Db) (dateFrom dateTo : Date) (caller : Caller)
    (collectionId : Option UUID) : List ReceiptRecord :=
  db.receipts.rows.filter (db.InScope dateFrom dateTo caller collectionId)

/-- Receipts joined with their line items. -/
def withItems (db : Db) (receipts : List ReceiptRecord) : List (ReceiptRecord × LineItemRecord) :=
  receipts.flatMap fun r =>
    (db.lineItems.rows.filter (fun i => i.receiptId = r.id)).map (fun i => (r, i))

end Db

/-- What the line items are grouped by. -/
def itemGroup (entry : ReceiptRecord × LineItemRecord) : Date × SpendingCategory × String :=
  (entry.1.date.firstOfMonth, entry.2.spendingCategory, entry.1.currency)

/-- The row of a group of line items. -/
def itemRow (group : (Date × SpendingCategory × String) × ℚ) : StatisticsRow where
  kind := .item
  month := some group.1.1
  category := some group.1.2.1.code
  currency := group.1.2.2
  total := group.2

/-- The row of a group of receipts. -/
def receiptRow (group : String × ℚ) : StatisticsRow where
  kind := .receipt
  month := none
  category := none
  currency := group.1
  total := group.2

/-- `ITEM_STATISTICS_SQL`. -/
def Db.getTotals (db : Db) (dateFrom dateTo : Date) (caller : Caller)
    (collectionId : Option UUID) : List StatisticsRow :=
  let receipts := db.scopedReceipts dateFrom dateTo caller collectionId
  (Tally.groupSum itemGroup (fun entry => entry.2.totalPrice) (db.withItems receipts)).map itemRow
    ++ (Tally.groupSum (fun r => r.currency) (fun r => r.total) receipts).map receiptRow

/-! ## The report

The rows are added up in one loop, into a dictionary for each list of the
report. A dictionary with a default has an entry for each key that was
asked for, also where nothing was added. -/

/-- `ItemCategoryStatistics`. The share is missing where the total of its
currency is not positive. -/
structure ItemCategoryStatistics where
  category : String
  currency : String
  total : ℚ
  share : Option ℚ
  deriving DecidableEq

/-- `MonthlyItemStatistics`. The share is that within its month and its
currency. -/
structure MonthlyItemStatistics extends ItemCategoryStatistics where
  month : Date
  deriving DecidableEq

/-- `ItemReconciliation`. What the receipts add up to is set against their
items, and the rest is unallocated. Deposits are items, and listed apart
as well. -/
structure ItemReconciliation where
  currency : String
  receiptTotal : ℚ
  itemTotal : ℚ
  depositTotal : ℚ
  unallocatedTotal : ℚ
  deriving DecidableEq

/-- `ItemStatistics`. -/
structure ItemStatistics where
  months : ℕ
  dateFrom : Date
  dateTo : Date
  categories : List ItemCategoryStatistics
  monthly : List MonthlyItemStatistics
  reconciliation : List ItemReconciliation
  deriving DecidableEq

/-- `percentage`: a total that is not positive has no shares. The quotient
is rounded to the precision of the context first and to two decimals
last. -/
def percentage (amount total : ℚ) : Except PyError (Option ℚ) :=
  if 0 < total then do
    let ratio ← Decimal.fixFinite (amount / total)
    let percent ← Decimal.fixFinite (ratio * 100)
    return some (← Decimal.quantize 2 percent)
  else return none

/-- The dictionaries that `build_item_statistics` fills. A missing key
stands for zero in each of them. -/
structure Accumulators where
  totals : Tally (String × String) ℚ := .empty
  monthly : Tally (Option Date × String × String) ℚ := .empty
  currencyTotals : Tally String ℚ := .empty
  monthTotals : Tally (Option Date × String) ℚ := .empty
  receiptTotals : Tally String ℚ := .empty
  deposits : Tally String ℚ := .empty
  itemTotals : Tally String ℚ := .empty

/-- `d[k] += x`. -/
def plus {κ : Type} [DecidableEq κ] (d : Tally κ ℚ) (k : κ) (x : ℚ) :
    Except PyError (Tally κ ℚ) := do
  return d.set k (← Decimal.fixFinite (d.get k + x))

/-- `str(row["category"] or "unknown")`. -/
def StatisticsRow.categoryName (row : StatisticsRow) : String :=
  (row.category.filter (· ≠ "")).getD "unknown"

/-- One pass of the loop over the rows. A deposit counts as an item of its
currency, and is kept out of the categories. -/
def Accumulators.addRow (acc : Accumulators) (row : StatisticsRow) :
    Except PyError Accumulators :=
  match row.kind with
  | .receipt => do
    let receiptTotals ← plus acc.receiptTotals row.currency row.total
    return { acc with receiptTotals := receiptTotals }
  | .item => do
    let itemTotals ← plus acc.itemTotals row.currency row.total
    if row.categoryName = "deposit" then
      let deposits ← plus acc.deposits row.currency row.total
      return { acc with itemTotals := itemTotals, deposits := deposits }
    else
      let totals ← plus acc.totals (row.categoryName, row.currency) row.total
      let monthly ← plus acc.monthly (row.month, row.categoryName, row.currency) row.total
      let currencyTotals ← plus acc.currencyTotals row.currency row.total
      let monthTotals ← plus acc.monthTotals (row.month, row.currency) row.total
      return { acc with
        itemTotals := itemTotals
        totals := totals
        monthly := monthly
        currencyTotals := currencyTotals
        monthTotals := monthTotals }

/-- The order of the categories: by currency, the largest total first. -/
def CategoryLe (e e' : (String × String) × ℚ) : Prop :=
  toLex (e.1.2, toLex (-e.2, e.1.1)) ≤ toLex (e'.1.2, toLex (-e'.2, e'.1.1))

instance : DecidableRel CategoryLe := fun _ _ => inferInstanceAs (Decidable (toLex _ ≤ toLex _))

/-- The entry of a category. -/
def Accumulators.categoryStatistics (acc : Accumulators) (e : (String × String) × ℚ) :
    Except PyError ItemCategoryStatistics := do
  let share ← percentage e.2 (acc.currencyTotals.get e.1.2)
  return { category := e.1.1, currency := e.1.2, total := e.2, share := share }

/-- The entry of a category in a month. -/
def Accumulators.monthlyStatistics (acc : Accumulators) (month : Date) (k : String × String) :
    Except PyError MonthlyItemStatistics := do
  let total := acc.monthly.get (some month, k.1, k.2)
  let share ← percentage total (acc.monthTotals.get (some month, k.2))
  return { month := month, category := k.1, currency := k.2, total := total, share := share }

/-- The entry of a currency: its receipts, its items, and the difference
of the two. -/
def Accumulators.reconcile (acc : Accumulators) (currency : String) :
    Except PyError ItemReconciliation := do
  let receiptTotal := acc.receiptTotals.get currency
  let itemTotal := acc.itemTotals.get currency
  let unallocatedTotal ← Decimal.fixFinite (receiptTotal - itemTotal)
  return {
    currency := currency
    receiptTotal := receiptTotal
    itemTotal := itemTotal
    depositTotal := acc.deposits.get currency
    unallocatedTotal := unallocatedTotal }

/-- The entries of a month that lies `offset` months after the first. -/
def Accumulators.monthEntries (acc : Accumulators) (start : Date) (offset : ℕ) :
    Except PyError (List MonthlyItemStatistics) := do
  let month ← monthStart start offset
  (orderBy (fun k k' => toLex k ≤ toLex k') acc.totals.keys).mapM (acc.monthlyStatistics month)

/-- `build_item_statistics`. Without a row there are no months to list.
The rows are read once, and the dictionaries are sorted at the end. -/
def buildItemStatistics (rows : List StatisticsRow) (months : ℕ) (today : Date) :
    Except PyError ItemStatistics := do
  let start ← monthStart today (1 - months)
  let acc ← rows.foldlM Accumulators.addRow {}
  let categories ← (orderBy CategoryLe acc.totals.entries).mapM acc.categoryStatistics
  let history ← (List.range months).mapM (acc.monthEntries start)
  let currencies := orderBy (· ≤ ·) (acc.receiptTotals.keys ∪ acc.itemTotals.keys)
  let reconciliation ← currencies.mapM acc.reconcile
  return {
    months := months
    dateFrom := start
    dateTo := today
    categories := categories
    monthly := history.flatten
    reconciliation := reconciliation }

/-- `get_statistics` on the day `today`. The day is an argument, since the
source asks the clock once and uses the answer for the whole report. -/
def Db.itemStatistics (db : Db) (caller : Caller) (collectionId : Option UUID) (today : Date)
    (months : ℕ) : Except PyError ItemStatistics := do
  let start ← monthStart today (1 - months)
  buildItemStatistics (db.getTotals start today caller collectionId) months today

end VisionBill
