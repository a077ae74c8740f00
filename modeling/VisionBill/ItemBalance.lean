import VisionBill.ItemTotals

/-!
# The item-spending report balances

Every total of the report is the sum of certain line items or receipts,
and so the totals fit together (`Balances`): the categories of a currency
and its deposits make up its line items, these and what is unallocated its
receipts, and the months of a category the category.

## What fits together

The numbers of the report are computed in different ways, in different
dictionaries, and some of them from others. That they fit together is
shown by saying of each what it is a sum of, in terms of the tables
(`Db.spent`), and then comparing these sums. In particular the months of a
category add up to the category because the window has every month in
which an item of it was bought.

## That there is a report

The report is built for every window in the calendar, as long as its
shares have no more digits than the decimal context; tables of up to a
thousand million rows see to that (`itemStatistics_isOk`). A share is a
quotient, rounded to two places, and the quotient of a huge amount and a
total of a few cents could have too many digits, for which `quantize`
raises. It would take a refund of nearly the same size in the same
currency.

## What is not listed

A report without rows lists no month, not even the current one
(`emptyReport_noMonth`), and a test of the source says so. The window is
listed for each category that there is.
-/

namespace VisionBill

open StatisticsRow
open Tally (sumOver sumOver_map sumOver_perm sumOver_congr)

/-! ## What the database holds

Amounts have two decimals and are bounded, and tables have a bounded
number of rows. With that, sums of decimals are exact, though the context
rounds to 28 digits. -/

/-- An amount of a `NUMERIC(14, 2)` column: whole cents, with at most
twelve digits before the point. -/
def IsAmount (x : ℚ) : Prop := ∃ n : ℤ, x = n / 100 ∧ |n| < 10 ^ 14

/-- The rows that a table can have: each of its pages, at most 2 ^ 32, has
at most 291. -/
def maxRows : ℕ := 2 ^ 32 * 291

/-- What the columns and the size of a table admit. Every database is of
this kind; the model of a table is a list, which has no bound of its
own. -/
structure Db.Storable (db : Db) : Prop where
  receipts : ∀ r ∈ db.receipts.rows, IsAmount r.total
  lineItems : ∀ i ∈ db.lineItems.rows, IsAmount i.totalPrice
  receipts_length : db.receipts.rows.length ≤ maxRows
  lineItems_length : db.lineItems.rows.length ≤ maxRows

theorem IsAmount.cents {x : ℚ} (h : IsAmount x) : IsCents x :=
  let ⟨n, hn, _⟩ := h
  ⟨n, hn⟩

theorem IsAmount.abs_le {x : ℚ} (h : IsAmount x) : |x| ≤ 10 ^ 12 := by
  obtain ⟨n, rfl, hn⟩ := h
  have hn' : (|n| : ℚ) < 10 ^ 14 := by exact_mod_cast hn
  rw [abs_div, div_le_iff₀ (by norm_num)]
  norm_num
  linarith

/-- Amounts add up to at most a million million each. -/
theorem sum_abs_le {α : Type} {value : α → ℚ} {l : List α} (h : ∀ a ∈ l, IsAmount (value a)) :
    (l.map fun a => |value a|).sum ≤ l.length * 10 ^ 12 := by
  induction l with
  | nil => simp
  | cons a l ih =>
    have ha := (h a List.mem_cons_self).abs_le
    have hl := ih fun b hb => h b (List.mem_cons_of_mem a hb)
    rw [List.map_cons, List.sum_cons, List.length_cons]
    push_cast
    linarith

section Rows

variable {db : Db} (hdb : db.Storable) (dateFrom dateTo : Date) (caller : Caller)
  (collectionId : Option UUID)

include hdb

/-- The rows of the query are not larger than the tables. Each receipt and
each line item is in one row at most, and each amount is bounded by its
column. -/
theorem sum_abs_getTotals_le :
    ((db.getTotals dateFrom dateTo caller collectionId).map fun row => |row.total|).sum
      ≤ (db.receipts.rows.length + db.lineItems.rows.length : ℕ) * 10 ^ 12 := by
  have hreceipts : ((db.scopedReceipts dateFrom dateTo caller collectionId).map
      fun r => |r.total|).sum ≤ db.receipts.rows.length * 10 ^ 12 := by
    refine le_trans (List.Sublist.sum_le_sum (List.filter_sublist.map _) fun x hx => ?_)
      (sum_abs_le hdb.receipts)
    obtain ⟨r, -, rfl⟩ := List.mem_map.mp hx
    exact abs_nonneg _
  have hitems : ((db.withItems (db.scopedReceipts dateFrom dateTo caller collectionId)).map
      fun e => |e.2.totalPrice|).sum ≤ db.lineItems.rows.length * 10 ^ 12 := by
    have hjoin := sumOver_withItems db
      (nodup_scopedReceipts db dateFrom dateTo caller collectionId)
      (fun i => |i.totalPrice|) (fun _ _ => True)
    rw [Tally.sumOver_true] at hjoin
    rw [hjoin]
    refine le_trans (le_trans (le_abs_self _) (Tally.abs_sumOver_le _ _ _)) ?_
    simp only [abs_abs]
    exact sum_abs_le hdb.lineItems
  unfold Db.getTotals
  rw [List.map_append, List.sum_append, List.map_map, List.map_map]
  have h₁ := Tally.sum_abs_groupSum_le (fun r : ReceiptRecord => r.currency) (fun r => r.total)
    (db.scopedReceipts dateFrom dateTo caller collectionId)
  have h₂ := Tally.sum_abs_groupSum_le itemGroup (fun e => e.2.totalPrice)
    (db.withItems (db.scopedReceipts dateFrom dateTo caller collectionId))
  push_cast
  calc _ ≤ (db.lineItems.rows.length : ℚ) * 10 ^ 12 + db.receipts.rows.length * 10 ^ 12 :=
        add_le_add (h₂.trans hitems) (h₁.trans hreceipts)
    _ = _ := by ring

/-- The rows of the query are sums of whole cents. So they have no digits
that an addition of the context could round away. -/
theorem cents_getTotals :
    ∀ row ∈ db.getTotals dateFrom dateTo caller collectionId, IsCents row.total := by
  intro row hrow
  rcases List.mem_append.mp hrow with h | h
  · obtain ⟨⟨k, v⟩, hgroup, rfl⟩ := List.mem_map.mp h
    rw [show (itemRow (k, v)).total = v from rfl, (Tally.mem_groupSum.mp hgroup).2]
    refine IsCents.sumOver (fun e he => ?_) _
    obtain ⟨r, -, he⟩ := List.mem_flatMap.mp he
    obtain ⟨i, hi, rfl⟩ := List.mem_map.mp he
    exact (hdb.lineItems i (List.mem_of_mem_filter hi)).cents
  · obtain ⟨⟨k, v⟩, hgroup, rfl⟩ := List.mem_map.mp h
    rw [show (receiptRow (k, v)).total = v from rfl, (Tally.mem_groupSum.mp hgroup).2]
    exact IsCents.sumOver (fun r hr => (hdb.receipts r (List.mem_of_mem_filter hr)).cents) _

theorem exactRows_getTotals : ExactRows (db.getTotals dateFrom dateTo caller collectionId) := by
  refine ⟨cents_getTotals hdb dateFrom dateTo caller collectionId,
    (sum_abs_getTotals_le hdb dateFrom dateTo caller collectionId).trans_lt ?_⟩
  have hrows : db.receipts.rows.length + db.lineItems.rows.length < 10 ^ 14 := by
    have h₁ := hdb.receipts_length
    have h₂ := hdb.lineItems_length
    unfold maxRows at h₁ h₂
    omega
  have hrows' : ((db.receipts.rows.length + db.lineItems.rows.length : ℕ) : ℚ) < 10 ^ 14 := by
    exact_mod_cast hrows
  linarith

end Rows

/-! ## The lists of the report

The report is built from dictionaries, with one entry for each key that
has occurred. A list of it is complete and has no key twice, so that
adding it up is adding up the dictionary. -/

/-- A key's part of a table that has an entry for each pair. The report
lists months and categories like this, and one category is one column of
it. -/
theorem filter_table {α β γ : Type} [DecidableEq β] {keys : List β} (hnodup : keys.Nodup) {k : β}
    (hk : k ∈ keys) (f : α → β → γ) (l : List α) :
    (l.flatMap fun a => keys.map fun k' => (a, k', f a k')).filter (fun e => e.2.1 = k)
      = l.map fun a => (a, k, f a k) := by
  have hone : keys.filter (fun k' => k' = k) = [k] := by
    rw [List.filter_eq, List.count_eq_one_of_mem hnodup hk]
    rfl
  induction l with
  | nil => rfl
  | cons a l ih =>
    rw [List.flatMap_cons, List.filter_append, ih, List.map_cons, List.filter_map]
    show (keys.filter (fun k' => k' = k)).map _ ++ _ = _
    rw [hone]
    rfl

/-- What an entry of a month says. -/
def MonthlyItemStatistics.cell (m : MonthlyItemStatistics) : Date × (String × String) × ℚ :=
  (m.month, (m.category, m.currency), m.total)

namespace Accumulators

variable {acc : Accumulators}

/-- The listed categories are those that have an entry. -/
theorem categories_eq {categories : List ItemCategoryStatistics}
    (h : (orderBy CategoryLe acc.totals.entries).mapM acc.categoryStatistics = .ok categories) :
    (categories.map fun c => ((c.category, c.currency), c.total)).Perm acc.totals.entries := by
  have hmap : categories.map (fun c => ((c.category, c.currency), c.total))
      = (orderBy CategoryLe acc.totals.entries).map id := by
    refine map_of_mapM (fun e _ c hc => ?_) h
    obtain ⟨share, -, hc⟩ := bind_eq_ok.mp hc
    rw [← Except.ok.inj hc]
    rfl
  rw [hmap, List.map_id]
  exact perm_orderBy _ _

/-- The keys in the order in which each month lists them. -/
def sortedKeys (acc : Accumulators) : List (String × String) :=
  orderBy (fun k k' => toLex k ≤ toLex k') acc.totals.keys

theorem mem_sortedKeys {k : String × String} : k ∈ acc.sortedKeys ↔ k ∈ acc.totals.keys :=
  mem_orderBy

theorem nodup_sortedKeys : acc.sortedKeys.Nodup :=
  (perm_orderBy _ _).nodup_iff.mpr acc.totals.nodup

/-- The history is a table of the months and the categories. Months in
which a category has nothing are in it, with zero. -/
theorem history_eq {today start : Date} {months : ℕ}
    (hstart : monthStart today (1 - months) = .ok start)
    {history : List (List MonthlyItemStatistics)}
    (h : (List.range months).mapM (acc.monthEntries start) = .ok history) :
    history.flatten.map MonthlyItemStatistics.cell
      = ((List.range months).map (monthAt start)).flatMap fun month =>
          acc.sortedKeys.map fun k => (month, k, acc.monthly.get (some month, k.1, k.2)) := by
  have hrows : history.map (List.map MonthlyItemStatistics.cell)
      = (List.range months).map fun offset => acc.sortedKeys.map fun k =>
          (monthAt start offset, k, acc.monthly.get (some (monthAt start offset), k.1, k.2)) := by
    refine map_of_mapM (fun offset hoffset entries hentries => ?_) h
    obtain ⟨month, hmonth, hentries⟩ := bind_eq_ok.mp hentries
    rw [monthStart_monthAt hstart (List.mem_range.mp hoffset)] at hmonth
    obtain rfl := Except.ok.inj hmonth
    refine map_of_mapM (fun k _ m hm => ?_) hentries
    obtain ⟨share, -, hm⟩ := bind_eq_ok.mp hm
    rw [← Except.ok.inj hm]
    rfl
  rw [List.map_flatten, hrows, List.flatMap_map, ← List.flatMap_def]

/-- The currencies that the report reconciles. -/
def currencies (acc : Accumulators) : List String :=
  orderBy (· ≤ ·) (acc.receiptTotals.keys ∪ acc.itemTotals.keys)

theorem nodup_currencies : acc.currencies.Nodup :=
  (perm_orderBy _ _).nodup_iff.mpr (List.Nodup.union _ acc.itemTotals.nodup)

theorem mem_currencies {c : String} :
    c ∈ acc.currencies ↔ c ∈ acc.receiptTotals.keys ∨ c ∈ acc.itemTotals.keys := by
  rw [← List.mem_union_iff]
  exact mem_orderBy

/-- The rest of a currency is computed exactly. Both sums are whole cents
and small, so the subtraction rounds nothing. -/
theorem reconcile_eq {rows : List StatisticsRow} (h : acc.Sums rows) (hexact : ExactRows rows)
    (c : String) :
    acc.reconcile c = .ok {
      currency := c
      receiptTotal := acc.receiptTotals.get c
      itemTotal := acc.itemTotals.get c
      depositTotal := acc.deposits.get c
      unallocatedTotal := acc.receiptTotals.get c - acc.itemTotals.get c } := by
  have hreceipt := h.receiptTotals.get c
  have hitem := h.itemTotals.get c
  have hcents : IsCents (acc.receiptTotals.get c - acc.itemTotals.get c) := by
    rw [hreceipt, hitem]
    exact (IsCents.sumOver hexact.cents _).sub (IsCents.sumOver hexact.cents _)
  have habs : |acc.receiptTotals.get c - acc.itemTotals.get c| < 10 ^ 26 := by
    -- no row is part of both sums
    have hexcl : ∀ row ∈ rows, ¬ (keyIf IsReceipt StatisticsRow.currency row = some c
        ∧ keyIf IsItem StatisticsRow.currency row = some c) := by
      rintro row - ⟨h₁, h₂⟩
      have hreceipt := (keyIf_eq_some.mp h₁).1
      have hitem := (keyIf_eq_some.mp h₂).1
      simp [IsReceipt, IsItem] at hreceipt hitem
      rw [hreceipt] at hitem
      exact absurd hitem (by decide)
    have hall := Tally.abs_sumOver_le (fun row : StatisticsRow => |row.total|)
      (fun row => keyIf IsReceipt StatisticsRow.currency row = some c
        ∨ keyIf IsItem StatisticsRow.currency row = some c) rows
    rw [Tally.sumOver_or _ hexcl] at hall
    simp only [abs_abs] at hall
    rw [hreceipt, hitem]
    refine ((abs_sub _ _).trans (add_le_add (Tally.abs_sumOver_le_sumOver _ _ _)
      (Tally.abs_sumOver_le_sumOver _ _ _))).trans_lt ?_
    exact ((le_abs_self _).trans hall).trans_lt hexact.bounded
  obtain ⟨n, hn⟩ := hcents
  unfold reconcile
  dsimp only
  rw [Decimal.fixFinite_of_cents hn habs]
  rfl

end Accumulators

/-! ## The report

Each total of the report is a sum over the rows of the query, and a row is
the sum of a group. So the totals are sums over line items and receipts,
and these are compared. -/

/-- **The report balances.** Its totals are the sums of certain receipts
and line items of the receipts in scope, each counted once, and fit
together. -/
structure Balances (db : Db) (caller : Caller) (collectionId : Option UUID) (today : Date)
    (months : ℕ) (report : ItemStatistics) : Prop where
  /-- The window begins `months - 1` months before the month of today. -/
  dateFrom : monthStart today (1 - months) = .ok report.dateFrom
  dateTo : report.dateTo = today
  /-- There is one entry for each currency in scope. -/
  currencies_nodup : (report.reconciliation.map ItemReconciliation.currency).Nodup
  currencies : ∀ c, c ∈ report.reconciliation.map ItemReconciliation.currency
    ↔ ∃ r ∈ db.scopedReceipts report.dateFrom today caller collectionId, r.currency = c
  receiptTotal : ∀ e ∈ report.reconciliation, e.receiptTotal
    = sumOver (fun r => r.total) (fun r => db.InScope report.dateFrom today caller collectionId r
        ∧ r.currency = e.currency) db.receipts.rows
  itemTotal : ∀ e ∈ report.reconciliation, e.itemTotal
    = db.spent (db.scopedReceipts report.dateFrom today caller collectionId)
        fun r _ => r.currency = e.currency
  depositTotal : ∀ e ∈ report.reconciliation, e.depositTotal
    = db.spent (db.scopedReceipts report.dateFrom today caller collectionId)
        fun r i => i.spendingCategory = .deposit ∧ r.currency = e.currency
  /-- Categories and deposits make up the line items of a currency. -/
  categories_add : ∀ e ∈ report.reconciliation,
    sumOver (fun c => c.total) (fun c => c.currency = e.currency) report.categories
      + e.depositTotal = e.itemTotal
  /-- Line items and what is unallocated make up the receipts of a
  currency. -/
  unallocated_add : ∀ e ∈ report.reconciliation,
    e.itemTotal + e.unallocatedTotal = e.receiptTotal
  /-- There is one entry for each category and currency, and none for
  deposits. -/
  categories_nodup : (report.categories.map fun c => (c.category, c.currency)).Nodup
  not_deposit : ∀ c ∈ report.categories, c.category ≠ "deposit"
  categoryTotal : ∀ c ∈ report.categories, c.total
    = db.spent (db.scopedReceipts report.dateFrom today caller collectionId)
        fun r i => i.spendingCategory.code = c.category ∧ r.currency = c.currency
  /-- The months of a category make up its total. -/
  months_add : ∀ c ∈ report.categories,
    sumOver (fun m => m.total) (fun m => m.category = c.category ∧ m.currency = c.currency)
      report.monthly = c.total
  /-- The months of a category are those of the window, in increasing
  order. -/
  months_window : ∀ c ∈ report.categories, IsWindow report.dateFrom today
    ((report.monthly.filter fun m => m.category = c.category ∧ m.currency = c.currency).map
      fun m => m.month)
  monthTotal : ∀ m ∈ report.monthly, m.total
    = db.spent (db.scopedReceipts report.dateFrom today caller collectionId)
        fun r i => r.date.firstOfMonth = m.month ∧ i.spendingCategory.code = m.category
          ∧ r.currency = m.currency
  /-- There are no months of other categories. -/
  monthly_listed : ∀ m ∈ report.monthly,
    ∃ c ∈ report.categories, c.category = m.category ∧ c.currency = m.currency

section Report

variable {db : Db} {dateFrom : Date} {today : Date} {caller : Caller}
  {collectionId : Option UUID} {acc : Accumulators}

theorem categoryName_itemRow (group : (Date × SpendingCategory × String) × ℚ) :
    (itemRow group).categoryName = group.1.2.1.code := by
  unfold categoryName itemRow
  cases group.1.2.1 <;> rfl

theorem isSpending_itemRow (group : (Date × SpendingCategory × String) × ℚ) :
    (itemRow group).IsSpending ↔ group.1.2.1 ≠ .deposit := by
  unfold IsSpending
  rw [categoryName_itemRow, and_iff_right (show (itemRow group).kind = .item from rfl),
    show "deposit" = SpendingCategory.deposit.code from rfl, Ne,
    SpendingCategory.code_injective.eq_iff]

theorem isDeposit_itemRow (group : (Date × SpendingCategory × String) × ℚ) :
    (itemRow group).IsDeposit ↔ group.1.2.1 = .deposit := by
  unfold IsDeposit
  rw [categoryName_itemRow, and_iff_right (show (itemRow group).kind = .item from rfl),
    show "deposit" = SpendingCategory.deposit.code from rfl,
    SpendingCategory.code_injective.eq_iff]

section Sums

variable (h : acc.Sums (db.getTotals dateFrom today caller collectionId))

include h

theorem itemTotals_get (c : String) : acc.itemTotals.get c
    = db.spent (db.scopedReceipts dateFrom today caller collectionId)
        fun r _ => r.currency = c := by
  rw [h.itemTotals.get]
  refine sumOver_itemRows db dateFrom today caller collectionId _ (fun k => k.2.2 = c) ?_ ?_
  · intro group
    rw [keyIf_eq_some]
    exact and_iff_right rfl
  · intro group hsome
    exact absurd (keyIf_eq_some.mp hsome).1 (by simp [IsItem, receiptRow])

theorem deposits_get (c : String) : acc.deposits.get c
    = db.spent (db.scopedReceipts dateFrom today caller collectionId)
        fun r i => i.spendingCategory = .deposit ∧ r.currency = c := by
  rw [h.deposits.get]
  refine sumOver_itemRows db dateFrom today caller collectionId _
    (fun k => k.2.1 = .deposit ∧ k.2.2 = c) ?_ ?_
  · intro group
    rw [keyIf_eq_some, isDeposit_itemRow]
    rfl
  · intro group hsome
    exact absurd (keyIf_eq_some.mp hsome).1.1 (by simp [receiptRow])

theorem receiptTotals_get (c : String) : acc.receiptTotals.get c
    = sumOver (fun r => r.total)
        (fun r => db.InScope dateFrom today caller collectionId r ∧ r.currency = c)
        db.receipts.rows := by
  rw [h.receiptTotals.get]
  refine sumOver_receiptRows db dateFrom today caller collectionId _ (fun k => k = c) ?_ ?_
  · intro group hsome
    exact absurd (keyIf_eq_some.mp hsome).1 (by simp [IsReceipt, itemRow])
  · intro group
    rw [keyIf_eq_some]
    exact and_iff_right rfl

/-- A category other than deposits. The dictionary has what the rows of
the category add up to, and these rows have what its line items do. -/
theorem totals_get {category currency : String} (hcategory : category ≠ "deposit") :
    acc.totals.get (category, currency)
      = db.spent (db.scopedReceipts dateFrom today caller collectionId)
          fun r i => i.spendingCategory.code = category ∧ r.currency = currency := by
  rw [h.totals.get]
  refine sumOver_itemRows db dateFrom today caller collectionId _
    (fun k => k.2.1.code = category ∧ k.2.2 = currency) ?_ ?_
  · intro group
    rw [keyIf_eq_some, isSpending_itemRow, categoryName_itemRow, Prod.mk.injEq]
    refine and_iff_right_of_imp ?_
    rintro ⟨hcode, -⟩ heq
    rw [heq] at hcode
    exact hcategory hcode.symm
  · intro group hsome
    exact absurd (keyIf_eq_some.mp hsome).1.1 (by simp [receiptRow])

theorem monthly_get {month : Date} {category currency : String} (hcategory : category ≠ "deposit") :
    acc.monthly.get (some month, category, currency)
      = db.spent (db.scopedReceipts dateFrom today caller collectionId)
          fun r i => r.date.firstOfMonth = month ∧ i.spendingCategory.code = category
            ∧ r.currency = currency := by
  rw [h.monthly.get]
  refine sumOver_itemRows db dateFrom today caller collectionId _
    (fun k => k.1 = month ∧ k.2.1.code = category ∧ k.2.2 = currency) ?_ ?_
  · intro group
    rw [keyIf_eq_some, isSpending_itemRow, categoryName_itemRow, Prod.mk.injEq, Prod.mk.injEq]
    show _ ∧ some group.1.1 = some month ∧ _ ↔ _
    rw [Option.some.injEq]
    refine and_iff_right_of_imp ?_
    rintro ⟨-, hcode, -⟩ heq
    rw [heq] at hcode
    exact hcategory hcode.symm
  · intro group hsome
    exact absurd (keyIf_eq_some.mp hsome).1.1 (by simp [receiptRow])

theorem ne_deposit_of_mem_keys {k : String × String} (hk : k ∈ acc.totals.keys) :
    k.1 ≠ "deposit" := by
  obtain ⟨row, -, hrow⟩ := (h.totals.mem_keys k).mp hk
  obtain ⟨hspending, rfl⟩ := keyIf_eq_some.mp hrow
  exact hspending.2

/-- The categories of a currency and its deposits are its line items. A
row is counted for a category or for the deposits, and for one of them
only. -/
theorem sumOver_totals_add (c : String) :
    sumOver Prod.snd (fun e => e.1.2 = c) acc.totals.entries + acc.deposits.get c
      = acc.itemTotals.get c := by
  have hexcl : ∀ row ∈ db.getTotals dateFrom today caller collectionId,
      ¬ ((keyIf IsSpending (fun row => (row.categoryName, row.currency)) row).any
          (fun k => k.2 = c) = true ∧ keyIf IsDeposit StatisticsRow.currency row = some c) := by
    rintro row - ⟨h₁, h₂⟩
    have hdeposit := (keyIf_eq_some.mp h₂).1
    rw [keyIf_of_neg fun hspending => hspending.2 hdeposit.2] at h₁
    exact absurd h₁ (by simp)
  rw [h.totals.sumOver_entries (fun k => k.2 = c), h.deposits.get, h.itemTotals.get,
    ← Tally.sumOver_or _ hexcl]
  refine sumOver_congr _ fun row _ => ?_
  by_cases hitem : row.kind = .item
  · by_cases hdeposit : row.categoryName = "deposit"
    · simp [keyIf, IsSpending, IsDeposit, IsItem, hitem, hdeposit]
    · simp [keyIf, IsSpending, IsDeposit, IsItem, hitem, hdeposit]
  · simp [keyIf, IsSpending, IsDeposit, IsItem, hitem]

/-- **No month is missing**: the months of the window make up a category.
An item in scope was bought on a day of the window, and its month is
listed. The loop has put each row into its month; here the months are put
together again. -/
theorem sum_monthly {k : String × String} {months : List Date}
    (hmonths : IsWindow dateFrom today months) :
    (months.map fun m => acc.monthly.get (some m, k.1, k.2)).sum = acc.totals.get k := by
  have hnodup : (months.map fun m => (some m, k.1, k.2)).Nodup := by
    refine List.Nodup.map (fun m m' heq => Option.some.inj (Prod.mk.inj heq).1) ?_
    refine hmonths.increasing.imp fun hlt heq => ?_
    rw [heq, Date.lt_iff] at hlt
    omega
  have hkeys : ∀ row ∈ db.getTotals dateFrom today caller collectionId,
      keyIf IsSpending (fun row => (row.categoryName, row.currency)) row = some k
        ↔ ∃ key ∈ months.map fun m => (some m, k.1, k.2),
            keyIf IsSpending (fun row => (row.month, row.categoryName, row.currency)) row
              = some key := by
    intro row hrow
    simp only [keyIf_eq_some]
    constructor
    · rintro ⟨hspending, rfl⟩
      -- the receipt of such a row has a date in the window
      obtain ⟨r, hr, i, -, -, hmonth, -⟩ :=
        mem_itemRows db dateFrom today caller collectionId hrow hspending.1
      have hscope := of_decide_eq_true (List.mem_filter.mp hr).2
      have hmem : r.date.firstOfMonth ∈ months :=
        (hmonths.mem _).mpr ⟨r.date, ⟨hscope.2.2.1, hscope.2.2.2.1⟩, rfl⟩
      exact ⟨_, List.mem_map_of_mem hmem, hspending, by rw [hmonth]⟩
    · rintro ⟨key, hkey, hspending, rfl⟩
      obtain ⟨m, -, heq⟩ := List.mem_map.mp hkey
      exact ⟨hspending, (Prod.mk.inj heq).2.symm⟩
  have hfibers := Tally.sum_fibers hnodup
    (keyIf IsSpending fun row => (row.month, row.categoryName, row.currency))
    StatisticsRow.total hkeys
  rw [List.map_map] at hfibers
  rw [List.map_congr_left fun m _ => h.monthly.get (some m, k.1, k.2), h.totals.get]
  exact hfibers

end Sums

/-- The report lists what the dictionaries hold. Months and keys are
listed in full, so that a cell without purchases is there with a zero. -/
structure Accumulators.Lists (acc : Accumulators) (months : ℕ) (today : Date)
    (report : ItemStatistics) : Prop where
  dateFrom : monthStart today (1 - months) = .ok report.dateFrom
  dateTo : report.dateTo = today
  categories : (report.categories.map fun c => ((c.category, c.currency), c.total)).Perm
    acc.totals.entries
  monthly : report.monthly.map MonthlyItemStatistics.cell
    = ((List.range months).map (monthAt report.dateFrom)).flatMap fun month =>
        acc.sortedKeys.map fun k => (month, k, acc.monthly.get (some month, k.1, k.2))
  reconciliation : acc.currencies.mapM acc.reconcile = .ok report.reconciliation

/-- What `build_item_statistics` has done, where it returns. Only the
arithmetic of months can make it raise; the sums are exact. -/
theorem buildItemStatistics_spec {rows : List StatisticsRow} {months : ℕ}
    (hexact : ExactRows rows) {report : ItemStatistics}
    (h : buildItemStatistics rows months today = .ok report) :
    ∃ acc : Accumulators, acc.Sums rows ∧ acc.Lists months today report := by
  obtain ⟨start, hstart, h⟩ := bind_eq_ok.mp h
  obtain ⟨acc, hacc, h⟩ := bind_eq_ok.mp h
  obtain ⟨categories, hcategories, h⟩ := bind_eq_ok.mp h
  obtain ⟨history, hhistory, h⟩ := bind_eq_ok.mp h
  obtain ⟨reconciliation, hreconciliation, h⟩ := bind_eq_ok.mp h
  obtain rfl := Except.ok.inj h
  obtain ⟨acc', hacc', hsums⟩ := Accumulators.exists_sums hexact
  obtain rfl := Except.ok.inj (hacc.symm.trans hacc')
  exact ⟨acc, hsums, hstart, rfl, acc.categories_eq hcategories, acc.history_eq hstart hhistory,
    hreconciliation⟩

/-- **Where the report is built, it balances.** -/
theorem balances_of_eq_ok (hdb : db.Storable) {months : ℕ} {report : ItemStatistics}
    (h : db.itemStatistics caller collectionId today months = .ok report) :
    Balances db caller collectionId today months report := by
  obtain ⟨start, hstart, h⟩ := bind_eq_ok.mp h
  have hexact := exactRows_getTotals hdb start today caller collectionId
  obtain ⟨acc, hsums, hstart', hto, hcategories, hmonthly, hreconcile⟩ :=
    buildItemStatistics_spec hexact h
  obtain rfl := Except.ok.inj (hstart.symm.trans hstart')
  have hwindow := isWindow_monthAt hstart
  -- the entries of the currencies
  rw [mapM_of_eq fun c _ => acc.reconcile_eq hsums hexact c] at hreconcile
  have hentries := Except.ok.inj hreconcile
  have hcurrencies : report.reconciliation.map ItemReconciliation.currency = acc.currencies := by
    rw [← hentries, List.map_map]
    exact List.map_id _
  have hentry : ∀ e ∈ report.reconciliation, e.receiptTotal = acc.receiptTotals.get e.currency
      ∧ e.itemTotal = acc.itemTotals.get e.currency
      ∧ e.depositTotal = acc.deposits.get e.currency
      ∧ e.unallocatedTotal
          = acc.receiptTotals.get e.currency - acc.itemTotals.get e.currency := by
    intro e he
    rw [← hentries] at he
    obtain ⟨c, -, rfl⟩ := List.mem_map.mp he
    exact ⟨rfl, rfl, rfl, rfl⟩
  -- the entries of the categories
  have hcategory : ∀ c ∈ report.categories, (c.category, c.currency) ∈ acc.totals.keys
      ∧ c.total = acc.totals.get (c.category, c.currency) := by
    intro c hc
    have hmem := hcategories.mem_iff.mp (List.mem_map_of_mem hc)
    exact ⟨List.mem_map_of_mem hmem, (Tally.get_of_mem hmem).symm⟩
  have hkey : ∀ k, k ∈ acc.totals.keys
      ↔ ∃ c ∈ report.categories, (c.category, c.currency) = k := by
    intro k
    rw [Tally.keys, ← (hcategories.map Prod.fst).mem_iff, List.map_map, List.mem_map]
    rfl
  -- the part of a category in the history
  have hpart : ∀ c ∈ report.categories,
      (report.monthly.filter fun m => m.category = c.category ∧ m.currency = c.currency).map
          MonthlyItemStatistics.cell
        = ((List.range months).map (monthAt report.dateFrom)).map fun month =>
            (month, (c.category, c.currency),
              acc.monthly.get (some month, c.category, c.currency)) := by
    intro c hc
    have hfilter := filter_table acc.nodup_sortedKeys
      (acc.mem_sortedKeys.mpr (hcategory c hc).1)
      (fun month k => acc.monthly.get (some month, k.1, k.2))
      ((List.range months).map (monthAt report.dateFrom))
    rw [← hfilter, ← hmonthly, List.filter_map]
    refine congrArg _ (List.filter_congr fun m _ => ?_)
    exact decide_eq_decide.mpr (Prod.mk.injEq ..).symm.to_iff
  have hcell : ∀ m ∈ report.monthly, (m.category, m.currency) ∈ acc.totals.keys
      ∧ m.total = acc.monthly.get (some m.month, m.category, m.currency) := by
    intro m hm
    have hmem : m.cell ∈ report.monthly.map MonthlyItemStatistics.cell := List.mem_map_of_mem hm
    rw [hmonthly] at hmem
    obtain ⟨month, -, hmem⟩ := List.mem_flatMap.mp hmem
    obtain ⟨k, hk, heq⟩ := List.mem_map.mp hmem
    obtain ⟨rfl, heq⟩ := Prod.mk.inj heq
    obtain ⟨rfl, heq⟩ := Prod.mk.inj heq
    exact ⟨acc.mem_sortedKeys.mp hk, heq.symm⟩
  exact {
    dateFrom := hstart
    dateTo := hto
    currencies_nodup := hcurrencies ▸ acc.nodup_currencies
    currencies := fun c => by
      rw [hcurrencies, acc.mem_currencies, hsums.receiptTotals.mem_keys,
        hsums.itemTotals.mem_keys]
      simp only [keyIf_eq_some]
      rw [exists_receiptRow]
      refine or_iff_left_of_imp ?_
      -- line items have the currency of their receipt
      rintro ⟨row, hrow, hitem, rfl⟩
      obtain ⟨r, hr, i, -, -, -, -, hcurrency⟩ := mem_itemRows db _ _ _ _ hrow hitem
      exact ⟨r, hr, hcurrency.symm⟩
    receiptTotal := fun e he => (hentry e he).1.trans (receiptTotals_get hsums _)
    itemTotal := fun e he => (hentry e he).2.1.trans (itemTotals_get hsums _)
    depositTotal := fun e he => (hentry e he).2.2.1.trans (deposits_get hsums _)
    categories_add := fun e he => by
      rw [(hentry e he).2.1, (hentry e he).2.2.1, ← sumOver_totals_add hsums]
      have hsum := sumOver_perm Prod.snd (fun k => k.1.2 = e.currency) hcategories
      rw [sumOver_map] at hsum
      exact congrArg (· + _) hsum
    unallocated_add := fun e he => by
      rw [(hentry e he).1, (hentry e he).2.1, (hentry e he).2.2.2]
      ring
    categories_nodup := by
      have hnodup := (hcategories.map Prod.fst).nodup_iff.mpr acc.totals.nodup
      rwa [List.map_map] at hnodup
    not_deposit := fun c hc => ne_deposit_of_mem_keys hsums (hcategory c hc).1
    categoryTotal := fun c hc => (hcategory c hc).2.trans
      (totals_get hsums (ne_deposit_of_mem_keys hsums (hcategory c hc).1))
    months_add := fun c hc => by
      have hsum := congrArg (fun l => (l.map fun e => e.2.2).sum) (hpart c hc)
      simp only [List.map_map] at hsum
      rw [(hcategory c hc).2, ← sum_monthly hsums hwindow, List.map_map]
      exact hsum
    months_window := fun c hc => by
      have hmonths := congrArg (List.map Prod.fst) (hpart c hc)
      rw [List.map_map, List.map_map] at hmonths
      have hid : Prod.fst ∘ (fun month => (month, (c.category, c.currency),
          acc.monthly.get (some month, c.category, c.currency))) = id := rfl
      rw [hid, List.map_id] at hmonths
      rw [show (fun m => m.month) = Prod.fst ∘ MonthlyItemStatistics.cell from rfl, hmonths]
      exact hwindow
    monthTotal := fun m hm => (hcell m hm).2.trans
      (monthly_get hsums (ne_deposit_of_mem_keys hsums (hcell m hm).1))
    monthly_listed := fun m hm => by
      obtain ⟨c, hc, heq⟩ := (hkey _).mp (hcell m hm).1
      exact ⟨c, hc, (Prod.mk.inj heq).1, (Prod.mk.inj heq).2⟩ }

/-! ## That the report is built

No arithmetic exception is raised: all sums are within the range of the
context, and shares are quotients of numbers that are not too far
apart. -/

/-- A share is computed as long as its amount has at most 21 digits. The
total is at least a cent, so the quotient has few digits more. -/
theorem percentage_isOk {amount total : ℚ} (hamount : |amount| ≤ 10 ^ 21) (htotal : IsCents total) :
    ∃ share, percentage amount total = .ok share := by
  unfold percentage
  split
  · next hpos =>
    -- a total that is positive is a cent at least
    have hcent := htotal.le_of_pos hpos
    have hratio : |amount / total| ≤ 10 ^ 23 := by
      rw [abs_div, abs_of_pos hpos, div_le_iff₀ hpos]
      linarith
    obtain ⟨ratio, hr, hrle⟩ := Decimal.fixFinite_of_le (e := 23) (by decide) hratio
    have hpercent : |ratio * 100| ≤ 10 ^ 25 := by
      rw [abs_mul]
      norm_num
      linarith
    obtain ⟨percent, hp, hple⟩ := Decimal.fixFinite_of_le (e := 25) (by decide) hpercent
    have hdigits : |percent * 10 ^ 2| ≤ ((10 ^ 27 : ℤ) : ℚ) := by
      rw [abs_mul]
      norm_num
      linarith
    have hround := Rounding.abs_halfEven_le hdigits
    have hbig : ¬ (10 : ℤ) ^ Decimal.prec ≤ |Rounding.halfEven (percent * 10 ^ 2)| := by
      rw [not_le]
      exact hround.trans_lt (by decide)
    refine ⟨some (Rounding.halfEven (percent * 10 ^ 2) / 10 ^ 2), ?_⟩
    rw [hr]
    show (do
      let percent ← Decimal.fixFinite (ratio * 100)
      return some (← Decimal.quantize 2 percent)) = _
    rw [hp]
    show (Decimal.quantize 2 percent >>= fun q => pure (some q)) = _
    unfold Decimal.quantize
    rw [if_neg hbig]
    rfl
  · exact ⟨none, rfl⟩

/-- **The report of a window in the calendar is built** as long as its
shares have no more digits than the context, which is so for up to 10 ^ 9
rows. Nothing else in it can raise. -/
theorem itemStatistics_isOk (hdb : db.Storable) {months : ℕ}
    (hstart : ∃ start, monthStart today (1 - months) = .ok start)
    (hrows : db.receipts.rows.length + db.lineItems.rows.length ≤ 10 ^ 9) :
    ∃ report, db.itemStatistics caller collectionId today months = .ok report := by
  obtain ⟨start, hstart⟩ := hstart
  have hexact := exactRows_getTotals hdb start today caller collectionId
  have hbound : ((db.getTotals start today caller collectionId).map fun row => |row.total|).sum
      ≤ 10 ^ 21 := by
    have hrows' : ((db.receipts.rows.length + db.lineItems.rows.length : ℕ) : ℚ) ≤ 10 ^ 9 := by
      exact_mod_cast hrows
    refine (sum_abs_getTotals_le hdb start today caller collectionId).trans ?_
    linarith
  -- the sums are exact, so only a share could have too many digits
  obtain ⟨acc, hacc, hsums⟩ := Accumulators.exists_sums hexact
  have hamount : ∀ p : StatisticsRow → Prop, ∀ _ : DecidablePred p,
      |sumOver StatisticsRow.total p (db.getTotals start today caller collectionId)| ≤ 10 ^ 21 :=
    fun p _ => (Tally.abs_sumOver_le _ p _).trans hbound
  have hcents : ∀ p : StatisticsRow → Prop, ∀ _ : DecidablePred p,
      IsCents (sumOver StatisticsRow.total p (db.getTotals start today caller collectionId)) :=
    fun p _ => IsCents.sumOver hexact.cents p
  have hcategories : ∃ categories,
      (orderBy CategoryLe acc.totals.entries).mapM acc.categoryStatistics = .ok categories := by
    refine mapM_isOk fun e he => ?_
    have hmem := mem_orderBy.mp he
    obtain ⟨share, hshare⟩ : ∃ share, percentage e.2 (acc.currencyTotals.get e.1.2) = .ok share := by
      rw [← Tally.get_of_mem hmem, hsums.totals.get, hsums.currencyTotals.get]
      exact percentage_isOk (hamount _ _) (hcents _ _)
    exact ⟨_, bind_of_ok hshare⟩
  have hhistory : ∃ history, (List.range months).mapM (acc.monthEntries start) = .ok history := by
    refine mapM_isOk fun offset hoffset => ?_
    have hkeys : ∃ entries,
        acc.sortedKeys.mapM (acc.monthlyStatistics (monthAt start offset)) = .ok entries := by
      refine mapM_isOk fun k _ => ?_
      obtain ⟨share, hshare⟩ : ∃ share, percentage
          (acc.monthly.get (some (monthAt start offset), k.1, k.2))
          (acc.monthTotals.get (some (monthAt start offset), k.2)) = .ok share := by
        rw [hsums.monthly.get, hsums.monthTotals.get]
        exact percentage_isOk (hamount _ _) (hcents _ _)
      exact ⟨_, bind_of_ok hshare⟩
    obtain ⟨entries, hentries⟩ := hkeys
    have hmonth := monthStart_monthAt hstart (List.mem_range.mp hoffset)
    exact ⟨entries, (bind_of_ok hmonth).trans hentries⟩
  obtain ⟨categories, hcategories⟩ := hcategories
  obtain ⟨history, hhistory⟩ := hhistory
  have hreconcile := mapM_of_eq (l := acc.currencies) fun c _ => acc.reconcile_eq hsums hexact c
  exact ⟨_, (bind_of_ok hstart).trans <| (bind_of_ok hstart).trans <| (bind_of_ok hacc).trans <|
    (bind_of_ok hcategories).trans <| (bind_of_ok hhistory).trans (bind_of_ok hreconcile)⟩

end Report

/-- **The item-spending report balances to the cent**, and lists for each
category the months of the window; it is built for every window that does
not begin before the calendar, as long as its shares have no more digits
than the decimal context. -/
theorem itemStatistics_balances {db : Db} (hdb : db.Storable) (caller : Caller)
    (collectionId : Option UUID) (today : Date) (months : ℕ) :
    (∀ report, db.itemStatistics caller collectionId today months = .ok report →
        Balances db caller collectionId today months report)
      ∧ ((∃ start, monthStart today (1 - months) = .ok start) →
        db.receipts.rows.length + db.lineItems.rows.length ≤ 10 ^ 9 →
        ∃ report, db.itemStatistics caller collectionId today months = .ok report) :=
  ⟨fun _ => balances_of_eq_ok hdb, itemStatistics_isOk hdb⟩

/-! ## A receipt with a deposit -/

/-- A line item of the receipt `1`. -/
def purchase (id : UUID) (category : SpendingCategory) (price : ℚ) : LineItemRecord where
  id := id
  receiptId := 1
  description := "Item"
  originalDescription := "Item"
  spendingCategory := category
  categorySource := .llm
  quantity := 1
  unitPrice := price
  totalPrice := price
  tags := []
  position := id

theorem nodup_purchases : ([purchase 1 .milk 6, purchase 2 .deposit (1 / 4), purchase 3 .unknown 3].map
    LineItemRecord.id).Nodup := by decide

/-- A verified receipt with milk, a deposit and something unknown. -/
def groceries : Db where
  receipts := ⟨[{ emptyRow 1 1 with total := 10, status := .verified, verified := true }],
    List.nodup_singleton _⟩
  lineItems := ⟨_, nodup_purchases⟩
  taxes := .empty
  images := .empty
  collections := .empty
  links := .empty
  aliases := .empty
  tags := []

theorem groceries_storable : groceries.Storable where
  receipts := fun r hr => by
    obtain rfl := List.mem_singleton.mp hr
    exact ⟨1000, by norm_num, by decide⟩
  lineItems := fun i hi => by
    have hprice : i.totalPrice = 6 ∨ i.totalPrice = 1 / 4 ∨ i.totalPrice = 3 := by
      simp only [groceries, List.mem_cons, List.not_mem_nil, or_false] at hi
      rcases hi with rfl | rfl | rfl
      · exact Or.inl rfl
      · exact Or.inr (Or.inl rfl)
      · exact Or.inr (Or.inr rfl)
    rcases hprice with h | h | h
    · exact ⟨600, by rw [h]; norm_num, by decide⟩
    · exact ⟨25, by rw [h]; norm_num, by decide⟩
    · exact ⟨300, by rw [h]; norm_num, by decide⟩
  receipts_length := by decide
  lineItems_length := by decide

/-- The report of two months balances. -/
theorem groceries_balances :
    ∃ report, groceries.itemStatistics ⟨1, false⟩ none emptyFields.date 2 = .ok report
      ∧ Balances groceries ⟨1, false⟩ none emptyFields.date 2 report := by
  have h := itemStatistics_balances groceries_storable ⟨1, false⟩ none emptyFields.date 2
  obtain ⟨report, hreport⟩ := h.2 ⟨_, rfl⟩ (by decide)
  exact ⟨report, hreport, h.1 report hreport⟩

/-- **Without a receipt the report lists no month**, not even the current
one. It has an entry for each month of each category that money was spent
on, and there is no such category. -/
theorem emptyReport_noMonth :
    ∃ report, Db.empty.itemStatistics ⟨1, false⟩ none emptyFields.date 1 = .ok report
      ∧ ¬ ∀ d, d ∈ report.monthly.map (fun m => m.month)
          ↔ ∃ x : Date, (report.dateFrom ≤ x ∧ x ≤ emptyFields.date) ∧ x.firstOfMonth = d := by
  refine ⟨_, rfl, fun h => ?_⟩
  have hmem := (h emptyFields.date.firstOfMonth).mpr ⟨emptyFields.date, by decide, rfl⟩
  exact List.not_mem_nil hmem

end VisionBill
