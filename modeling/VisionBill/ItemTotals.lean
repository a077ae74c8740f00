import VisionBill.ItemStatistics
import Mathlib.Tactic.Positivity

/-!
# What the item-spending report adds up

The dictionaries of `build_item_statistics` hold the sums of the rows that
they are about (`Accumulators.Sums`), and these rows are sums of receipts
and line items, each counted once (`sumOver_itemRows`,
`sumOver_receiptRows`).

Additions are exact because amounts are whole cents and a table does not
hold enough rows for their sum to need more than 28 digits (`ExactRows`).

## Exactness

The program adds decimals in a context of 28 digits, and each addition may
be rounded. It is not, if all partial sums are whole cents below ten to
the twenty-sixth. So it is enough to bound the sum of all absolute values
once, and every sum that the loop ever forms is below the bound. The bound
on the rows of the tables is that of the database, and follows from the
size of its pages.

## Counting once

A join with the line items has a row for each line item of a receipt in
scope, and a receipt is in scope once, whatever collections it is in: the
condition on the collection is an `EXISTS`. Grouping then loses nothing
and counts nothing twice. These two facts carry all sums of the report
back to the tables.
-/

namespace VisionBill

open Tally (sumOver sumOver_map sumOver_perm sumOver_congr sumOver_append)

/-! ## Whole cents -/

/-- A number of whole cents. -/
def IsCents (x : ℚ) : Prop := ∃ n : ℤ, x = n / 100

theorem IsCents.zero : IsCents 0 := ⟨0, by norm_num⟩

theorem IsCents.add {x y : ℚ} (hx : IsCents x) (hy : IsCents y) : IsCents (x + y) := by
  obtain ⟨m, rfl⟩ := hx
  obtain ⟨n, rfl⟩ := hy
  exact ⟨m + n, by push_cast; ring⟩

theorem IsCents.sub {x y : ℚ} (hx : IsCents x) (hy : IsCents y) : IsCents (x - y) := by
  obtain ⟨m, rfl⟩ := hx
  obtain ⟨n, rfl⟩ := hy
  exact ⟨m - n, by push_cast; ring⟩

theorem IsCents.sumOver {α : Type} {value : α → ℚ} {l : List α} (h : ∀ a ∈ l, IsCents (value a))
    (p : α → Prop) [DecidablePred p] : IsCents (sumOver value p l) := by
  induction l with
  | nil => exact IsCents.zero
  | cons a l ih =>
    rw [Tally.sumOver_cons]
    refine IsCents.add ?_ (ih fun b hb => h b (List.mem_cons_of_mem a hb))
    split
    · exact h a List.mem_cons_self
    · exact IsCents.zero

/-- The smallest positive amount is a cent. -/
theorem IsCents.le_of_pos {x : ℚ} (h : IsCents x) (hpos : 0 < x) : 1 / 100 ≤ x := by
  obtain ⟨n, rfl⟩ := h
  have hn : (0 : ℚ) < n := by linarith
  have hone : (1 : ℚ) ≤ n := by exact_mod_cast (by exact_mod_cast hn : (0 : ℤ) < n)
  linarith

/-- Rows whose sums need no rounding: whole cents, whose absolute values
add up to less than the bound. -/
structure ExactRows (rows : List StatisticsRow) : Prop where
  cents : ∀ row ∈ rows, IsCents row.total
  bounded : (rows.map fun row => |row.total|).sum < 10 ^ 26

/-- A sum over such rows is whole cents, below the bound. -/
theorem ExactRows.fixFinite {rows : List StatisticsRow} (h : ExactRows rows)
    (p : StatisticsRow → Prop) [DecidablePred p] :
    Decimal.fixFinite (sumOver StatisticsRow.total p rows)
      = .ok (sumOver StatisticsRow.total p rows) := by
  obtain ⟨n, hn⟩ := IsCents.sumOver h.cents p
  exact Decimal.fixFinite_of_cents hn ((Tally.abs_sumOver_le _ p rows).trans_lt h.bounded)

theorem ExactRows.left {rows rows' : List StatisticsRow} (h : ExactRows (rows ++ rows')) :
    ExactRows rows := by
  refine ⟨fun row hrow => h.cents row (List.mem_append_left _ hrow), lt_of_le_of_lt ?_ h.bounded⟩
  rw [List.map_append, List.sum_append]
  refine le_add_of_nonneg_right (List.sum_nonneg fun x hx => ?_)
  obtain ⟨row, -, rfl⟩ := List.mem_map.mp hx
  exact abs_nonneg _

/-! ## The loop over the rows

Each dictionary holds, for each key, the sum of the rows of one kind with
this key. That is one lemma with a parameter for the kind and one for the
key, and the invariant of the loop is made of its instances. -/

namespace StatisticsRow

/-- The rows of receipts. -/
def IsReceipt (row : StatisticsRow) : Prop := row.kind = .receipt

/-- The rows of line items. -/
def IsItem (row : StatisticsRow) : Prop := row.kind = .item

/-- The rows of deposits. -/
def IsDeposit (row : StatisticsRow) : Prop := row.kind = .item ∧ row.categoryName = "deposit"

/-- The rows of all other line items. -/
def IsSpending (row : StatisticsRow) : Prop := row.kind = .item ∧ row.categoryName ≠ "deposit"

instance : DecidablePred IsReceipt := fun _ => inferInstanceAs (Decidable (_ = _))

instance : DecidablePred IsItem := fun _ => inferInstanceAs (Decidable (_ = _))

instance : DecidablePred IsDeposit := fun _ => inferInstanceAs (Decidable (_ ∧ _))

instance : DecidablePred IsSpending := fun _ => inferInstanceAs (Decidable (_ ∧ _))

/-- The key of a row that takes part in a dictionary. -/
def keyIf {κ : Type} (p : StatisticsRow → Prop) [DecidablePred p] (key : StatisticsRow → κ)
    (row : StatisticsRow) : Option κ := if p row then some (key row) else none

variable {κ : Type} {p : StatisticsRow → Prop} [DecidablePred p] {key : StatisticsRow → κ}
  {row : StatisticsRow}

theorem keyIf_of_pos (h : p row) : keyIf p key row = some (key row) := if_pos h

theorem keyIf_of_neg (h : ¬ p row) : keyIf p key row = none := if_neg h

theorem keyIf_eq_some {k : κ} : keyIf p key row = some k ↔ p row ∧ key row = k := by
  unfold keyIf
  split
  · next h => rw [Option.some.injEq, and_iff_right h]
  · next h => exact ⟨fun h' => absurd h' (by simp), fun h' => absurd h'.1 h⟩

end StatisticsRow

open StatisticsRow

/-- The rows are summed up in a dictionary by a key, as far as they take
part. -/
abbrev SumsIf {κ : Type} [DecidableEq κ] (p : StatisticsRow → Prop) [DecidablePred p]
    (key : StatisticsRow → κ) (rows : List StatisticsRow) (d : Tally κ ℚ) : Prop :=
  Tally.Sums (keyIf p key) StatisticsRow.total rows d

/-- **What the loop has done**: each dictionary holds the sums of its
rows. The rows that a dictionary is about are given by a property, and its
keys by a function. -/
structure Accumulators.Sums (rows : List StatisticsRow) (acc : Accumulators) : Prop where
  totals : SumsIf IsSpending (fun row => (row.categoryName, row.currency)) rows acc.totals
  monthly : SumsIf IsSpending (fun row => (row.month, row.categoryName, row.currency)) rows
    acc.monthly
  currencyTotals : SumsIf IsSpending StatisticsRow.currency rows acc.currencyTotals
  monthTotals : SumsIf IsSpending (fun row => (row.month, row.currency)) rows acc.monthTotals
  receiptTotals : SumsIf IsReceipt StatisticsRow.currency rows acc.receiptTotals
  deposits : SumsIf IsDeposit StatisticsRow.currency rows acc.deposits
  itemTotals : SumsIf IsItem StatisticsRow.currency rows acc.itemTotals

/-- `d[k] += x` keeps a dictionary the sums of its rows. That the addition
is exact is a property of all rows together, since it is about the sums on
the way. -/
theorem plus_spec {κ : Type} [DecidableEq κ] {p : StatisticsRow → Prop} [DecidablePred p]
    {key : StatisticsRow → κ} {rows : List StatisticsRow} {d : Tally κ ℚ} {row : StatisticsRow}
    (h : SumsIf p key rows d) (hexact : ExactRows (rows ++ [row])) (hp : p row) :
    ∃ d', plus d (key row) row.total = .ok d' ∧ SumsIf p key (rows ++ [row]) d' := by
  have hadd := h.add (keyIf_of_pos hp)
  have hsum : d.get (key row) + row.total
      = sumOver StatisticsRow.total (fun a => keyIf p key a = some (key row)) (rows ++ [row]) := by
    rw [← hadd.get, Tally.get_set, if_pos rfl]
  refine ⟨_, ?_, hadd⟩
  unfold plus
  rw [hsum, hexact.fixFinite, ← hsum]
  rfl

/-- One row. It takes part in some of the dictionaries, and the additions
there are exact. -/
theorem Accumulators.addRow_spec {rows : List StatisticsRow} {acc : Accumulators}
    {row : StatisticsRow} (h : acc.Sums rows) (hexact : ExactRows (rows ++ [row])) :
    ∃ acc', acc.addRow row = .ok acc' ∧ acc'.Sums (rows ++ [row]) := by
  unfold addRow
  cases hkind : row.kind with
  | receipt =>
    have hitem : ¬ row.IsItem := fun h' => by simp [IsItem, hkind] at h'
    have hdeposit : ¬ row.IsDeposit := fun h' => hitem h'.1
    have hspending : ¬ row.IsSpending := fun h' => hitem h'.1
    obtain ⟨receipts, hreceipts, hreceipts'⟩ := plus_spec h.receiptTotals hexact hkind
    refine ⟨{ acc with receiptTotals := receipts }, ?_, ?_⟩
    · dsimp only
      rw [hreceipts]
      rfl
    · exact {
        totals := h.totals.skip (keyIf_of_neg hspending)
        monthly := h.monthly.skip (keyIf_of_neg hspending)
        currencyTotals := h.currencyTotals.skip (keyIf_of_neg hspending)
        monthTotals := h.monthTotals.skip (keyIf_of_neg hspending)
        receiptTotals := hreceipts'
        deposits := h.deposits.skip (keyIf_of_neg hdeposit)
        itemTotals := h.itemTotals.skip (keyIf_of_neg hitem) }
  | item =>
    have hreceipt : ¬ row.IsReceipt := fun h' => by simp [IsReceipt, hkind] at h'
    obtain ⟨items, hitems, hitems'⟩ := plus_spec h.itemTotals hexact hkind
    -- an item is added to its sum in any case, and either to the deposits or to
    -- what was spent
    by_cases hname : row.categoryName = "deposit"
    · have hspending : ¬ row.IsSpending := fun h' => h'.2 hname
      obtain ⟨deposits, hdeposits, hdeposits'⟩ :=
        plus_spec (p := IsDeposit) h.deposits hexact ⟨hkind, hname⟩
      refine ⟨{ acc with itemTotals := items, deposits := deposits }, ?_, ?_⟩
      · dsimp only
        rw [hitems]
        simp only [bind, Except.bind, if_pos hname, hdeposits]
        rfl
      · exact {
          totals := h.totals.skip (keyIf_of_neg hspending)
          monthly := h.monthly.skip (keyIf_of_neg hspending)
          currencyTotals := h.currencyTotals.skip (keyIf_of_neg hspending)
          monthTotals := h.monthTotals.skip (keyIf_of_neg hspending)
          receiptTotals := h.receiptTotals.skip (keyIf_of_neg hreceipt)
          deposits := hdeposits'
          itemTotals := hitems' }
    · have hspending : row.IsSpending := ⟨hkind, hname⟩
      have hdeposit : ¬ row.IsDeposit := fun h' => hname h'.2
      obtain ⟨totals, htotals, htotals'⟩ := plus_spec h.totals hexact hspending
      obtain ⟨monthly, hmonthly, hmonthly'⟩ := plus_spec h.monthly hexact hspending
      obtain ⟨currency, hcurrency, hcurrency'⟩ := plus_spec h.currencyTotals hexact hspending
      obtain ⟨month, hmonth, hmonth'⟩ := plus_spec h.monthTotals hexact hspending
      refine ⟨{ acc with
        itemTotals := items
        totals := totals
        monthly := monthly
        currencyTotals := currency
        monthTotals := month }, ?_, ?_⟩
      · dsimp only
        rw [hitems]
        simp only [bind, Except.bind, if_neg hname, htotals, hmonthly, hcurrency, hmonth]
        rfl
      · exact {
          totals := htotals'
          monthly := hmonthly'
          currencyTotals := hcurrency'
          monthTotals := hmonth'
          receiptTotals := h.receiptTotals.skip (keyIf_of_neg hreceipt)
          deposits := h.deposits.skip (keyIf_of_neg hdeposit)
          itemTotals := hitems' }

theorem Accumulators.Sums.empty : Accumulators.Sums [] {} where
  totals := .empty
  monthly := .empty
  currencyTotals := .empty
  monthTotals := .empty
  receiptTotals := .empty
  deposits := .empty
  itemTotals := .empty

/-- The loop. The rows that have been read already are generalised, as the
invariant is about these, and the rows that are left are the
induction's. -/
theorem Accumulators.foldlM_addRow_spec {rows processed : List StatisticsRow}
    {acc : Accumulators} (h : acc.Sums processed) (hexact : ExactRows (processed ++ rows)) :
    ∃ acc', rows.foldlM Accumulators.addRow acc = .ok acc' ∧ acc'.Sums (processed ++ rows) := by
  induction rows generalizing processed acc with
  | nil =>
    rw [List.append_nil]
    exact ⟨acc, rfl, h⟩
  | cons row rows ih =>
    have hsplit : processed ++ row :: rows = processed ++ [row] ++ rows := by simp
    rw [hsplit] at hexact ⊢
    obtain ⟨acc₁, hacc₁, hsums⟩ := addRow_spec h hexact.left
    obtain ⟨acc₂, hacc₂, hsums₂⟩ := ih hsums hexact
    refine ⟨acc₂, ?_, hsums₂⟩
    rw [List.foldlM_cons, hacc₁]
    exact hacc₂

/-- The loop over all rows. -/
theorem Accumulators.exists_sums {rows : List StatisticsRow} (hexact : ExactRows rows) :
    ∃ acc : Accumulators, rows.foldlM Accumulators.addRow {} = .ok acc ∧ acc.Sums rows :=
  foldlM_addRow_spec Sums.empty hexact

/-! ## The months of the window

The window begins at the first day of a month and ends today. A month of
the report is one of its months, and every row falls into one of them. -/

/-- The first days of the months that have a day of a window, in
increasing order. This determines the list. -/
structure IsWindow (dateFrom dateTo : Date) (months : List Date) : Prop where
  increasing : months.Pairwise (· < ·)
  mem : ∀ d, d ∈ months ↔ ∃ x : Date, (dateFrom ≤ x ∧ x ≤ dateTo) ∧ x.firstOfMonth = d

/-- The month that lies `offset` months after the first. -/
def monthAt (start : Date) (offset : ℕ) : Date :=
  match monthStart start offset with
  | .ok d => d
  | .error _ => start

section Window

variable {today start : Date} {months : ℕ}

/-- None of the months of the window is outside the calendar. The first
one is not, nor is today, and the others lie between them. -/
theorem monthStart_monthAt (hstart : monthStart today (1 - months) = .ok start) {k : ℕ}
    (hk : k < months) : monthStart start k = .ok (monthAt start k) := by
  have hindex := (monthStart_eq_ok.mp hstart).1
  have hlow := start.valid.1.1
  have hlow' := start.valid.2.1.1
  have hhigh := today.valid.1.2
  have hhigh' := today.valid.2.1.2
  have hok : ∃ d, monthStart start k = .ok d :=
    monthStart_isOk (by unfold Date.monthIndex; omega)
      (by rw [hindex]; unfold Date.monthIndex; omega)
  obtain ⟨d, hd⟩ := hok
  unfold monthAt
  rw [hd]

theorem monthAt_spec (hstart : monthStart today (1 - months) = .ok start) {k : ℕ}
    (hk : k < months) :
    (monthAt start k).monthIndex = start.monthIndex + k ∧ (monthAt start k).day = 1 :=
  monthStart_eq_ok.mp (monthStart_monthAt hstart hk)

theorem monthIndex_eq_iff {d e : Date} :
    d.monthIndex = e.monthIndex ↔ d.year = e.year ∧ d.month = e.month := by
  have hd := d.valid.2.1
  have he := e.valid.2.1
  unfold Date.monthIndex
  omega

/-- **The months of the report are those of the window**: none is left
out, and none is listed twice. Distinctness is what lets a total be the
sum over its months. -/
theorem isWindow_monthAt (hstart : monthStart today (1 - months) = .ok start) :
    IsWindow start today ((List.range months).map (monthAt start)) := by
  obtain ⟨hindex, hday⟩ := monthStart_eq_ok.mp hstart
  constructor
  · rw [List.pairwise_map]
    refine List.pairwise_lt_range.imp_of_mem fun {j k} hj hk hlt => ?_
    have hj' := (monthAt_spec hstart (List.mem_range.mp hj)).1
    have hk' := (monthAt_spec hstart (List.mem_range.mp hk)).1
    have hjm := (monthAt start j).valid.2.1
    have hkm := (monthAt start k).valid.2.1
    rw [Date.lt_iff]
    unfold Date.monthIndex at hj' hk'
    omega
  · intro d
    rw [List.mem_map]
    constructor
    · rintro ⟨k, hk, rfl⟩
      have hlt := List.mem_range.mp hk
      obtain ⟨hk', hkday⟩ := monthAt_spec hstart hlt
      refine ⟨monthAt start k, ⟨?_, ?_⟩, Date.ext rfl rfl hkday.symm⟩
      all_goals
        have hm := (monthAt start k).valid.2.1
        have hs := start.valid.2.1
        have ht := today.valid.2
        rw [Date.le_iff]
        unfold Date.monthIndex at hk' hindex
        omega
    · -- the month of a day in the window comes as long after the first as its index says
      rintro ⟨x, ⟨hfrom, hto⟩, rfl⟩
      have hx := x.valid.2.1
      have hs := start.valid.2.1
      have ht := today.valid.2.1
      rw [Date.le_iff] at hfrom hto
      have hlow : start.monthIndex ≤ x.monthIndex := by
        unfold Date.monthIndex
        omega
      have hhigh : x.monthIndex < start.monthIndex + months := by
        rw [hindex]
        unfold Date.monthIndex
        omega
      have hlt : (x.monthIndex - start.monthIndex).toNat < months := by omega
      obtain ⟨hk, hkday⟩ := monthAt_spec hstart hlt
      have heq : (monthAt start (x.monthIndex - start.monthIndex).toNat).monthIndex
          = x.monthIndex := by omega
      obtain ⟨hyear, hmonth⟩ := monthIndex_eq_iff.mp heq
      exact ⟨_, List.mem_range.mpr hlt, Date.ext hyear hmonth hkday⟩

end Window

/-! ## What the rows sum up -/

/-- The sum of the line items of some receipts that have a property, each
counted once. The totals of the report are all of this form. -/
def Db.spent (db : Db) (receipts : List ReceiptRecord)
    (p : ReceiptRecord → LineItemRecord → Prop) [∀ r, DecidablePred (p r)] : ℚ :=
  sumOver LineItemRecord.totalPrice (fun i => ∃ r ∈ receipts, r.id = i.receiptId ∧ p r i)
    db.lineItems.rows

/-- A join with the line items counts each line item once. It has one
receipt, and receipts have distinct ids, so that there is one pair at
most. -/
theorem sumOver_withItems (db : Db) {receipts : List ReceiptRecord}
    (hnodup : (receipts.map ReceiptRecord.id).Nodup) (value : LineItemRecord → ℚ)
    (p : ReceiptRecord → LineItemRecord → Prop) [∀ r, DecidablePred (p r)] :
    sumOver (fun e => value e.2) (fun e => p e.1 e.2) (db.withItems receipts)
      = sumOver value (fun i => ∃ r ∈ receipts, r.id = i.receiptId ∧ p r i)
          db.lineItems.rows := by
  induction receipts with
  | nil => exact (Tally.sumOver_eq_zero _ _ fun i _ => by simp).symm
  | cons r receipts ih =>
    obtain ⟨hnew, hnodup'⟩ := List.nodup_cons.mp hnodup
    have hcons : db.withItems (r :: receipts)
        = (db.lineItems.rows.filter (fun i => i.receiptId = r.id)).map (fun i => (r, i))
          ++ db.withItems receipts := rfl
    have hexcl : ∀ i ∈ db.lineItems.rows, ¬ ((i.receiptId = r.id ∧ p r i)
        ∧ ∃ r' ∈ receipts, r'.id = i.receiptId ∧ p r' i) := by
      rintro i - ⟨⟨hi, -⟩, r', hr', hi', -⟩
      exact hnew (List.mem_map.mpr ⟨r', hr', hi'.trans hi⟩)
    rw [hcons, sumOver_append, ih hnodup', sumOver_map]
    show sumOver value (p r) _ + _ = _
    rw [Tally.sumOver_filter, ← Tally.sumOver_or value hexcl]
    refine sumOver_congr value fun i _ => ?_
    rw [List.exists_mem_cons_iff, eq_comm (a := r.id)]

section Query

variable (db : Db) (dateFrom dateTo : Date) (caller : Caller) (collectionId : Option UUID)

theorem nodup_scopedReceipts :
    ((db.scopedReceipts dateFrom dateTo caller collectionId).map ReceiptRecord.id).Nodup :=
  (List.filter_sublist.map _).nodup db.receipts.nodup

/-- What the rows of line items with a property sum up. The property has
to be one of the group, as the line items of a group share one row. -/
theorem sumOver_itemRows (p : StatisticsRow → Prop) [DecidablePred p]
    (q : Date × SpendingCategory × String → Prop) [DecidablePred q]
    (hitem : ∀ group, p (itemRow group) ↔ q group.1) (hreceipt : ∀ group, ¬ p (receiptRow group)) :
    sumOver StatisticsRow.total p (db.getTotals dateFrom dateTo caller collectionId)
      = db.spent (db.scopedReceipts dateFrom dateTo caller collectionId)
          (fun r i => q (itemGroup (r, i))) := by
  have hzero : ∀ rows : List (String × ℚ),
      sumOver StatisticsRow.total p (rows.map receiptRow) = 0 := fun rows =>
    Tally.sumOver_eq_zero _ _ fun row hrow => by
      obtain ⟨group, -, rfl⟩ := List.mem_map.mp hrow
      exact hreceipt group
  unfold Db.getTotals
  rw [sumOver_append, hzero, add_zero, sumOver_map]
  show sumOver Prod.snd _ _ = _
  rw [sumOver_congr Prod.snd fun group _ => hitem group, Tally.sumOver_groupSum]
  exact sumOver_withItems db (nodup_scopedReceipts db dateFrom dateTo caller collectionId)
    LineItemRecord.totalPrice (fun r i => q (itemGroup (r, i)))

/-- What the rows of receipts with a property sum up. They are grouped by
currency only, so the property can be about nothing else. -/
theorem sumOver_receiptRows (p : StatisticsRow → Prop) [DecidablePred p]
    (q : String → Prop) [DecidablePred q]
    (hitem : ∀ group, ¬ p (itemRow group)) (hreceipt : ∀ group, p (receiptRow group) ↔ q group.1) :
    sumOver StatisticsRow.total p (db.getTotals dateFrom dateTo caller collectionId)
      = sumOver (fun r => r.total)
          (fun r => db.InScope dateFrom dateTo caller collectionId r ∧ q r.currency)
          db.receipts.rows := by
  have hzero : ∀ rows : List ((Date × SpendingCategory × String) × ℚ),
      sumOver StatisticsRow.total p (rows.map itemRow) = 0 := fun rows =>
    Tally.sumOver_eq_zero _ _ fun row hrow => by
      obtain ⟨group, -, rfl⟩ := List.mem_map.mp hrow
      exact hitem group
  unfold Db.getTotals
  rw [sumOver_append, hzero, zero_add, sumOver_map]
  show sumOver Prod.snd _ _ = _
  rw [sumOver_congr Prod.snd fun group _ => hreceipt group, Tally.sumOver_groupSum]
  exact Tally.sumOver_filter _ _ _ _

/-- The rows of line items. Each comes from one line item at least, whose
receipt gives it the month and the currency. -/
theorem mem_itemRows {row : StatisticsRow}
    (hrow : row ∈ db.getTotals dateFrom dateTo caller collectionId) (hkind : row.IsItem) :
    ∃ r ∈ db.scopedReceipts dateFrom dateTo caller collectionId, ∃ i ∈ db.lineItems.rows,
      i.receiptId = r.id ∧ row.month = some r.date.firstOfMonth
        ∧ row.category = some i.spendingCategory.code ∧ row.currency = r.currency := by
  rcases List.mem_append.mp hrow with h | h
  · obtain ⟨⟨k, v⟩, hgroup, rfl⟩ := List.mem_map.mp h
    obtain ⟨⟨e, he, rfl⟩, -⟩ := Tally.mem_groupSum.mp hgroup
    obtain ⟨r, hr, he⟩ := List.mem_flatMap.mp he
    obtain ⟨i, hi, rfl⟩ := List.mem_map.mp he
    obtain ⟨hi, hid⟩ := List.mem_filter.mp hi
    exact ⟨r, hr, i, hi, of_decide_eq_true hid, rfl, rfl, rfl⟩
  · obtain ⟨group, -, rfl⟩ := List.mem_map.mp h
    exact absurd hkind (by simp [IsItem, receiptRow])

/-- There is a row of receipts for each currency, and for no other. It is
there also when the receipts have no line items. -/
theorem exists_receiptRow {currency : String} :
    (∃ row ∈ db.getTotals dateFrom dateTo caller collectionId,
        row.IsReceipt ∧ row.currency = currency)
      ↔ ∃ r ∈ db.scopedReceipts dateFrom dateTo caller collectionId, r.currency = currency := by
  constructor
  · rintro ⟨row, hrow, hkind, rfl⟩
    rcases List.mem_append.mp hrow with h | h
    · obtain ⟨group, -, rfl⟩ := List.mem_map.mp h
      exact absurd hkind (by simp [IsReceipt, itemRow])
    · obtain ⟨⟨k, v⟩, hgroup, rfl⟩ := List.mem_map.mp h
      exact (Tally.mem_groupSum.mp hgroup).1
  · intro h
    have hgroup : (currency, _) ∈ Tally.groupSum (fun r => r.currency) (fun r => r.total)
        (db.scopedReceipts dateFrom dateTo caller collectionId) :=
      Tally.mem_groupSum.mpr ⟨h, rfl⟩
    exact ⟨_, List.mem_append_right _ (List.mem_map_of_mem hgroup), rfl, rfl⟩

end Query

end VisionBill
