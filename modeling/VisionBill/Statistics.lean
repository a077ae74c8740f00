import Mathlib.Data.List.Sort
import VisionBill.ReceiptEffects
import VisionBill.Lib.Program
import VisionBill.Lib.Tally

/-!
# The statistics page

`ReceiptDB.get_statistics` makes one page out of six queries. Each of them
divides the verified receipts of the scope into groups – by currency
alone, or by currency and something else – and counts and sums each group.
The groups of one query make up all that it sees, so that the sums of any
two queries agree currency by currency if they see the same receipts.

But every query is a statement of its own, and sees what has been
committed when it starts.

## When a page is consistent

The first query is by currency, the next four go further, and the last one
is by week. The page is consistent if the four add up to the first,
currency by currency. Each query says exactly what it sees (`SumsUp`), so
the page is consistent if and only if the four queries see as much of
every currency as the first one has seen (`consistent_iff`). As much, not
the same: a receipt that is verified while another one of the same amount
is deleted leaves no trace.

That is a condition on the states that the queries see. What others may do
in the meantime without disturbing the page is said in terms of their
transactions (`consistent_of_unseen`): each of them has to leave the
receipts in scope as it finds them. Storing the receipt of a new photo is
of this kind, because it is not verified (`statisticsReceipts_recorded`).

## Weeks

The last query has the receipts of some weeks only, so it does not add up
to anything. Weeks begin on a Monday, which is computed here from the
number of a day as the database does it, and every week that is listed is
one in which something was bought (`weeklySpending_spec`).
-/

namespace VisionBill

/-! ## Weeks

Weeks begin on Mondays, as `date_trunc` has it. Days are counted from the
beginning of the calendar, and the Monday is found by counting back. -/

/-- The number of days in a year before one of its months. -/
def daysBeforeMonth (year month : ℕ) : ℕ :=
  ((List.range (month - 1)).map fun m => daysInMonth year (m + 1)).sum

/-- How many of the first years are leap years. -/
def leapYears (years : ℕ) : ℕ := years / 4 - years / 100 + years / 400

namespace Date

/-- The number of a day, counted from the first of all days, which is 1.
It is the proleptic Gregorian calendar throughout. -/
def dayNumber (d : Date) : ℕ :=
  365 * (d.year - 1) + leapYears (d.year - 1) + daysBeforeMonth d.year d.month + d.day

/-- `EXTRACT(ISODOW FROM date)`. The first of all days is a Monday. -/
def isodow (d : Date) : ℕ := (d.dayNumber + 6) % 7 + 1

/-- The day before. The first of all days has none, and stays. The weeks
of the chart are counted back from today with it. -/
def yesterday (d : Date) : Date :=
  if hday : 1 < d.day then
    ⟨d.year, d.month, d.day - 1, d.valid.1, d.valid.2.1, Nat.le_sub_one_of_lt hday,
      (Nat.sub_le _ _).trans d.valid.2.2.2⟩
  else if hmonth : 1 < d.month then
    ⟨d.year, d.month - 1, daysInMonth d.year (d.month - 1), d.valid.1,
      ⟨Nat.le_sub_one_of_lt hmonth, (Nat.sub_le _ _).trans d.valid.2.1.2⟩,
      one_le_daysInMonth _ _, le_refl _⟩
  else if hyear : 1 < d.year then
    ⟨d.year - 1, 12, 31, ⟨Nat.le_sub_one_of_lt hyear, (Nat.sub_le _ _).trans d.valid.1.2⟩,
      by decide, by decide, le_of_eq rfl⟩
  else d

/-- `date_trunc('week', date)::date`. -/
def weekStart (d : Date) : Date := yesterday^[d.isodow - 1] d

theorem daysBeforeMonth_succ (year : ℕ) {month : ℕ} (h : 1 ≤ month) :
    daysBeforeMonth year (month + 1) = daysBeforeMonth year month + daysInMonth year month := by
  obtain ⟨m, rfl⟩ := Nat.exists_eq_add_of_le' h
  unfold daysBeforeMonth
  rw [Nat.add_sub_cancel, Nat.add_sub_cancel, List.range_succ, List.map_append, List.sum_append]
  rfl

theorem daysBeforeMonth_december (year : ℕ) :
    daysBeforeMonth year 12 = if isLeap year then 335 else 334 := by
  unfold daysBeforeMonth daysInMonth
  cases isLeap year <;> rfl

theorem leapYears_succ (years : ℕ) :
    leapYears (years + 1) = leapYears years + if isLeap (years + 1) then 1 else 0 := by
  have hle : years / 100 ≤ years / 4 := Nat.div_le_div_left (by decide) (by decide)
  have h₁ : 100 ∣ years + 1 → 4 ∣ years + 1 := dvd_trans (by decide)
  have h₂ : 400 ∣ years + 1 → 100 ∣ years + 1 := dvd_trans (by decide)
  have hleap : isLeap (years + 1) = true
      ↔ 4 ∣ years + 1 ∧ (¬ 100 ∣ years + 1 ∨ 400 ∣ years + 1) := by
    simp [isLeap, Nat.dvd_iff_mod_eq_zero]
  unfold leapYears
  rw [Nat.succ_div, Nat.succ_div, Nat.succ_div, if_congr hleap rfl rfl]
  by_cases h4 : 4 ∣ years + 1
  · by_cases h100 : 100 ∣ years + 1
    · by_cases h400 : 400 ∣ years + 1
      · rw [if_pos h4, if_pos h100, if_pos h400, if_pos ⟨h4, Or.inr h400⟩]
        omega
      · rw [if_pos h4, if_pos h100, if_neg h400, if_neg fun h => h.2.elim (· h100) h400]
        omega
    · rw [if_pos h4, if_neg h100, if_neg (mt h₂ h100), if_pos ⟨h4, Or.inl h100⟩]
      omega
  · rw [if_neg h4, if_neg (mt h₁ h4), if_neg (mt h₁ h4 ∘ h₂), if_neg fun h => h4 h.1]
    omega

/-- Each day but the first follows another one. The cases are the middle
of a month, the first of a month and New Year. -/
theorem dayNumber_yesterday (d : Date) (h : 1 < d.dayNumber) :
    d.yesterday.dayNumber + 1 = d.dayNumber := by
  obtain ⟨⟨hyear, -⟩, ⟨hmonth, -⟩, hday, -⟩ := d.valid
  unfold yesterday
  split
  · next hday' =>
    unfold dayNumber
    dsimp only
    omega
  · next hday' =>
    have hone : d.day = 1 := Nat.le_antisymm (Nat.not_lt.mp hday') hday
    split
    · next hmonth' =>
      have hsucc := daysBeforeMonth_succ d.year (Nat.le_sub_one_of_lt hmonth')
      rw [Nat.sub_add_cancel hmonth] at hsucc
      unfold dayNumber
      dsimp only
      omega
    · next hmonth' =>
      have hmonthOne : d.month = 1 := Nat.le_antisymm (Nat.not_lt.mp hmonth') hmonth
      split
      · next hyear' =>
        -- a year is longer by a day if it is a leap year
        obtain ⟨y, hy⟩ := Nat.exists_eq_add_of_le' hyear'
        have hdecember := daysBeforeMonth_december (y + 1)
        have hjanuary : daysBeforeMonth (y + 2) 1 = 0 := rfl
        have hleap := leapYears_succ y
        unfold dayNumber
        dsimp only
        rw [hy, hmonthOne, hone, hjanuary, show y + 2 - 1 = y + 1 from rfl, hdecember,
          show y + 1 - 1 = y from rfl, hleap]
        split
        · omega
        · omega
      · next hyear' =>
        have hyearOne : d.year = 1 := Nat.le_antisymm (Nat.not_lt.mp hyear') hyear
        unfold dayNumber at h
        rw [hyearOne, hmonthOne, hone] at h
        exact absurd h (by decide)

theorem dayNumber_pos (d : Date) : 1 ≤ d.dayNumber := by
  obtain ⟨-, -, hday, -⟩ := d.valid
  unfold dayNumber
  omega

theorem dayNumber_iterate_yesterday (d : Date) {n : ℕ} (h : n < d.dayNumber) :
    (yesterday^[n] d).dayNumber + n = d.dayNumber := by
  induction n with
  | zero => rfl
  | succ n ih =>
    have hprevious := ih (Nat.lt_of_succ_lt h)
    have hstep := dayNumber_yesterday (yesterday^[n] d) (by omega)
    rw [Function.iterate_succ_apply']
    omega

/-- A week starts on a Monday, at most six days ago. -/
theorem isodow_weekStart (d : Date) :
    d.weekStart.isodow = 1 ∧ d.weekStart.dayNumber ≤ d.dayNumber
      ∧ d.dayNumber ≤ d.weekStart.dayNumber + 6 := by
  have hpos := dayNumber_pos d
  have hweek := dayNumber_iterate_yesterday d (show d.isodow - 1 < d.dayNumber by
    unfold isodow
    omega)
  unfold weekStart
  unfold isodow at hweek ⊢
  omega

end Date

/-! ## The receipts that are looked at

All queries look at verified receipts in the scope of the caller. They ask
for both columns that say so, which matters if the two were ever to
differ. -/

/-- What PostgreSQL brings along: `avg` and `percentile_cont(0.5)` of
amounts, as `numeric`, and the order of texts. Nothing is assumed of
them. -/
class Aggregation where
  average : List ℚ → ℚ
  median : List ℚ → ℚ
  collate : String → String → Bool

/-- What `get_statistics` is asked for: by whom, and for which collection,
if for one. -/
structure StatisticsScope where
  userId : Option UUID
  canSeeAll : Bool
  collectionId : Option UUID

/-- The user whose receipts alone are looked at. -/
def StatisticsScope.owner? (scope : StatisticsScope) : Option UUID :=
  if scope.canSeeAll then none else scope.userId

namespace Db

/-- The condition that all six queries have. -/
def InStatistics (db : Db) (scope : StatisticsScope) (r : ReceiptRecord) : Prop :=
  r.status = .verified ∧ r.verified = true ∧ (∀ userId ∈ scope.owner?, r.userId = some userId)
    ∧ ∀ collectionId ∈ scope.collectionId, ⟨r.id, collectionId⟩ ∈ db.links.rows

instance (db : Db) (scope : StatisticsScope) : DecidablePred (db.InStatistics scope) := fun _ =>
  inferInstanceAs (Decidable (_ ∧ _ ∧ _ ∧ _))

/-- The receipts that a query looks at. -/
def statisticsReceipts (db : Db) (scope : StatisticsScope) : List ReceiptRecord :=
  db.receipts.rows.filter (db.InStatistics scope)

end Db

/-! ## The rows of the page -/

/-- What all rows have. Amounts of different currencies are never added,
so each row is about one of them. -/
structure GroupFigures where
  currency : String
  receiptCount : ℕ
  total : ℚ
  average : ℚ

/-- `CurrencyStatistics`. It is the only row that tells the parts of the
totals apart. -/
structure CurrencyStatistics extends GroupFigures where
  median : ℚ
  minimum : ℚ
  maximum : ℚ
  subtotal : ℚ
  discounts : ℚ
  taxes : ℚ
  tips : ℚ

/-- `NamedStatistics`. The name is a merchant, a category or a way of
paying, as the query has it. -/
structure NamedStatistics extends GroupFigures where
  name : String

/-- `WeekdayStatistics`. Days are numbered from one, which is Monday. -/
structure WeekdayStatistics extends GroupFigures where
  weekday : ℕ

/-- `WeeklyStatistics`. A week is named by its Monday. -/
structure WeeklyStatistics extends GroupFigures where
  weekStart : Date

/-- `ReceiptStatistics`. Its parts come from queries that are made one
after another, each with a snapshot of its own. -/
structure ReceiptStatistics where
  verifiedReceiptCount : ℕ
  currencies : List CurrencyStatistics
  merchants : List NamedStatistics
  categories : List NamedStatistics
  paymentMethods : List NamedStatistics
  weekdays : List WeekdayStatistics
  weeklySpending : List WeeklyStatistics

/-! ## The queries

Each groups the same receipts by something and adds them up. Sums and
counts are exact; the median is left to the database. -/

/-- The largest `COUNT(*)::int`. -/
def maxCount : ℕ := 2 ^ 31 - 1

/-- `GROUP BY`, and the row of each group. `COUNT(*)::int` raises for a
group that is too large. -/
def groupBy {κ ρ : Type} [DecidableEq κ] (key : ReceiptRecord → κ)
    (row : κ → List ReceiptRecord → ρ) (receipts : List ReceiptRecord) : Except DbError (List ρ) :=
  let groups := Tally.groups key receipts
  if ∀ group ∈ groups, group.2.length ≤ maxCount then
    .ok (groups.map fun group => row group.1 group.2)
  else .error .dataError

section Queries

variable [Aggregation]

/-- What is computed of each group. -/
def figures (currency : String) (group : List ReceiptRecord) : GroupFigures where
  currency := currency
  receiptCount := group.length
  total := (group.map fun r => r.total).sum
  average := Aggregation.average (group.map fun r => r.total)

/-- A row of `STATS_CURRENCY_SQL`. -/
def currencyRow (currency : String) (group : List ReceiptRecord) : CurrencyStatistics where
  toGroupFigures := figures currency group
  median := Aggregation.median (group.map fun r => r.total)
  minimum := (group.map fun r => r.total).min?.getD 0
  maximum := (group.map fun r => r.total).max?.getD 0
  subtotal := (group.map fun r => r.subtotal).sum
  discounts := (group.map fun r => r.discountTotal).sum
  taxes := (group.map fun r => r.taxTotal).sum
  tips := (group.map fun r => r.tip.getD 0).sum

/-- `ORDER BY total DESC, currency`. -/
def ByTotal (a b : CurrencyStatistics) : Prop :=
  b.total < a.total ∨ a.total = b.total ∧ Aggregation.collate a.currency b.currency = true

/-- `ORDER BY total DESC, name, currency`. -/
def ByTotalAndName (a b : NamedStatistics) : Prop :=
  b.total < a.total ∨ a.total = b.total
    ∧ (a.name ≠ b.name ∧ Aggregation.collate a.name b.name = true
      ∨ a.name = b.name ∧ Aggregation.collate a.currency b.currency = true)

/-- `ORDER BY weekday, currency`. -/
def ByWeekday (a b : WeekdayStatistics) : Prop :=
  a.weekday < b.weekday
    ∨ a.weekday = b.weekday ∧ Aggregation.collate a.currency b.currency = true

/-- `ORDER BY week_start, currency`. -/
def ByWeek (a b : WeeklyStatistics) : Prop :=
  a.weekStart < b.weekStart
    ∨ a.weekStart = b.weekStart ∧ Aggregation.collate a.currency b.currency = true

instance : DecidableRel ByTotal := fun _ _ => inferInstanceAs (Decidable (_ ∨ _))

instance : DecidableRel ByTotalAndName := fun _ _ => inferInstanceAs (Decidable (_ ∨ _))

instance : DecidableRel ByWeekday := fun _ _ => inferInstanceAs (Decidable (_ ∨ _))

instance : DecidableRel ByWeek := fun _ _ => inferInstanceAs (Decidable (_ ∨ _))

/-- What `STATS_NAMED_SQL` groups by. The statement is one text, in which
the column is put in. -/
inductive NamedField
  | merchant | category | paymentMethod

/-- The text of a field: an empty name counts as an unknown merchant. -/
def NamedField.of : NamedField → ReceiptRecord → String
  | .merchant, r => if r.merchantName = "" then "Unknown merchant" else r.merchantName
  | .category, r => r.category
  | .paymentMethod, r => r.paymentMethod

namespace Db

/-- `STATS_CURRENCY_SQL`. -/
def statsCurrency (db : Db) (scope : StatisticsScope) : Except DbError (List CurrencyStatistics) :=
  (groupBy (fun r => r.currency) currencyRow (db.statisticsReceipts scope)).map (orderBy ByTotal)

/-- `STATS_NAMED_SQL`. -/
def statsNamed (db : Db) (field : NamedField) (scope : StatisticsScope) :
    Except DbError (List NamedStatistics) :=
  (groupBy (fun r => (field.of r, r.currency))
    (fun key group => { toGroupFigures := figures key.2 group, name := key.1 })
    (db.statisticsReceipts scope)).map (orderBy ByTotalAndName)

/-- `STATS_WEEKDAY_SQL`. -/
def statsWeekday (db : Db) (scope : StatisticsScope) : Except DbError (List WeekdayStatistics) :=
  (groupBy (fun r => (r.date.isodow, r.currency))
    (fun key group => { toGroupFigures := figures key.2 group, weekday := key.1 })
    (db.statisticsReceipts scope)).map (orderBy ByWeekday)

/-- `STATS_WEEKLY_SQL`, for the week of `today` and some weeks before.
Receipts of later weeks are counted as well. -/
def statsWeekly (db : Db) (today : Date) (weeks : ℕ) (scope : StatisticsScope) :
    Except DbError (List WeeklyStatistics) :=
  let recent := (db.statisticsReceipts scope).filter fun r =>
    today.weekStart.dayNumber ≤ r.date.dayNumber + 7 * weeks
  (groupBy (fun r => (r.date.weekStart, r.currency))
    (fun key group => { toGroupFigures := figures key.2 group, weekStart := key.1 })
    recent).map (orderBy ByWeek)

end Db

/-! ## The page

The queries of a page are made one after another, on one connection and
without a transaction. So each may see what was committed since the one
before. -/

/-- The database after some transactions. -/
def Db.committed (db : Db) (commits : List (Db → Db)) : Db :=
  commits.foldl (fun db commit => commit db) db

/-- A query of `get_statistics`. None of them writes, and others may
commit between any two. -/
inductive StatisticsOp
  | currency (scope : StatisticsScope)
  | named (field : NamedField) (scope : StatisticsScope)
  | weekday (scope : StatisticsScope)
  | weekly (weeks : ℕ) (scope : StatisticsScope)

namespace StatisticsOp

/-- The rows that a query returns. -/
def Ret : StatisticsOp → Type
  | currency _ => List CurrencyStatistics
  | named _ _ => List NamedStatistics
  | weekday _ => List WeekdayStatistics
  | weekly _ _ => List WeeklyStatistics

/-- What a query returns. -/
def answer (today : Date) (db : Db) : (op : StatisticsOp) → Except DbError op.Ret
  | currency scope => db.statsCurrency scope
  | named field scope => db.statsNamed field scope
  | weekday scope => db.statsWeekday scope
  | weekly weeks scope => db.statsWeekly today weeks scope

/-- A query, after what others have committed since the last one. It reads
one snapshot, but the next query reads another one. -/
def exec (today : Date) (db : Db) (op : StatisticsOp) (commits : List (Db → Db)) :
    Option (Db × Except DbError op.Ret) :=
  some (db.committed commits, op.answer today (db.committed commits))

end StatisticsOp

/-- A single query. -/
abbrev fetch (op : StatisticsOp) : Program StatisticsOp.Ret DbError op.Ret := Program.perform op

/-- `get_statistics`. The six queries are asked one after the other, and
only the last one with the day on which it is asked. -/
def getStatistics (scope : StatisticsScope) (weeks : ℤ) :
    Program StatisticsOp.Ret DbError ReceiptStatistics := do
  let currencies : List CurrencyStatistics ← fetch (.currency scope)
  let merchants : List NamedStatistics ← fetch (.named .merchant scope)
  let categories : List NamedStatistics ← fetch (.named .category scope)
  let paymentMethods : List NamedStatistics ← fetch (.named .paymentMethod scope)
  let weekdays : List WeekdayStatistics ← fetch (.weekday scope)
  let weeklySpending : List WeeklyStatistics ← fetch (.weekly (weeks - 1).toNat scope)
  return {
    verifiedReceiptCount := (currencies.map fun row => row.receiptCount).sum
    currencies := currencies
    merchants := merchants
    categories := categories
    paymentMethods := paymentMethods
    weekdays := weekdays
    weeklySpending := weeklySpending }

/-! ## What a page says

A page is consistent if its parts add up to the same sums for each
currency. Each part sums up what its own query sees, so the question is
what the queries see. -/

/-- Two groupings have, in every currency, the same number of receipts and
the same total. One of them may have many rows of a currency. -/
def Agree (l l' : List GroupFigures) : Prop :=
  ∀ currency,
    Tally.sumOver (fun row => row.receiptCount) (fun row => row.currency = currency) l
        = Tally.sumOver (fun row => row.receiptCount) (fun row => row.currency = currency) l'
      ∧ Tally.sumOver (fun row => row.total) (fun row => row.currency = currency) l
        = Tally.sumOver (fun row => row.total) (fun row => row.currency = currency) l'

namespace ReceiptStatistics

/-- The rows by currency. -/
def byCurrency (page : ReceiptStatistics) : List GroupFigures :=
  page.currencies.map CurrencyStatistics.toGroupFigures

/-- The rows of the four groupings that go further. -/
def groupings (page : ReceiptStatistics) : List (List GroupFigures) :=
  [page.merchants.map NamedStatistics.toGroupFigures,
    page.categories.map NamedStatistics.toGroupFigures,
    page.paymentMethods.map NamedStatistics.toGroupFigures,
    page.weekdays.map WeekdayStatistics.toGroupFigures]

/-- **The page is consistent**: the groupings add up to the currencies,
and each of them to the number of receipts. A reader of the page compares
just these numbers, as they are shown side by side. Weeks are no grouping
in this sense, since they leave out what is older. -/
structure Consistent (page : ReceiptStatistics) : Prop where
  /-- Each currency is listed once. -/
  nodup : (page.currencies.map fun row => row.currency).Nodup
  agree : ∀ l ∈ page.groupings, Agree page.byCurrency l
  count : ∀ l ∈ page.groupings,
    page.verifiedReceiptCount = (l.map fun row => row.receiptCount).sum

end ReceiptStatistics

namespace Db

/-- What a query sees of a currency: how many receipts, and their
total. -/
def spending (db : Db) (scope : StatisticsScope) (currency : String) : ℕ × ℚ :=
  let receipts := (db.statisticsReceipts scope).filter fun r => r.currency = currency
  (receipts.length, (receipts.map fun r => r.total).sum)

/-- A query sees as much of every currency in one state as in another. It
is about sums: the receipts themselves may be others. The page shows sums
and counts only, so nothing else can be noticed. -/
def SpendsAlike (db db' : Db) (scope : StatisticsScope) : Prop :=
  ∀ currency, db.spending scope currency = db'.spending scope currency

end Db

/-- The state that a query sees: `commits` lists what is committed before
each of them. -/
def snapshot (db : Db) (commits : List (List (Db → Db))) (query : ℕ) : Db :=
  db.committed (commits.take (query + 1)).flatten

section Groups

variable {κ ρ : Type} [DecidableEq κ] {key : ReceiptRecord → κ}
  {row : κ → List ReceiptRecord → ρ} {receipts : List ReceiptRecord} {l : List ρ}

omit [Aggregation] in
/-- The rows of a query that does not raise. -/
theorem groupBy_eq_ok (h : groupBy key row receipts = .ok l) :
    l = (Tally.groups key receipts).map fun group => row group.1 group.2 := by
  unfold groupBy at h
  dsimp only at h
  split at h
  · exact (Except.ok.inj h).symm
  · exact absurd h (by simp)

/-- **The groups of a query make up what it sees**, currency by currency.
It needs no more of the grouping than that its key determines the
currency. -/
theorem groupBy_spending {toFigures : ρ → GroupFigures} (currency : κ → String)
    {le : ρ → ρ → Prop} [DecidableRel le]
    (hrow : ∀ k group, toFigures (row k group) = figures (currency k) group)
    (hkey : ∀ r, currency (key r) = r.currency)
    (h : (groupBy key row receipts).map (orderBy le) = .ok l) (c : String) :
    Tally.sumOver (fun row => row.receiptCount) (fun row => row.currency = c) (l.map toFigures)
        = (receipts.filter fun r => r.currency = c).length
      ∧ Tally.sumOver (fun row => row.total) (fun row => row.currency = c) (l.map toFigures)
        = ((receipts.filter fun r => r.currency = c).map fun r => r.total).sum := by
  obtain ⟨l₀, hl₀, rfl⟩ := map_eq_ok h
  obtain rfl := groupBy_eq_ok hl₀
  have hperm := (perm_orderBy le
    ((Tally.groups key receipts).map fun group => row group.1 group.2)).map toFigures
  have hfigures : ((Tally.groups key receipts).map fun group => row group.1 group.2).map toFigures
      = (Tally.groups key receipts).map fun group => figures (currency group.1) group.2 := by
    rw [List.map_map]
    exact List.map_congr_left fun group _ => hrow group.1 group.2
  rw [Tally.sumOver_perm _ _ hperm, Tally.sumOver_perm _ _ hperm, hfigures, Tally.sumOver_map,
    Tally.sumOver_map]
  -- the rows of a currency come from the groups with such a key
  have hfilter : (receipts.filter fun r => currency (key r) = c)
      = receipts.filter fun r => r.currency = c :=
    List.filter_congr fun r _ => by rw [hkey r]
  have hlength : ∀ group : List ReceiptRecord, (group.map fun _ => 1).sum = group.length := by simp
  constructor
  · have hcount := Tally.sumOver_groups key (fun _ => 1) (fun k => currency k = c) receipts
    simp only [hlength] at hcount
    refine hcount.trans ?_
    unfold Tally.sumOver
    rw [hfilter, hlength]
  · have hsum := Tally.sumOver_groups key (fun r => r.total) (fun k => currency k = c) receipts
    refine hsum.trans ?_
    unfold Tally.sumOver
    rw [hfilter]

end Groups

variable {scope : StatisticsScope} {db db' : Db} {weeks : ℤ} {today : Date}
  {commits : List (List (Db → Db))} {page : ReceiptStatistics}

/-- Some rows say of each currency what a query sees of it. They do so for
the number of receipts and for their total. -/
def SumsUp (l : List GroupFigures) (db : Db) (scope : StatisticsScope) : Prop :=
  ∀ currency,
    Tally.sumOver (fun row => row.receiptCount) (fun row => row.currency = currency) l
        = (db.spending scope currency).1
      ∧ Tally.sumOver (fun row => row.total) (fun row => row.currency = currency) l
        = (db.spending scope currency).2

theorem sums_currency {l : List CurrencyStatistics} (h : db.statsCurrency scope = .ok l) :
    SumsUp (l.map CurrencyStatistics.toGroupFigures) db scope :=
  fun c => groupBy_spending id (fun _ _ => rfl) (fun _ => rfl) h c

theorem sums_named {field : NamedField} {l : List NamedStatistics}
    (h : db.statsNamed field scope = .ok l) :
    SumsUp (l.map NamedStatistics.toGroupFigures) db scope :=
  fun c => groupBy_spending Prod.snd (fun _ _ => rfl) (fun _ => rfl) h c

theorem sums_weekday {l : List WeekdayStatistics} (h : db.statsWeekday scope = .ok l) :
    SumsUp (l.map WeekdayStatistics.toGroupFigures) db scope :=
  fun c => groupBy_spending Prod.snd (fun _ _ => rfl) (fun _ => rfl) h c

omit [Aggregation] in
/-- Groupings agree if and only if their queries have seen alike. -/
theorem agree_iff {l l' : List GroupFigures} (h : SumsUp l db scope) (h' : SumsUp l' db' scope) :
    Agree l l' ↔ db.SpendsAlike db' scope := by
  refine forall_congr' fun currency => ?_
  rw [(h currency).1, (h currency).2, (h' currency).1, (h' currency).2]
  exact Prod.ext_iff.symm

/-- No currency is listed twice. The statement groups by it, and sorting
afterwards keeps the rows as they are. -/
theorem nodup_currency {l : List CurrencyStatistics} (h : db.statsCurrency scope = .ok l) :
    (l.map fun row => row.currency).Nodup := by
  obtain ⟨l₀, hl₀, rfl⟩ := map_eq_ok h
  obtain rfl := groupBy_eq_ok hl₀
  have hperm := (perm_orderBy ByTotal ((Tally.groups (fun r : ReceiptRecord =>
    r.currency) (db.statisticsReceipts scope)).map fun group => currencyRow group.1 group.2)).map
      fun row => row.currency
  rw [List.map_map] at hperm
  refine hperm.nodup_iff.mpr ?_
  show ((Tally.groups _ _).map Prod.fst).Nodup
  rw [Tally.map_fst_groups]
  exact List.nodup_dedup _

/-- The next query. -/
theorem fetch_run {op : StatisticsOp}
    {f : op.Ret → Program StatisticsOp.Ret DbError ReceiptStatistics}
    (h : (fetch op >>= f).run (StatisticsOp.exec today) commits db = some (db', .ok page)) :
    ∃ c cs a, commits = c :: cs ∧ op.answer today (db.committed c) = .ok a
      ∧ (f a).run (StatisticsOp.exec today) cs (db.committed c) = some (db', .ok page) := by
  obtain ⟨c, cs, rfl, ⟨s, a, hexec, hrest⟩ | ⟨e, -, -, he⟩⟩ := Program.run_perform_bind h
  · obtain ⟨rfl, ha⟩ := Prod.mk.inj (Option.some.inj hexec)
    exact ⟨c, cs, a, rfl, ha, hrest⟩
  · exact absurd he (by simp)

/-- What the page is made of. Each of the six queries has its own
snapshot, and the numbers of these are the places of the queries in the
source. -/
theorem getStatistics_run
    (h : (getStatistics scope weeks).run (StatisticsOp.exec today) commits db
      = some (db', .ok page)) :
    (snapshot db commits 0).statsCurrency scope = .ok page.currencies
      ∧ (snapshot db commits 1).statsNamed .merchant scope = .ok page.merchants
      ∧ (snapshot db commits 2).statsNamed .category scope = .ok page.categories
      ∧ (snapshot db commits 3).statsNamed .paymentMethod scope = .ok page.paymentMethods
      ∧ (snapshot db commits 4).statsWeekday scope = .ok page.weekdays
      ∧ (snapshot db commits 5).statsWeekly today (weeks - 1).toNat scope = .ok page.weeklySpending
      ∧ page.verifiedReceiptCount = (page.currencies.map fun row => row.receiptCount).sum := by
  obtain ⟨c₀, cs₀, currencies, rfl, h₀, h⟩ := fetch_run h
  obtain ⟨c₁, cs₁, merchants, rfl, h₁, h⟩ := fetch_run h
  obtain ⟨c₂, cs₂, categories, rfl, h₂, h⟩ := fetch_run h
  obtain ⟨c₃, cs₃, paymentMethods, rfl, h₃, h⟩ := fetch_run h
  obtain ⟨c₄, cs₄, weekdays, rfl, h₄, h⟩ := fetch_run h
  obtain ⟨c₅, cs₅, weeklySpending, rfl, h₅, h⟩ := fetch_run h
  obtain ⟨-, -, hpage⟩ := Program.run_pure h
  obtain rfl := Except.ok.inj hpage
  simp only [Db.committed, ← List.foldl_append, List.append_assoc] at h₀ h₁ h₂ h₃ h₄ h₅
  simp only [snapshot, Db.committed, List.take_succ_cons, List.take_zero, List.flatten_cons,
    List.flatten_nil, List.append_nil]
  exact ⟨h₀, h₁, h₂, h₃, h₄, h₅, trivial⟩

/-- The four groupings agree with the currencies if and only if their
queries see as much of every currency as the first one. -/
theorem groupings_agree_iff
    (h : (getStatistics scope weeks).run (StatisticsOp.exec today) commits db
      = some (db', .ok page)) :
    (∀ l ∈ page.groupings, Agree page.byCurrency l) ↔ ∀ query ∈ [1, 2, 3, 4],
      (snapshot db commits 0).SpendsAlike (snapshot db commits query) scope := by
  obtain ⟨hcurrencies, hmerchants, hcategories, hpayment, hweekdays, -⟩ := getStatistics_run h
  have hfirst := sums_currency hcurrencies
  unfold ReceiptStatistics.groupings ReceiptStatistics.byCurrency
  simp only [List.forall_mem_cons, List.not_mem_nil, false_implies, implies_true, and_true]
  rw [agree_iff hfirst (sums_named hmerchants), agree_iff hfirst (sums_named hcategories),
    agree_iff hfirst (sums_named hpayment), agree_iff hfirst (sums_weekday hweekdays)]

/-- What makes a page consistent. The number of receipts on it is a sum
over currencies, so that it agrees with a grouping that agrees with
those. -/
theorem consistent_of_spendsAlike
    (h : (getStatistics scope weeks).run (StatisticsOp.exec today) commits db
      = some (db', .ok page))
    (halike : ∀ query ∈ [1, 2, 3, 4],
      (snapshot db commits 0).SpendsAlike (snapshot db commits query) scope) : page.Consistent := by
  have hall := (groupings_agree_iff h).mpr halike
  obtain ⟨hcurrencies, -, -, -, -, -, hcount⟩ := getStatistics_run h
  refine ⟨nodup_currency hcurrencies, hall, fun l hl => ?_⟩
  have hsum := Tally.sum_eq_of_sumOver_eq fun currency => (hall l hl currency).1
  rw [hcount, ← hsum]
  unfold ReceiptStatistics.byCurrency
  rw [List.map_map]
  rfl

/-- **The page is consistent** if and only if the next four queries see as
much of every currency as the first one. What the last query sees does not
matter. -/
theorem consistent_iff
    (h : (getStatistics scope weeks).run (StatisticsOp.exec today) commits db
      = some (db', .ok page)) :
    page.Consistent ↔ ∀ query ∈ [1, 2, 3, 4],
      (snapshot db commits 0).SpendsAlike (snapshot db commits query) scope :=
  ⟨fun hpage => (groupings_agree_iff h).mp hpage.agree, consistent_of_spendsAlike h⟩

/-- The queries do not see what some transactions do one after the other:
each of them leaves the receipts in scope as it finds them. The
transactions are arbitrary functions on the database, so nothing is
assumed of what they are for. -/
def Db.Unseen (scope : StatisticsScope) (db : Db) : List (Db → Db) → Prop
  | [] => True
  | commit :: commits => (commit db).statisticsReceipts scope = db.statisticsReceipts scope
    ∧ (commit db).Unseen scope commits

omit [Aggregation] in
theorem Db.Unseen.statisticsReceipts {c : List (Db → Db)} (h : db.Unseen scope c) :
    (db.committed c).statisticsReceipts scope = db.statisticsReceipts scope := by
  induction c generalizing db with
  | nil => rfl
  | cons commit c ih => exact (ih h.2).trans h.1

omit [Aggregation] in
/-- What a query sees is what the one before has seen, with what has been
committed since. -/
theorem snapshot_succ (db : Db) (commits : List (List (Db → Db))) (n : ℕ) :
    snapshot db commits (n + 1) = (snapshot db commits n).committed (commits[n + 1]?.getD []) := by
  unfold snapshot Db.committed
  rw [List.take_add_one, List.flatten_append, List.foldl_append]
  cases commits[n + 1]? with
  | none => rfl
  | some c => exact congrArg (fun l => List.foldl _ _ l) (List.append_nil c)

/-- Nothing is committed that the first five queries would see: what is
committed before each of them is unseen in the state that the one before
has seen. -/
def CommitsUnseen (scope : StatisticsScope) (db : Db) (commits : List (List (Db → Db))) : Prop :=
  ∀ n < 4, (snapshot db commits n).Unseen scope (commits[n + 1]?.getD [])

omit [Aggregation] in
theorem snapshot_unseen (h : CommitsUnseen scope db commits) {n : ℕ} (hn : n ≤ 4) :
    (snapshot db commits n).statisticsReceipts scope
      = (snapshot db commits 0).statisticsReceipts scope := by
  induction n with
  | zero => rfl
  | succ n ih =>
    rw [snapshot_succ, ← ih (Nat.le_of_succ_le hn)]
    exact (h n hn).statisticsReceipts

/-- In particular if nothing is committed that the first five queries
would see. This reads the condition off the transactions of others, where
`consistent_of_spendsAlike` reads it off the states that they leave: which
transactions these may be is said by results like
`statisticsReceipts_recorded`. -/
theorem consistent_of_unseen
    (h : (getStatistics scope weeks).run (StatisticsOp.exec today) commits db
      = some (db', .ok page))
    (hunseen : CommitsUnseen scope db commits) : page.Consistent := by
  refine consistent_of_spendsAlike h fun query hquery currency => ?_
  have hn : query ≤ 4 := by
    simp only [List.mem_cons, List.not_mem_nil, or_false] at hquery
    omega
  unfold Db.spending
  rw [snapshot_unseen hunseen hn]

omit [Aggregation] in
/-- **Photos may be read while the page is made**: the receipt of a photo
that has none is not verified when it is stored, and no query looks at it.
So reading a photo is not among the changes that the snapshots have to be
free of. -/
theorem statisticsReceipts_recorded [CaseFolding] {now : Timestamp} {fresh : ℕ → UUID}
    {receipt : Receipt} {imageId : UUID} {userId : Option UUID} {row : ReceiptRecord}
    (hunread : db.receiptOfImage? imageId = none)
    (h : db.persistReceipt now fresh receipt (some imageId) .unverified false userId
      = .ok (db', row)) :
    db'.statisticsReceipts scope = db.statisticsReceipts scope := by
  obtain ⟨values, history, rows, taxRows, heffect⟩ := Db.persistReceipt_spec h
  obtain ⟨db₁, hwrite, hdb⟩ := heffect.writes
  cases Db.writeReceipt_spec hwrite with
  | updated i old himage hold hrow hdb₁ =>
    obtain rfl := Option.some.inj himage
    exact absurd (hunread.symm.trans hold) (by simp)
  | inserted hnone hfree hexists hrow hinsert hdb₁ =>
    have hlinks : db'.links = db.links := by rw [hdb, hdb₁]
    have hrows : db'.receipts.rows = db.receipts.rows ++ [row] := by
      rw [hdb]
      exact (Table.insert_eq_some_iff.mp hinsert).2
    have hnew : ¬ db.InStatistics scope row := fun hstatistics => by
      rw [hrow] at hstatistics
      exact absurd hstatistics.1 (by simp)
    have hsame : db'.InStatistics scope = db.InStatistics scope := by
      unfold Db.InStatistics
      rw [hlinks]
    unfold Db.statisticsReceipts
    simp only [hsame, hrows, List.filter_append]
    rw [List.filter_singleton, decide_eq_false hnew]
    exact List.append_nil _

/-! ## The weeks -/

/-- **Every week of the page** starts on a Monday, and is one in which a
receipt was made out that is in scope, and that is not older than the
weeks asked for: nothing is counted for a week in which nothing was
bought. -/
theorem weeklySpending_spec
    (h : (getStatistics scope weeks).run (StatisticsOp.exec today) commits db
      = some (db', .ok page)) :
    ∀ row ∈ page.weeklySpending, row.weekStart.isodow = 1
      ∧ ∃ r ∈ (snapshot db commits 5).statisticsReceipts scope, r.currency = row.currency
        ∧ row.weekStart.dayNumber ≤ r.date.dayNumber
        ∧ r.date.dayNumber ≤ row.weekStart.dayNumber + 6
        ∧ today.weekStart.dayNumber ≤ r.date.dayNumber + 7 * (weeks - 1).toNat := by
  obtain ⟨-, -, -, -, -, hweekly, -⟩ := getStatistics_run h
  obtain ⟨rows, hrows, heq⟩ := map_eq_ok hweekly
  intro row hrow
  rw [← heq, mem_orderBy, groupBy_eq_ok hrows, List.mem_map] at hrow
  obtain ⟨group, hgroup, rfl⟩ := hrow
  obtain ⟨r, hr, hkey⟩ := Tally.exists_of_mem_groups hgroup
  obtain ⟨hmem, hrecent⟩ := List.mem_filter.mp hr
  obtain ⟨hmonday, hfirst, hlast⟩ := Date.isodow_weekStart r.date
  rw [← hkey]
  exact ⟨hmonday, r, hmem, rfl, hfirst, hlast, of_decide_eq_true hrecent⟩

end Queries

/-! ## A receipt that is verified meanwhile -/

section VerifiedMeanwhile

/-- Averages and medians of amounts, and texts ordered by their
characters. -/
@[reducible] def plainAggregation : Aggregation where
  average := fun l => l.sum / l.length
  median := fun l =>
    let sorted := l.insertionSort (· ≤ ·)
    (sorted.getD ((l.length - 1) / 2) 0 + sorted.getD (l.length / 2) 0) / 2
  collate := fun s t => decide (s ≤ t)

local instance plainAggregationOfPage : Aggregation := plainAggregation

/-- The receipts of a user, in all collections. -/
def ownReceipts : StatisticsScope where
  userId := some 1
  canSeeAll := false
  collectionId := none

/-- The user verifies a receipt. -/
def verifyFirst (db : Db) : Db := ((db.verifyReceipt 1 ⟨1, false⟩).map Prod.fst).getD db

/-- It is verified before the page is asked for. Then all six queries see
it, and the page is consistent. -/
theorem verifiedBefore_consistent :
    ∃ db' page, (getStatistics ownReceipts 12).run (StatisticsOp.exec emptyFields.date)
        [[verifyFirst], [], [], [], [], []] oneReceipt = some (db', .ok page)
      ∧ page.verifiedReceiptCount = 1 ∧ page.Consistent := by
  obtain ⟨⟨db', r⟩, hrun, hpage⟩ := (Option.any_eq_true (fun out : Db × Except DbError _ =>
    out.2.toOption.any fun page => page.verifiedReceiptCount = 1) _).mp
      (show ((getStatistics ownReceipts 12).run (StatisticsOp.exec emptyFields.date)
        [[verifyFirst], [], [], [], [], []] oneReceipt).any _ = true by decide +kernel)
  cases r with
  | error e => exact absurd hpage (by simp [Except.toOption])
  | ok page =>
    refine ⟨db', page, hrun, of_decide_eq_true hpage, (consistent_iff hrun).mpr ?_⟩
    -- nothing is committed after the first query
    simp only [List.forall_mem_cons, List.not_mem_nil, false_implies, implies_true, and_true]
    exact ⟨fun _ => rfl, fun _ => rfl, fun _ => rfl, fun _ => rfl⟩

/-- **It is verified between the first query and the second one**: the
page counts no receipts, and one of the merchant. The user only has to
click while the page is loading. -/
theorem verifiedMeanwhile_inconsistent :
    ∃ db' page, (getStatistics ownReceipts 12).run (StatisticsOp.exec emptyFields.date)
        [[], [verifyFirst], [], [], [], []] oneReceipt = some (db', .ok page)
      ∧ ¬ page.Consistent := by
  obtain ⟨⟨db', r⟩, hrun, hpage⟩ := (Option.any_eq_true (fun out : Db × Except DbError _ =>
    out.2.toOption.any fun page => page.verifiedReceiptCount
      ≠ ((page.merchants.map NamedStatistics.toGroupFigures).map fun row => row.receiptCount).sum)
      _).mp (show ((getStatistics ownReceipts 12).run (StatisticsOp.exec emptyFields.date)
        [[], [verifyFirst], [], [], [], []] oneReceipt).any _ = true by decide +kernel)
  cases r with
  | error e => exact absurd hpage (by simp [Except.toOption])
  | ok page =>
    refine ⟨db', page, hrun, fun hconsistent => of_decide_eq_true hpage ?_⟩
    exact hconsistent.count _ List.mem_cons_self

end VerifiedMeanwhile

end VisionBill
