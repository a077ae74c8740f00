import VisionBill.Lib.Pages
import VisionBill.Lib.Sql
import VisionBill.CollectionDB

/-!
# Lists of receipts

The statement of `list_receipts` is assembled from the filters that are
given, with numbered parameters; the one of `receipts_in_collection` is a
join. Both sort by date alone, so receipts of one date come in any order,
and in another one when the statement is executed again.

## What is listed

Without a collection, what `list_receipts` lists are the receipts that
match the filters (`selectedReceipts_eq`), cut to a page
(`listsReceipts_ok_iff`). The filters are added one by one, and each takes
the next number for its argument; that the right argument ends up behind
each number, whichever filters there are, is a fact about the assembly
(`VisionBill.Lib.Sql`), and here remains what each filter means.

With a collection there is a filter more. Its condition on the links
refers to `receipts`, a table that the statement knows as `r` only. The
server resolves names before it executes anything, so there is no list at
all (`selectedReceipts_collection`), whatever is stored. The join is
resolved (`selectedInCollection_eq`), which is why the page of a
collection works.

## What the server does

The model of a statement has the steps in which it may fail: names are
resolved, arguments are sent, rows are selected. An argument cannot be
sent if it is a text with a null character or a number beyond `BIGINT`,
and then the driver raises before the server is asked. How the server
compares letters without case depends on its locale and is a parameter.
-/

namespace VisionBill

instance : LinearOrder Date where
  le_refl d := Date.le_iff.mpr (.inr ⟨rfl, .inr ⟨rfl, le_rfl⟩⟩)
  le_trans d e f hde hef := by
    rw [Date.le_iff] at *
    omega
  le_antisymm d e hde hed := by
    rw [Date.le_iff] at hde hed
    exact Date.ext (by omega) (by omega) (by omega)
  le_total d e := by
    rw [Date.le_iff, Date.le_iff]
    omega
  lt_iff_le_not_ge d e := by
    rw [Date.le_iff, Date.le_iff, Date.lt_iff]
    omega
  toDecidableLE := inferInstance
  toDecidableLT := inferInstance
  toDecidableEq := inferInstance

/-! ## Texts

`ILIKE` compares texts without regard to case, by lowering both. What
lowering does to a letter is in the locale of the database, and is a
parameter. -/

/-- How the server makes a text lower-case, which depends on its
locale. -/
class Lowercase where
  lower : List Char → List Char

/-- What the server does with ASCII letters. -/
@[reducible] def asciiLowercase : Lowercase where
  lower := List.map Char.toLower

/-- `LIKE`, by pattern and text: `%` stands for any text, `_` for any
character and what follows a backslash for itself. No pattern ends in a
backslash, since all of them end in `%`. -/
def like : List Char → List Char → Bool
  | [], t => t.isEmpty
  | '%' :: p, t => t.tails.any (like p)
  | '_' :: p, t => !t.isEmpty && like p t.tail
  | '\\' :: c :: p, t => t.head? == some c && like p t.tail
  | c :: p, t => t.head? == some c && like p t.tail

/-- `ILIKE`. -/
def ilike [Lowercase] (s pattern : String) : Bool :=
  like (Lowercase.lower pattern.toList) (Lowercase.lower s.toList)

/-- A status, as it is stored. -/
def ReceiptStatus.text : ReceiptStatus → String
  | unverified => "unverified"
  | verified => "verified"

/-! ## The tables

A condition names columns by their texts, so a row is a function of names
here. Arguments that the protocol cannot send are refused before the
statement runs. -/

/-- A value of a column that a list compares. Comparing a null is never
true, whatever it is compared with. -/
inductive SqlValue
  | null
  | uuid (id : UUID)
  | text (s : String)
  | date (d : Date)
  deriving DecidableEq

/-- An argument. The driver sends it in the type that the server has found
for its number. -/
inductive SqlArg
  | uuid (id : UUID)
  | text (s : String)
  | texts (l : List String)
  | date (d : Date)
  | int8 (n : ℕ)

/-- `=`, `= ANY`, `>=`, `<=` and `ILIKE`. These are what the conditions of
the lists are made of. -/
inductive SqlOperator
  | eq | eqAny | ge | le | ilike

/-- The largest `BIGINT`. -/
def int8Max : ℕ := 2 ^ 63 - 1

/-- A text that the server accepts. -/
def IsSendable (s : String) : Prop := Char.ofNat 0 ∉ s.toList

instance (s : String) : Decidable (IsSendable s) := inferInstanceAs (Decidable (¬ _))

/-- An argument that can be sent. -/
def SqlArg.IsSendable : SqlArg → Prop
  | text s => VisionBill.IsSendable s
  | texts l => ∀ s ∈ l, VisionBill.IsSendable s
  | int8 n => n ≤ int8Max
  | _ => True

instance : DecidablePred SqlArg.IsSendable := fun a => by
  cases a <;> unfold SqlArg.IsSendable <;> infer_instance

/-- A row of one of the tables. The two that a list may join are receipts
and links. -/
inductive StoredRow
  | receipt (r : ReceiptRecord)
  | link (l : Link)

/-- The receipt, if the row is one. -/
def StoredRow.receipt? : StoredRow → Option ReceiptRecord
  | receipt r => some r
  | link _ => none

/-- The value of a column, of those that are compared. A column that no
list compares has no value here. -/
def StoredRow.value : StoredRow → String → SqlValue
  | receipt r, "id" => .uuid r.id
  | receipt r, "user_id" => r.userId.elim .null .uuid
  | receipt r, "status" => .text r.status.text
  | receipt r, "date" => .date r.date
  | receipt r, "merchant_name" => .text r.merchantName
  | receipt r, "receipt_number" => r.receiptNumber.elim .null .text
  | link l, "receipt_id" => .uuid l.receiptId
  | link l, "collection_id" => .uuid l.collectionId
  | _, _ => .null

/-- The columns of the tables. A name without a table is looked up in all
that a statement lists, so what is not compared matters too. -/
def tableColumns : String → List String
  | "receipts" => ["id", "confidence", "merchant_name", "merchant_address", "receipt_number",
    "date", "time", "currency", "subtotal", "discount_total", "tax_total", "tip", "total",
    "payment_method", "status", "verified", "category", "created_at", "user_id", "image_id"]
  | "receipt_collections" => ["receipt_id", "collection_id"]
  | _ => []

/-- What the operators mean. A comparison with null is not true, and
neither is one of values of different types. -/
def SqlOperator.compare [Lowercase] : SqlOperator → SqlValue → SqlArg → Bool
  | eq, .uuid a, .uuid b => a = b
  | eqAny, .text s, .texts l => s ∈ l
  | ge, .date d, .date e => e ≤ d
  | le, .date d, .date e => d ≤ e
  | ilike, .text s, .text pattern => VisionBill.ilike s pattern
  | _, _, _ => false

/-- The tables, for statements. -/
def receiptSchema [Lowercase] : Sql.Schema StoredRow SqlValue SqlOperator SqlArg where
  columns := tableColumns
  value := StoredRow.value
  compare := SqlOperator.compare
  equal a b := a ≠ .null ∧ a = b

/-! ## The statements

The conditions of a list are collected one after another, each with the
number of its argument. So a mistake in a number or a name would be a
mistake here as well. -/

/-- The filters of `list_receipts`. Each may be left out, and those that
are given hold together. -/
structure ReceiptFilters where
  status : Option (List String) := none
  dateFrom : Option Date := none
  dateTo : Option Date := none
  search : Option String := none
  collectionId : Option UUID := none

/-- The user whose receipts are listed, if not those of all. -/
def Caller.owner? (caller : Caller) : Option UUID :=
  if caller.canSeeAll then none else some caller.userId

/-- A column that is not qualified. -/
def column (name : String) : Sql.Column := ⟨none, name⟩

/-- `user_id = $n`. -/
def ownerFilter (userId : UUID) : Sql.Filter SqlOperator SqlArg :=
  ⟨.compare .eq (column "user_id"), .uuid userId⟩

/-- `status = ANY($n)`. -/
def statusFilter (status : List String) : Sql.Filter SqlOperator SqlArg :=
  ⟨.compare .eqAny (column "status"), .texts status⟩

/-- `date >= $n`. -/
def dateFromFilter (date : Date) : Sql.Filter SqlOperator SqlArg :=
  ⟨.compare .ge (column "date"), .date date⟩

/-- `date <= $n`. -/
def dateToFilter (date : Date) : Sql.Filter SqlOperator SqlArg :=
  ⟨.compare .le (column "date"), .date date⟩

/-- `f"%{search}%"`: nothing is escaped, so what is looked for is itself a
pattern. -/
def searchPattern (search : String) : String := "%" ++ search ++ "%"

/-- `(merchant_name ILIKE $n OR receipt_number ILIKE $n)`. -/
def searchFilter (search : String) : Sql.Filter SqlOperator SqlArg :=
  ⟨fun n => .or (.compare .ilike (column "merchant_name") n)
    (.compare .ilike (column "receipt_number") n), .text (searchPattern search)⟩

/--
`EXISTS (SELECT 1 FROM receipt_collections rc WHERE rc.receipt_id = receipts.id AND rc.collection_id = $n)`.
The receipts are named by their table, though the statement around it has
given them an alias. -/
def collectionFilter (collectionId : UUID) : Sql.Filter SqlOperator SqlArg :=
  ⟨fun n => .any ⟨"receipt_collections", some "rc"⟩
    (.and (.equal ⟨some "rc", "receipt_id"⟩ ⟨some "receipts", "id"⟩)
      (.compare .eq ⟨some "rc", "collection_id"⟩ n)), .uuid collectionId⟩

/-- The conditions of `list_receipts`, and their arguments, in the order
of the source. -/
def listReceiptsWhere (caller : Caller) (f : ReceiptFilters) : Sql.Where SqlOperator SqlArg :=
  Sql.Where.empty
    |>.addFor caller.owner? ownerFilter
    |>.addFor (f.status.filter (· ≠ [])) statusFilter
    |>.addFor f.dateFrom dateFromFilter
    |>.addFor f.dateTo dateToFilter
    |>.addFor (f.search.filter (· ≠ "")) searchFilter
    |>.addFor f.collectionId collectionFilter

/-- `SELECT r.*, ... FROM receipts r WHERE ...`, without the thumbnail. -/
def listReceiptsQuery (w : Sql.Where SqlOperator SqlArg) : Sql.Query SqlOperator :=
  ⟨[⟨"receipts", some "r"⟩], "r", w.conditions⟩

/-- `rc.collection_id = $1`. -/
def linkedFilter (collectionId : UUID) : Sql.Filter SqlOperator SqlArg :=
  ⟨.compare .eq ⟨some "rc", "collection_id"⟩, .uuid collectionId⟩

/-- The conditions of `receipts_in_collection`, and their arguments. -/
def receiptsInCollectionWhere (caller : Caller) (collectionId : UUID) :
    Sql.Where SqlOperator SqlArg :=
  Sql.Where.empty.add (linkedFilter collectionId) |>.addFor caller.owner? ownerFilter

/-- `RECEIPTS_IN_COLLECTION_SQL` and the owner condition. -/
def receiptsInCollectionQuery (w : Sql.Where SqlOperator SqlArg) : Sql.Query SqlOperator :=
  ⟨[⟨"receipts", some "r"⟩, ⟨"receipt_collections", some "rc"⟩], "r",
    .equal ⟨some "rc", "receipt_id"⟩ ⟨some "r", "id"⟩ :: w.conditions⟩

namespace Db

variable [Lowercase]

/-- The rows of a table. -/
def storedRows (db : Db) : String → List StoredRow
  | "receipts" => db.receipts.rows.map .receipt
  | "receipt_collections" => db.links.rows.map .link
  | _ => []

/-- The receipts that a statement selects, in no particular order. The
server resolves the names before it asks for the arguments. -/
def selected (db : Db) (q : Sql.Query SqlOperator) (args : List SqlArg) :
    Except DbError (List ReceiptRecord) :=
  match q.check tableColumns with
  | .error .undefinedTable => .error .undefinedTable
  | .error _ => .error .failed
  | .ok () =>
    if ∀ a ∈ args, a.IsSendable then
      .ok ((q.rows receiptSchema db.storedRows args).filterMap StoredRow.receipt?)
    else .error .dataError

/-- What `list_receipts` selects; the limit and the offset are the last
arguments. -/
def selectedReceipts (db : Db) (caller : Caller) (f : ReceiptFilters) (limit offset : ℕ) :
    Except DbError (List ReceiptRecord) :=
  let w := listReceiptsWhere caller f
  db.selected (listReceiptsQuery w) (w.args ++ [.int8 limit, .int8 offset])

/-- What `list_receipts` may return. It is a relation, since the server is
free to choose the order within a date. -/
def ListsReceipts (db : Db) (caller : Caller) (f : ReceiptFilters) (limit offset : ℕ) :
    Except DbError (List ReceiptRecord) → Prop
  | .error e => db.selectedReceipts caller f limit offset = .error e
  | .ok l => ∃ rows sorted, db.selectedReceipts caller f limit offset = .ok rows
      ∧ Pages.Listing (fun r : ReceiptRecord => r.date) rows sorted ∧ l = Pages.page sorted limit offset

/-- What `receipts_in_collection` selects. -/
def selectedInCollection (db : Db) (caller : Caller) (collectionId : UUID) :
    Except DbError (List ReceiptRecord) :=
  let w := receiptsInCollectionWhere caller collectionId
  db.selected (receiptsInCollectionQuery w) w.args

/-- What `receipts_in_collection` may return. -/
def ListsCollection (db : Db) (caller : Caller) (collectionId : UUID) :
    Except DbError (List ReceiptRecord) → Prop
  | .error e => db.selectedInCollection caller collectionId = .error e
  | .ok l => ∃ rows, db.selectedInCollection caller collectionId = .ok rows
      ∧ Pages.Listing (fun r : ReceiptRecord => r.date) rows l

end Db

/-! ## What the filters mean

What each condition says of a receipt, without SQL. A filter that is not
given says nothing. -/

section Filters

variable [Lowercase]

/-- Whether the name or the number of a receipt has a text in it. -/
def ReceiptRecord.Contains (r : ReceiptRecord) (search : String) : Prop :=
  ilike r.merchantName (searchPattern search) = true
    ∨ ∃ n ∈ r.receiptNumber, ilike n (searchPattern search) = true

instance (r : ReceiptRecord) (search : String) : Decidable (r.Contains search) :=
  inferInstanceAs (Decidable (_ ∨ _))

/-- Whether a receipt matches the filters but that of the collection, for
a caller. An empty list of statuses and an empty text match everything. -/
def ReceiptFilters.Matches (f : ReceiptFilters) (caller : Caller) (r : ReceiptRecord) : Prop :=
  caller.Scope r.userId ∧ (∀ l ∈ f.status, l ≠ [] → r.status.text ∈ l)
    ∧ (∀ d ∈ f.dateFrom, d ≤ r.date) ∧ (∀ d ∈ f.dateTo, r.date ≤ d)
    ∧ ∀ s ∈ f.search, s ≠ "" → r.Contains s

instance (f : ReceiptFilters) (caller : Caller) : DecidablePred (f.Matches caller) := fun _ =>
  inferInstanceAs (Decidable (_ ∧ _ ∧ _ ∧ _ ∧ _))

/-- Filters whose texts can be sent. -/
def ReceiptFilters.IsSendable (f : ReceiptFilters) : Prop :=
  (∀ l ∈ f.status, ∀ s ∈ l, VisionBill.IsSendable s) ∧ ∀ s ∈ f.search, VisionBill.IsSendable s

instance : DecidablePred ReceiptFilters.IsSendable := fun _ => inferInstanceAs (Decidable (_ ∧ _))

variable {r : ReceiptRecord}

/-- A row of the receipts, by the alias of the table, and of other
tables. -/
def receiptClause {ρ : Type} (row : ρ) (others : Sql.Clause ρ) : List (Sql.Clause ρ) :=
  [(⟨"receipts", some "r"⟩, row) :: others]

omit [Lowercase] in
/-- A column that is not qualified, and that only the receipts have. It is
found whatever else is listed, so a filter means the same in either
statement. -/
theorem find_column {ρ : Type} {row : ρ} {others : Sql.Clause ρ} {name : String}
    (h : name ∈ tableColumns "receipts") (hothers : ∀ s ∈ others, name ∉ tableColumns s.1.table) :
    (column name).find tableColumns (receiptClause row others) = .ok row := by
  refine Sql.Column.find_cons_of_filter rfl ?_ (s := (⟨"receipts", some "r"⟩, row))
  rw [List.filter_cons_of_pos (by exact decide_eq_true h), List.filter_eq_nil_iff.mpr]
  exact fun s hs hmem => hothers s hs (of_decide_eq_true hmem)

/-- A comparison of such a column. -/
theorem eval_compare_column {op : SqlOperator} {name : String} {a : SqlArg}
    {tables : String → List StoredRow} {row : StoredRow} {others : Sql.Clause StoredRow}
    (h : name ∈ tableColumns "receipts") (hothers : ∀ s ∈ others, name ∉ tableColumns s.1.table) :
    (Sql.Condition.compare op (column name) 1).eval receiptSchema tables [a]
      (receiptClause row others) = op.compare (row.value name) a := by
  unfold Sql.Condition.eval
  rw [show receiptSchema.columns = tableColumns from rfl, find_column h hothers]
  rfl

variable {tables : String → List StoredRow}

theorem holds_ownerFilter {others : Sql.Clause StoredRow}
    (hothers : ∀ s ∈ others, "user_id" ∉ tableColumns s.1.table) (userId : UUID) :
    (ownerFilter userId).holds receiptSchema tables (receiptClause (.receipt r) others) = true
      ↔ r.userId = some userId := by
  unfold Sql.Filter.holds ownerFilter
  rw [eval_compare_column (by decide) hothers]
  show SqlOperator.eq.compare (r.userId.elim .null .uuid) (.uuid userId) = true ↔ _
  cases r.userId with
  | none => exact iff_of_false Bool.false_ne_true (Option.some_ne_none userId).symm
  | some u => exact decide_eq_true_iff.trans Option.some_inj.symm

theorem holds_statusFilter (status : List String) :
    (statusFilter status).holds receiptSchema tables (receiptClause (.receipt r) []) = true
      ↔ r.status.text ∈ status := by
  unfold Sql.Filter.holds statusFilter
  rw [eval_compare_column (by decide) (by simp)]
  exact decide_eq_true_iff

theorem holds_dateFromFilter (date : Date) :
    (dateFromFilter date).holds receiptSchema tables (receiptClause (.receipt r) []) = true
      ↔ date ≤ r.date := by
  unfold Sql.Filter.holds dateFromFilter
  rw [eval_compare_column (by decide) (by simp)]
  exact decide_eq_true_iff

theorem holds_dateToFilter (date : Date) :
    (dateToFilter date).holds receiptSchema tables (receiptClause (.receipt r) []) = true
      ↔ r.date ≤ date := by
  unfold Sql.Filter.holds dateToFilter
  rw [eval_compare_column (by decide) (by simp)]
  exact decide_eq_true_iff

theorem holds_searchFilter (search : String) :
    (searchFilter search).holds receiptSchema tables (receiptClause (.receipt r) []) = true
      ↔ r.Contains search := by
  have hor : ∀ p q : Sql.Condition SqlOperator, ∀ args clauses,
      (p.or q).eval receiptSchema tables args clauses
        = (p.eval receiptSchema tables args clauses || q.eval receiptSchema tables args clauses) :=
    fun _ _ _ _ => rfl
  unfold Sql.Filter.holds searchFilter
  rw [hor, eval_compare_column (by decide) (by simp), eval_compare_column (by decide) (by simp),
    Bool.or_eq_true]
  refine or_congr Iff.rfl ?_
  show SqlOperator.ilike.compare (r.receiptNumber.elim .null .text) _ = true ↔ _
  cases r.receiptNumber with
  | none => exact iff_of_false Bool.false_ne_true fun ⟨n, hn, _⟩ => Option.not_mem_none n hn
  | some n => exact ⟨fun h => ⟨n, rfl, h⟩, fun ⟨n', hn', h⟩ => Option.some_inj.mp hn' ▸ h⟩

/-! ## The list

A statement that runs finds the receipts that match, sorts them by date,
and cuts out a page. Within a date the order is not determined, so the
answer is a relation. -/

/-- The filters that are given, but that of the collection. An empty list
of statuses and an empty search count as none, as the source tests them
for truth. -/
def ReceiptFilters.given (f : ReceiptFilters) (caller : Caller) :
    List (Sql.Filter SqlOperator SqlArg) :=
  (caller.owner?.map ownerFilter).toList
    ++ ((f.status.filter (· ≠ [])).map statusFilter).toList
    ++ (f.dateFrom.map dateFromFilter).toList
    ++ (f.dateTo.map dateToFilter).toList
    ++ ((f.search.filter (· ≠ "")).map searchFilter).toList

variable {f : ReceiptFilters} {caller : Caller} {db : Db} {limit offset : ℕ}

omit [Lowercase] in
theorem listReceiptsWhere_eq (hcollection : f.collectionId = none) :
    listReceiptsWhere caller f = Sql.Where.filters (f.given caller) := by
  unfold listReceiptsWhere ReceiptFilters.given
  rw [hcollection, show (Sql.Where.empty : Sql.Where SqlOperator SqlArg) = Sql.Where.filters []
    from rfl]
  simp only [Sql.Where.addFor_filters, List.nil_append, Option.map_none, Option.toList_none,
    List.append_nil]

omit [Lowercase] in
theorem listReceiptsWhere_collection {collectionId : UUID}
    (hcollection : f.collectionId = some collectionId) :
    listReceiptsWhere caller f
      = Sql.Where.filters (f.given caller ++ [collectionFilter collectionId]) := by
  unfold listReceiptsWhere ReceiptFilters.given
  rw [hcollection, show (Sql.Where.empty : Sql.Where SqlOperator SqlArg) = Sql.Where.filters []
    from rfl]
  simp only [Sql.Where.addFor_filters, List.nil_append, Option.map_some, Option.toList_some]

omit [Lowercase] in
/-- The given filters, one by one. Empty lists and empty texts are no
filters, as the source tests them for truth. -/
theorem forall_given {P : Sql.Filter SqlOperator SqlArg → Prop} :
    (∀ filter ∈ f.given caller, P filter) ↔
      (∀ u ∈ caller.owner?, P (ownerFilter u))
        ∧ (∀ l ∈ f.status, l ≠ [] → P (statusFilter l))
        ∧ (∀ d ∈ f.dateFrom, P (dateFromFilter d)) ∧ (∀ d ∈ f.dateTo, P (dateToFilter d))
        ∧ ∀ s ∈ f.search, s ≠ "" → P (searchFilter s) := by
  have hgiven : ∀ {γ : Type} (a : Option γ) (g : γ → Sql.Filter SqlOperator SqlArg),
      (∀ filter ∈ (a.map g).toList, P filter) ↔ ∀ c ∈ a, P (g c) := by
    intro γ a g
    cases a <;> simp
  unfold ReceiptFilters.given
  simp only [List.forall_mem_append, and_assoc, hgiven, Option.mem_filter_iff, and_imp,
    decide_eq_true_eq]

omit [Lowercase] in
/-- Their conditions are numbered. -/
theorem numbered_given : ∀ filter ∈ f.given caller, Sql.Numbered filter.condition :=
  forall_given.mpr ⟨fun _ _ => .compare _ _, fun _ _ _ => .compare _ _, fun _ _ => .compare _ _,
    fun _ _ => .compare _ _, fun _ _ _ => .or (.compare _ _) (.compare _ _)⟩

/-- All of them hold of the receipts that match, and only of those. -/
theorem all_given :
    (f.given caller).all (Sql.Filter.holds receiptSchema tables (receiptClause (.receipt r) []))
      = decide (f.Matches caller r) := by
  rw [Bool.eq_iff_iff, List.all_eq_true, forall_given, decide_eq_true_iff]
  simp only [holds_statusFilter, holds_dateFromFilter, holds_dateToFilter, holds_searchFilter,
    holds_ownerFilter (fun s hs => absurd hs List.not_mem_nil)]
  refine and_congr ?_ Iff.rfl
  unfold Caller.owner? Caller.Scope
  cases caller.canSeeAll <;> simp

omit [Lowercase] in
/-- Their names are resolved. -/
theorem check_given : ∀ filter ∈ f.given caller, ∀ n,
    (filter.condition n).check tableColumns (receiptClause () []) = .ok () := by
  have hcolumn : ∀ {name}, name ∈ tableColumns "receipts" →
      (column name).find tableColumns (receiptClause () []) = .ok () := fun h =>
    find_column h fun s hs => absurd hs List.not_mem_nil
  refine forall_given.mpr ⟨fun _ _ _ => hcolumn (by decide), fun _ _ _ _ => hcolumn (by decide),
    fun _ _ _ => hcolumn (by decide), fun _ _ _ => hcolumn (by decide), fun s _ _ n => ?_⟩
  show ((column "merchant_name").find tableColumns (receiptClause () []) >>= fun _ =>
    (column "receipt_number").find tableColumns (receiptClause () [])) = .ok ()
  rw [hcolumn (by decide), hcolumn (by decide)]
  rfl

omit [Lowercase] in
/-- A pattern can be sent if its text can. -/
theorem isSendable_searchPattern {s : String} : IsSendable (searchPattern s) ↔ IsSendable s := by
  unfold IsSendable searchPattern
  rw [String.toList_append, String.toList_append]
  simp

omit [Lowercase] in
/-- Their arguments can be sent if the texts can. The other arguments are
dates and identifiers, which can always be sent. -/
theorem isSendable_given :
    (∀ filter ∈ f.given caller, filter.arg.IsSendable) ↔ f.IsSendable := by
  rw [forall_given]
  unfold ReceiptFilters.IsSendable
  constructor
  · rintro ⟨-, hstatus, -, -, hsearch⟩
    refine ⟨fun l hl s hs => hstatus l hl (List.ne_nil_of_mem hs) s hs, fun s hs => ?_⟩
    by_cases hempty : s = ""
    · rw [hempty]
      exact List.not_mem_nil
    · exact isSendable_searchPattern.mp (hsearch s hs hempty)
  · rintro ⟨hstatus, hsearch⟩
    exact ⟨fun _ _ => trivial, fun l hl _ => hstatus l hl, fun _ _ => trivial, fun _ _ => trivial,
      fun s hs _ => isSendable_searchPattern.mpr (hsearch s hs)⟩

/-- What `list_receipts` can be asked for: no text has a NUL character,
and both numbers are in the range of a `BIGINT`. -/
def ReceiptFilters.IsAccepted (f : ReceiptFilters) (limit offset : ℕ) : Prop :=
  f.IsSendable ∧ limit ≤ int8Max ∧ offset ≤ int8Max

instance : Decidable (f.IsAccepted limit offset) := inferInstanceAs (Decidable (_ ∧ _ ∧ _))

/-- The receipts that match the filters. It is what the conditions of the
statement mean together, said of a row and not of a text. -/
def Db.matching (db : Db) (caller : Caller) (f : ReceiptFilters) : List ReceiptRecord :=
  db.receipts.rows.filter (f.Matches caller)

omit [Lowercase] in
theorem storedRows_receipts : db.storedRows "receipts" = db.receipts.rows.map .receipt := rfl

/-- **Without a collection**, the statement selects the receipts that
match the filters, if its arguments can be sent; otherwise the driver
raises. Its text has a condition for each filter that is set, and their
conjunction is `matching`. -/
theorem selectedReceipts_eq (hcollection : f.collectionId = none) :
    db.selectedReceipts caller f limit offset
      = if f.IsAccepted limit offset then .ok (db.matching caller f) else .error .dataError := by
  have hcheck : (listReceiptsQuery (listReceiptsWhere caller f)).check tableColumns = .ok () := by
    refine Sql.Query.check_eq_ok (List.mem_singleton.mpr rfl) ?_
    rw [listReceiptsWhere_eq hcollection]
    exact Sql.Where.forall_filters check_given
  have hargs : (∀ a ∈ (listReceiptsWhere caller f).args ++ [.int8 limit, .int8 offset],
      a.IsSendable) ↔ f.IsAccepted limit offset := by
    rw [listReceiptsWhere_eq hcollection, Sql.Where.args_filters, List.forall_mem_append,
      List.forall_mem_map, isSendable_given, List.forall_mem_cons, List.forall_mem_singleton]
    rfl
  have hrows : ((listReceiptsQuery (listReceiptsWhere caller f)).rows receiptSchema db.storedRows
      ((listReceiptsWhere caller f).args ++ [.int8 limit, .int8 offset])).filterMap
        StoredRow.receipt? = db.matching caller f := by
    rw [Sql.Query.rows_singleton receiptSchema ⟨"receipts", some "r"⟩ rfl rfl,
      storedRows_receipts, List.filter_map, List.filterMap_map, listReceiptsWhere_eq hcollection]
    refine List.filterMap_some.trans (List.filter_congr fun r _ => ?_)
    exact (Sql.Where.eval_filters receiptSchema numbered_given _).trans all_given
  unfold Db.selectedReceipts Db.selected
  dsimp only
  rw [hcheck]
  dsimp only
  rw [hrows]
  exact if_congr hargs rfl rfl

/-- What `list_receipts` returns without a collection: a page of the
receipts that match, by descending date. -/
theorem listsReceipts_ok_iff (hcollection : f.collectionId = none) {l : List ReceiptRecord} :
    db.ListsReceipts caller f limit offset (.ok l)
      ↔ f.IsAccepted limit offset
        ∧ ∃ sorted, Pages.Listing (fun r : ReceiptRecord => r.date) (db.matching caller f) sorted
          ∧ l = Pages.page sorted limit offset := by
  show (∃ rows sorted, db.selectedReceipts caller f limit offset = .ok rows ∧ _) ↔ _
  rw [selectedReceipts_eq hcollection]
  constructor
  · rintro ⟨rows, sorted, hrows, hsorted, hl⟩
    split at hrows
    · next h =>
      rw [← Except.ok.inj hrows] at hsorted
      exact ⟨h, sorted, hsorted, hl⟩
    · exact absurd hrows (by simp)
  · rintro ⟨h, sorted, hsorted, hl⟩
    rw [if_pos h]
    exact ⟨_, sorted, rfl, hsorted, hl⟩

/-- It raises what the driver raises for arguments that it cannot send. -/
theorem listsReceipts_error_iff (hcollection : f.collectionId = none) {e : DbError} :
    db.ListsReceipts caller f limit offset (.error e)
      ↔ ¬ f.IsAccepted limit offset ∧ e = .dataError := by
  show db.selectedReceipts caller f limit offset = .error e ↔ _
  rw [selectedReceipts_eq hcollection]
  split
  · next h => exact iff_of_false (by simp) fun h' => h'.1 h
  · next h => exact ⟨fun heq => ⟨h, (Except.error.inj heq).symm⟩, fun h' => congrArg _ h'.2.symm⟩

/-- **With a collection**, the statement refers to a table that it does
not know, and is refused for every caller, every other filter and
everything that is stored. -/
theorem selectedReceipts_collection {collectionId : UUID}
    (hcollection : f.collectionId = some collectionId) :
    db.selectedReceipts caller f limit offset = .error .undefinedTable := by
  have hlink : ∀ n, ((collectionFilter collectionId).condition n).check tableColumns
      (receiptClause () []) = .error .undefinedTable := by
    intro n
    have hrc : Sql.Column.find tableColumns ⟨some "rc", "receipt_id"⟩
        ([((⟨"receipt_collections", some "rc"⟩ : Sql.Source), ())] :: receiptClause () [])
          = .ok () :=
      Sql.Column.find_cons_of_find? rfl rfl (by decide)
    have hreceipts : Sql.Column.find tableColumns ⟨some "receipts", "id"⟩
        ([((⟨"receipt_collections", some "rc"⟩ : Sql.Source), ())] :: receiptClause () [])
          = .error .undefinedTable :=
      Sql.Column.find_undefinedTable rfl (by decide)
    show ((Sql.Column.find tableColumns _ _ >>= fun _ => Sql.Column.find tableColumns _ _)
      >>= fun _ => _) = _
    rw [hrc, bind_of_ok rfl, hreceipts]
    rfl
  have hcheck : (listReceiptsQuery (listReceiptsWhere caller f)).check tableColumns
      = .error .undefinedTable := by
    rw [listReceiptsWhere_collection hcollection, ← Sql.Where.add_filters]
    exact Sql.Query.check_eq_error rfl (List.mem_singleton.mpr rfl)
      (Sql.Where.forall_filters check_given) (hlink _)
  unfold Db.selectedReceipts Db.selected
  dsimp only
  rw [hcheck]

/-! ## The receipts of a collection

This list is made by another function, which joins the links and prefixes
its columns. It finds what it should, as all names are qualified. -/

/-- The receipts of a collection that a caller may see. -/
def Db.members (db : Db) (caller : Caller) (collectionId : UUID) : List ReceiptRecord :=
  db.receipts.rows.filter fun r =>
    ⟨r.id, collectionId⟩ ∈ db.links.rows ∧ caller.Scope r.userId

/-- A row of the link table, by its alias. -/
def linkOf {ρ : Type} (row : ρ) : Sql.Clause ρ := [(⟨"receipt_collections", some "rc"⟩, row)]

omit [Lowercase] in
theorem userId_notMem_linkOf {ρ : Type} {row : ρ} :
    ∀ s ∈ linkOf row, "user_id" ∉ tableColumns s.1.table := by
  rintro s hs
  rw [List.mem_singleton.mp hs]
  show "user_id" ∉ tableColumns "receipt_collections"
  decide

omit [Lowercase] in
/-- The columns of the join that are qualified. -/
theorem find_qualified {ρ : Type} {row row' : ρ} :
    Sql.Column.find tableColumns ⟨some "r", "id"⟩ (receiptClause row (linkOf row')) = .ok row
      ∧ ∀ name ∈ tableColumns "receipt_collections",
          Sql.Column.find tableColumns ⟨some "rc", name⟩ (receiptClause row (linkOf row'))
            = .ok row' := by
  constructor
  · refine Sql.Column.find_cons_of_find? (s := (⟨"receipts", some "r"⟩, row)) rfl rfl ?_
    show "id" ∈ tableColumns "receipts"
    decide
  · intro name h
    exact Sql.Column.find_cons_of_find? (s := (⟨"receipt_collections", some "rc"⟩, row')) rfl rfl h

/-- The filters of `receipts_in_collection`. -/
def linkFilters (caller : Caller) (collectionId : UUID) : List (Sql.Filter SqlOperator SqlArg) :=
  linkedFilter collectionId :: (caller.owner?.map ownerFilter).toList

omit [Lowercase] in
theorem receiptsInCollectionWhere_eq (caller : Caller) (collectionId : UUID) :
    receiptsInCollectionWhere caller collectionId
      = Sql.Where.filters (linkFilters caller collectionId) := by
  unfold receiptsInCollectionWhere linkFilters
  rw [show (Sql.Where.empty : Sql.Where SqlOperator SqlArg) = Sql.Where.filters [] from rfl,
    Sql.Where.add_filters, Sql.Where.addFor_filters]
  rfl

omit [Lowercase] in
theorem forall_linkFilters {P : Sql.Filter SqlOperator SqlArg → Prop} {collectionId : UUID} :
    (∀ filter ∈ linkFilters caller collectionId, P filter)
      ↔ P (linkedFilter collectionId) ∧ ∀ u ∈ caller.owner?, P (ownerFilter u) := by
  unfold linkFilters
  rw [List.forall_mem_cons]
  cases caller.owner? <;> simp

omit [Lowercase] in
/-- A caller is the owner, if only the owner's receipts are listed. -/
theorem forall_owner?_iff : (∀ u ∈ caller.owner?, r.userId = some u) ↔ caller.Scope r.userId := by
  unfold Caller.owner? Caller.Scope
  cases caller.canSeeAll <;> simp

omit [Lowercase] in
theorem numbered_linkFilters {collectionId : UUID} :
    ∀ filter ∈ linkFilters caller collectionId, Sql.Numbered filter.condition :=
  forall_linkFilters.mpr ⟨.compare _ _, fun _ _ => .compare _ _⟩

/-- The condition of the join: the link is one of the receipt. -/
theorem eval_equal {args : List SqlArg} {link : Link} :
    (Sql.Condition.equal ⟨some "rc", "receipt_id"⟩ ⟨some "r", "id"⟩).eval receiptSchema tables args
        (receiptClause (.receipt r) (linkOf (.link link)))
      = decide (link.receiptId = r.id) := by
  unfold Sql.Condition.eval
  rw [show (receiptSchema.columns : String → List String) = tableColumns from rfl,
    find_qualified.2 _ (by decide), find_qualified.1]
  show decide (SqlValue.uuid link.receiptId ≠ .null
    ∧ SqlValue.uuid link.receiptId = .uuid r.id) = _
  simp

/-- The filters hold of the links of the collection. The names in their
conditions are qualified here, so that each is found in one table. -/
theorem all_linkFilters {collectionId : UUID} {link : Link} :
    (linkFilters caller collectionId).all
        (Sql.Filter.holds receiptSchema tables (receiptClause (.receipt r) (linkOf (.link link))))
      = decide (link.collectionId = collectionId ∧ caller.Scope r.userId) := by
  have hlinked : (linkedFilter collectionId).holds receiptSchema tables
      (receiptClause (.receipt r) (linkOf (.link link))) = true
        ↔ link.collectionId = collectionId := by
    unfold Sql.Filter.holds linkedFilter Sql.Condition.eval
    rw [show (receiptSchema.columns : String → List String) = tableColumns from rfl,
      find_qualified.2 _ (by decide)]
    exact decide_eq_true_iff
  rw [Bool.eq_iff_iff, List.all_eq_true, forall_linkFilters, decide_eq_true_iff, hlinked]
  simp only [holds_ownerFilter userId_notMem_linkOf, forall_owner?_iff]

omit [Lowercase] in
/-- The join selects a receipt with the link of it to the collection.
There is at most one, by the primary key of the links, so no receipt is
listed twice. -/
theorem join_links (db : Db) (caller : Caller) (collectionId : UUID) (r : ReceiptRecord) :
    ((db.links.rows.filter fun l => decide (l.receiptId = r.id)
        && decide (l.collectionId = collectionId ∧ caller.Scope r.userId)).map fun _ => r)
      = if ⟨r.id, collectionId⟩ ∈ db.links.rows ∧ caller.Scope r.userId then [r] else [] := by
  have hnodup : db.links.rows.Nodup := by
    simpa using db.links.nodup
  by_cases hscope : caller.Scope r.userId
  · have hlink : (db.links.rows.filter fun l => decide (l.receiptId = r.id)
        && decide (l.collectionId = collectionId ∧ caller.Scope r.userId))
          = db.links.rows.filter (· == ⟨r.id, collectionId⟩) := by
      refine List.filter_congr fun l _ => ?_
      rw [Bool.eq_iff_iff, Bool.and_eq_true, decide_eq_true_iff, decide_eq_true_iff, beq_iff_eq]
      constructor
      · rintro ⟨hreceipt, hcollection, -⟩
        cases l
        cases hreceipt
        cases hcollection
        rfl
      · rintro rfl
        exact ⟨rfl, rfl, hscope⟩
    rw [hlink, List.filter_beq, hnodup.count]
    split
    · next h => rw [if_pos ⟨h, hscope⟩]; rfl
    · next h => rw [if_neg fun h' => h h'.1]; rfl
  · rw [if_neg fun h => hscope h.2, List.map_eq_nil_iff, List.filter_eq_nil_iff]
    intro l _ h
    exact hscope (of_decide_eq_true ((Bool.and_eq_true _ _).mp h).2).2

omit [Lowercase] in
theorem flatMap_ite {α : Type} (p : α → Prop) [DecidablePred p] (l : List α) :
    (l.flatMap fun a => if p a then [a] else []) = l.filter p := by
  induction l with
  | nil => rfl
  | cons a l ih =>
    rw [List.flatMap_cons, ih, List.filter_cons]
    by_cases h : p a <;> simp [h]

/-- **The join** selects the receipts that have a link to the collection,
of those that the caller may see. -/
theorem selectedInCollection_eq (db : Db) (caller : Caller) (collectionId : UUID) :
    db.selectedInCollection caller collectionId = .ok (db.members caller collectionId) := by
  -- names are resolved, arguments are sent, rows are selected
  have hcheck : (receiptsInCollectionQuery (receiptsInCollectionWhere caller collectionId)).check
      tableColumns = .ok () := by
    refine Sql.Query.check_eq_ok (List.mem_cons_self) ?_
    rw [receiptsInCollectionWhere_eq]
    have hequal : (Sql.Condition.equal ⟨some "rc", "receipt_id"⟩ ⟨some "r", "id"⟩ :
        Sql.Condition SqlOperator).check tableColumns (receiptClause () (linkOf ())) = .ok () := by
      show (Sql.Column.find tableColumns _ _ >>= fun _ => Sql.Column.find tableColumns _ _) = _
      rw [find_qualified.2 _ (by decide), bind_of_ok rfl, find_qualified.1]
    refine List.forall_mem_cons.mpr ⟨hequal, Sql.Where.forall_filters (forall_linkFilters.mpr
      ⟨fun _ => find_qualified.2 _ (by decide), fun _ _ _ => ?_⟩)⟩
    exact find_column (by decide) userId_notMem_linkOf
  have hargs : ∀ a ∈ (receiptsInCollectionWhere caller collectionId).args, a.IsSendable := by
    rw [receiptsInCollectionWhere_eq, Sql.Where.args_filters, List.forall_mem_map]
    exact forall_linkFilters.mpr ⟨trivial, fun _ _ => trivial⟩
  have hrows : ((receiptsInCollectionQuery (receiptsInCollectionWhere caller collectionId)).rows
      receiptSchema db.storedRows (receiptsInCollectionWhere caller collectionId).args).filterMap
        StoredRow.receipt? = db.members caller collectionId := by
    rw [Sql.Query.rows_pair receiptSchema ⟨"receipts", some "r"⟩
      ⟨"receipt_collections", some "rc"⟩ rfl rfl, storedRows_receipts,
      show db.storedRows "receipt_collections" = db.links.rows.map .link from rfl]
    simp only [List.flatMap_map, List.filter_map, List.filterMap_flatMap, List.map_map,
      List.filterMap_map]
    unfold Db.members
    rw [← flatMap_ite]
    refine List.flatMap_congr fun r _ => ?_
    rw [← join_links, show (StoredRow.receipt? ∘ (fun _ => StoredRow.receipt r) ∘ StoredRow.link)
      = some ∘ fun _ => r from rfl, List.filterMap_eq_map]
    refine congrArg _ (List.filter_congr fun l _ => ?_)
    rw [receiptsInCollectionWhere_eq]
    have hfilters : ((Sql.Where.filters (linkFilters caller collectionId)).conditions.all fun p =>
        p.eval receiptSchema db.storedRows
          ((Sql.Where.filters (linkFilters caller collectionId)).args ++ [])
          (receiptClause (.receipt r) (linkOf (.link l))))
            = decide (l.collectionId = collectionId ∧ caller.Scope r.userId) :=
      (Sql.Where.eval_filters receiptSchema numbered_linkFilters []).trans all_linkFilters
    rw [List.append_nil] at hfilters
    exact congrArg₂ (· && ·) eval_equal hfilters
  unfold Db.selectedInCollection Db.selected
  dsimp only
  rw [hcheck]
  dsimp only
  rw [hrows, if_pos hargs]

end Filters

end VisionBill
