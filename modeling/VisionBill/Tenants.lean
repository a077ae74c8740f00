import VisionBill.ImageDB
import VisionBill.ItemStatistics
import VisionBill.ProductSearch
import VisionBill.Queries
import VisionBill.Statistics

/-!
# What a user is told

`Db.view` is what belongs to one user: the receipts with their line items
and taxes, the images and the collections, and of the links those whose
receipt and collection both do. Each query has an owner condition of its
own, and what it joins has none. So a query answers from what belongs to
the user if the rows that are joined belong together (`Db.Isolated`): if
no link leads from what is the user's to what is not, or back, and the
images of the user's receipts are the user's.

## The order of rows

A table has no order, and not every query asks for one:
`LIST_COLLECTION_IDS_FOR_RECEIPT_SQL` returns the collections of a receipt
as they lie, `ITEM_STATISTICS_SQL` its groups as they come, and where two
rows are equal in what a query sorts by, either may come first. The
definitions of this file read the rows in the order in which the model has
them. What the program *may* be answered is what they give for the same
rows in any order (`Db.MayAnswer`), and for `get_statistics` each of its
six statements may find them in another one (`Db.GetsStatistics`).

Two databases agree on a user if the same rows belong to the user in both,
in whatever order (`Db.SameView`); then the user may be told the same in
both (`sameAnswers_of_sameView`). The proof compares them in the order of
one of them, which exists because the rows of a user can be reordered
without touching those of others (`exists_sameRows_view`).
-/

namespace VisionBill

/-! ## More queries -/

/-- The status of an image, as it is stored. The list of images is
filtered by these texts. -/
def ImageStatus.text : ImageStatus → String
  | pending => "pending"
  | processing => "processing"
  | analyzed => "analyzed"
  | failed => "failed"
  | timedOut => "timed_out"
  | unreadable => "unreadable"

/-- A receipt as `list_receipts` and `get_receipt_with_details` return it,
with the thumbnail of its photo. -/
structure ListedReceipt extends ReceiptRecord where
  thumbnailPath : Option String

/-- `CurrencyTotal`. Amounts of different currencies are not added. -/
structure CurrencyTotal where
  currency : String
  total : ℚ
  deriving DecidableEq

/-- `CollectionSummary`. The count and the totals are computed when it is
read, and nothing of them is stored. -/
structure CollectionSummary extends CollectionRecord where
  receiptCount : ℕ
  totals : List CurrencyTotal

/-- `CollectionDetail`. It lists the receipts, where the summary counts
them. -/
structure CollectionDetail extends CollectionRecord where
  totals : List CurrencyTotal
  receipts : List ReceiptRecord

namespace Db

/-- `LEFT JOIN images i ON i.id = r.image_id`, for the thumbnail. -/
def withThumbnail (db : Db) (r : ReceiptRecord) : ListedReceipt where
  toReceiptRecord := r
  thumbnailPath := (r.imageId.bind db.images.get?).bind ImageRecord.thumbnailPath

/-- What `list_receipts` may return, with the thumbnails. -/
def ListsWithThumbnails [Lowercase] (db : Db) (caller : Caller) (f : ReceiptFilters)
    (limit offset : ℕ) (answer : Except DbError (List ListedReceipt)) : Prop :=
  ∃ rows, db.ListsReceipts caller f limit offset rows
    ∧ answer = rows.map (List.map db.withThumbnail)

/-- `get_receipt_with_details`, with the thumbnail. -/
def detailWithThumbnail (db : Db) (caller : Caller) (receiptId : UUID) :
    Option (ReceiptWithDetails × Option String) :=
  (db.getReceiptWithDetails caller receiptId).map fun detail =>
    (detail, (db.withThumbnail detail.receipt).thumbnailPath)

/-- `list_images`. The newest are first, and the identifier decides
between images of the same time. -/
def listImages (db : Db) (caller : Caller) (status : Option (List String)) (limit offset : ℕ) :
    Except DbError (List ImageRecord) :=
  let rows := db.images.rows.filter fun i =>
    caller.Scope i.userId ∧ ∀ l ∈ status, l ≠ [] → i.status.text ∈ l
  let sorted := orderBy
    (fun a b => b.createdAt < a.createdAt ∨ (a.createdAt = b.createdAt ∧ b.id ≤ a.id)) rows
  if (∀ l ∈ status, ∀ s ∈ l, IsSendable s) ∧ limit ≤ int8Max ∧ offset ≤ int8Max then
    .ok (Pages.page sorted limit offset)
  else .error .dataError

/-- `receipt_collections rc JOIN receipts r ON r.id = rc.receipt_id`, for
one collection. Nothing is asked of the owner. -/
def linkedReceipts (db : Db) (collectionId : UUID) : List ReceiptRecord :=
  (db.links.rows.filter fun l => l.collectionId = collectionId).filterMap fun l =>
    db.receipts.get? l.receiptId

/-- What `TOTALS_PER_CURRENCY_SQL` may return. -/
def TotalsPerCurrency (db : Db) (collectionId : UUID) (totals : List CurrencyTotal) : Prop :=
  Pages.Listing CurrencyTotal.total
    ((Tally.groupSum (fun r : ReceiptRecord => r.currency) (fun r => r.total)
      (db.linkedReceipts collectionId)).map fun group => ⟨group.1, group.2⟩) totals

/-- The subquery of `LIST_COLLECTIONS_BASE_SQL`. -/
def receiptCount (db : Db) (collectionId : UUID) : ℕ :=
  db.links.rows.countP fun l => l.collectionId = collectionId

/-- The collections that a caller is told of. -/
def collectionsFor (db : Db) (caller : Caller) : List CollectionRecord :=
  db.collections.rows.filter fun c => caller.Scope (some c.userId)

/-- A collection with its count and its totals, which are only asked for
if there is a receipt. -/
def Summarizes (db : Db) (c : CollectionRecord) (summary : CollectionSummary) : Prop :=
  summary.toCollectionRecord = c ∧ summary.receiptCount = db.receiptCount c.id
    ∧ if 0 < db.receiptCount c.id then db.TotalsPerCurrency c.id summary.totals
      else summary.totals = []

/-- What `list_with_totals` may return. Equal names may come in any order,
and a count that is too large for its column fails the whole list. The
totals of each collection come from a statement of its own, which is why
rows are described one by one. -/
def ListsWithTotals [Aggregation] (db : Db) (caller : Caller) :
    Except DbError (List CollectionSummary) → Prop
  | .error e => (∃ c ∈ db.collectionsFor caller, maxCount < db.receiptCount c.id) ∧ e = .dataError
  | .ok l => (∀ c ∈ db.collectionsFor caller, db.receiptCount c.id ≤ maxCount)
      ∧ ∃ sorted : List CollectionRecord, sorted.Perm (db.collectionsFor caller)
        ∧ sorted.Pairwise (fun a b => Aggregation.collate a.name b.name = true)
        ∧ List.Forall₂ db.Summarizes sorted l

/-- What `get_detail` may return. The scope of the caller is checked for
the collection and again for each receipt, but not for the totals. A
collection that is not the caller's is answered like one that does not
exist. -/
def GetsDetail [Lowercase] (db : Db) (caller : Caller) (collectionId : UUID) :
    Except DbError (Option CollectionDetail) → Prop
  | .error e => (db.collectionFor? caller collectionId).isSome
      ∧ db.ListsCollection caller collectionId (.error e)
  | .ok none => db.collectionFor? caller collectionId = none
  | .ok (some detail) => db.collectionFor? caller collectionId = some detail.toCollectionRecord
      ∧ db.TotalsPerCurrency collectionId detail.totals
      ∧ db.ListsCollection caller collectionId (.ok detail.receipts)

end Db

/-! ## What belongs to a user

The view of a user is the database without what belongs to others. Two
states are the same for the user if the views are, in whatever order the
rows lie. -/

namespace Db

/-- Whether the receipt with an id is a user's. -/
def ownsReceipt (db : Db) (userId receiptId : UUID) : Bool :=
  (db.receipts.get? receiptId).any fun r => r.userId = some userId

/-- Whether the collection with an id is a user's. -/
def ownsCollection (db : Db) (userId collectionId : UUID) : Bool :=
  (db.collections.get? collectionId).any fun c => c.userId = userId

/-- **What belongs to a user**, and the tags, which belong to nobody. Rows
keep their order, which decides between equal sort keys. -/
def view (db : Db) (userId : UUID) : Db where
  receipts := db.receipts.filter fun r => r.userId = some userId
  lineItems := db.lineItems.filter fun item => db.ownsReceipt userId item.receiptId
  taxes := db.taxes.filter fun tax => db.ownsReceipt userId tax.receiptId
  images := db.images.filter fun image => image.userId = some userId
  collections := db.collections.filter fun c => c.userId = userId
  links := db.links.filter fun l =>
    db.ownsReceipt userId l.receiptId && db.ownsCollection userId l.collectionId
  aliases := .empty
  tags := db.tags

/-- What is joined belongs together: a link has both ends at the user or
neither, and the images of the user's receipts are the user's. -/
structure Isolated (db : Db) (userId : UUID) : Prop where
  links : ∀ l ∈ db.links.rows,
    db.ownsReceipt userId l.receiptId = db.ownsCollection userId l.collectionId
  images : ∀ r ∈ db.receipts.rows, r.userId = some userId → ∀ i ∈ r.imageId,
    ∀ image ∈ db.images.get? i, image.userId = some userId

/-- The same rows in all tables, in any order. A table has no order, so
two states that differ only in this are the same for a query without an
`ORDER BY`. -/
structure SameRows (db db' : Db) : Prop where
  receipts : db.receipts.SameRows db'.receipts
  lineItems : db.lineItems.SameRows db'.lineItems
  taxes : db.taxes.SameRows db'.taxes
  images : db.images.SameRows db'.images
  collections : db.collections.SameRows db'.collections
  links : db.links.SameRows db'.links
  aliases : db.aliases.SameRows db'.aliases
  tags : db.tags.Perm db'.tags

/-- **Two databases agree on a user**: the same receipts, line items,
taxes, images, collections and links belong to the user in both, and the
tags are the same. Where the rows lie may depend on what others did
meanwhile, so nothing is asked of it. -/
def SameView (userId : UUID) (db db' : Db) : Prop := (db.view userId).SameRows (db'.view userId)

/-- **What may be answered**: what the query returns with the rows in one
order or another. A statement without `ORDER BY` promises no order, and
the order in which rows were stored is none that a user could rely on. -/
def MayAnswer {α : Type} (db : Db) (query : Db → α → Prop) (answer : α) : Prop :=
  ∃ d, db.SameRows d ∧ query d answer

/-- What `get_statistics` may return when nothing is committed between its
queries, each of which finds the rows in an order of its own. -/
def GetsStatistics [Aggregation] (db : Db) (today : Date) (scope : StatisticsScope) (weeks : ℤ)
    (answer : Except DbError ReceiptStatistics) : Prop :=
  ∃ order : StatisticsOp → Db, (∀ op, db.SameRows (order op))
    ∧ (getStatistics scope weeks).ask (fun op => op.answer today (order op)) = answer

/-- **A user is told the same** in two databases: whatever is asked, what
may be answered in one may be answered in the other. There is a clause for
each query. An answer is compared as a whole, with the order of its rows,
but what a query may answer leaves open the order that the statement
leaves open. -/
structure SameAnswers [Lowercase] [Aggregation] (userId : UUID) (db db' : Db) : Prop where
  listReceipts : ∀ f limit offset answer,
    db.MayAnswer (fun d => d.ListsWithThumbnails ⟨userId, false⟩ f limit offset) answer
      ↔ db'.MayAnswer (fun d => d.ListsWithThumbnails ⟨userId, false⟩ f limit offset) answer
  getReceiptWithDetails : ∀ receiptId answer,
    db.MayAnswer (fun d => Eq (d.detailWithThumbnail ⟨userId, false⟩ receiptId)) answer
      ↔ db'.MayAnswer (fun d => Eq (d.detailWithThumbnail ⟨userId, false⟩ receiptId)) answer
  searchProducts : ∀ query answer,
    db.MayAnswer (fun d => Eq (d.searchProducts query ⟨userId, false⟩)) answer
      ↔ db'.MayAnswer (fun d => Eq (d.searchProducts query ⟨userId, false⟩)) answer
  getStatistics : ∀ today collectionId weeks answer,
    db.GetsStatistics today ⟨some userId, false, collectionId⟩ weeks answer
      ↔ db'.GetsStatistics today ⟨some userId, false, collectionId⟩ weeks answer
  getTotals : ∀ dateFrom dateTo collectionId answer,
    db.MayAnswer (fun d => Eq (d.getTotals dateFrom dateTo ⟨userId, false⟩ collectionId)) answer
      ↔ db'.MayAnswer (fun d => Eq (d.getTotals dateFrom dateTo ⟨userId, false⟩ collectionId))
        answer
  listImages : ∀ status limit offset answer,
    db.MayAnswer (fun d => Eq (d.listImages ⟨userId, false⟩ status limit offset)) answer
      ↔ db'.MayAnswer (fun d => Eq (d.listImages ⟨userId, false⟩ status limit offset)) answer
  getImageById : ∀ imageId answer,
    db.MayAnswer (fun d => Eq (d.imageFor? ⟨userId, false⟩ imageId)) answer
      ↔ db'.MayAnswer (fun d => Eq (d.imageFor? ⟨userId, false⟩ imageId)) answer
  listWithTotals : ∀ answer,
    db.MayAnswer (fun d => d.ListsWithTotals ⟨userId, false⟩) answer
      ↔ db'.MayAnswer (fun d => d.ListsWithTotals ⟨userId, false⟩) answer
  getDetail : ∀ collectionId answer,
    db.MayAnswer (fun d => d.GetsDetail ⟨userId, false⟩ collectionId) answer
      ↔ db'.MayAnswer (fun d => d.GetsDetail ⟨userId, false⟩ collectionId) answer

end Db

/-! ## Owner conditions

A query that has the condition on the owner does not notice what is
missing in the view. Most lemmas below are instances of this. -/

section View

variable {db : Db} {userId : UUID}

theorem scope_iff {owner : Option UUID} :
    (⟨userId, false⟩ : Caller).Scope owner ↔ owner = some userId := by
  simp [Caller.Scope]

/-- A condition that implies another one need not be asked for first. -/
theorem filter_filter_congr {α : Type} {p q q' : α → Bool} {l : List α}
    (himp : ∀ a ∈ l, q' a = true → p a = true) (hcongr : ∀ a ∈ l, p a = true → q a = q' a) :
    (l.filter p).filter q = l.filter q' := by
  rw [List.filter_filter]
  refine List.filter_congr fun a ha => ?_
  cases hp : p a with
  | true => rw [Bool.and_true, hcongr a ha hp]
  | false =>
    rw [Bool.and_false]
    exact (Bool.eq_false_iff.mpr fun hq => by simp [himp a ha hq] at hp).symm

theorem filter_filter_of_imp {α : Type} {p q : α → Bool} {l : List α}
    (h : ∀ a ∈ l, q a = true → p a = true) : (l.filter p).filter q = l.filter q :=
  filter_filter_congr h fun _ _ _ => rfl

/-- The same for a lookup. -/
theorem get?_filter_filter {ρ κ : Type} [DecidableEq κ] {key : ρ → κ} {t : Table ρ key}
    {p q : ρ → Bool} (h : ∀ r, q r = true → p r = true) (k : κ) :
    ((t.filter p).get? k).filter q = (t.get? k).filter q := by
  rw [Table.get?_filter, Option.filter_filter]
  refine congrFun (congrArg _ (funext fun r => ?_)) _
  cases hq : q r with
  | false => rw [Bool.and_false]
  | true => rw [Bool.and_true, h r hq]

/-- Relations that agree on the elements of a list. -/
theorem forall₂_iff_of_mem {α β : Type} {R S : α → β → Prop} {l : List α} {l' : List β}
    (h : ∀ a ∈ l, ∀ b, R a b ↔ S a b) : List.Forall₂ R l l' ↔ List.Forall₂ S l l' := by
  induction l generalizing l' with
  | nil => rw [List.forall₂_nil_left_iff, List.forall₂_nil_left_iff]
  | cons a l ih =>
    have hrest : ∀ l' : List β, List.Forall₂ R l l' ↔ List.Forall₂ S l l' :=
      fun _ => ih fun b hb => h b (List.mem_cons_of_mem a hb)
    simp only [List.forall₂_cons_left_iff, hrest, h a List.mem_cons_self]

theorem ownsReceipt_iff {receiptId : UUID} :
    db.ownsReceipt userId receiptId = true
      ↔ ∃ r, db.receipts.get? receiptId = some r ∧ r.userId = some userId := by
  simp [Db.ownsReceipt, Option.any_eq_true]

theorem ownsCollection_iff {collectionId : UUID} :
    db.ownsCollection userId collectionId = true
      ↔ ∃ c, db.collections.get? collectionId = some c ∧ c.userId = userId := by
  simp [Db.ownsCollection, Option.any_eq_true]

theorem ownsReceipt_of_mem {r : ReceiptRecord} (hr : r ∈ db.receipts.rows)
    (howner : r.userId = some userId) : db.ownsReceipt userId r.id = true :=
  ownsReceipt_iff.mpr ⟨r, Table.get?_eq_some_iff.mpr ⟨hr, rfl⟩, howner⟩

theorem ownsCollection_of_mem {c : CollectionRecord} (hc : c ∈ db.collections.rows)
    (howner : c.userId = userId) : db.ownsCollection userId c.id = true :=
  ownsCollection_iff.mpr ⟨c, Table.get?_eq_some_iff.mpr ⟨hc, rfl⟩, howner⟩

/-- The links of a user's receipt. -/
theorem mem_links_view (h : db.Isolated userId) {r : ReceiptRecord} (hr : r ∈ db.receipts.rows)
    (howner : r.userId = some userId) {collectionId : UUID} :
    ⟨r.id, collectionId⟩ ∈ (db.view userId).links.rows ↔ ⟨r.id, collectionId⟩ ∈ db.links.rows := by
  have howns := ownsReceipt_of_mem hr howner
  refine List.mem_filter.trans (and_iff_left_of_imp fun hlink => ?_)
  rw [← h.links _ hlink, howns]
  rfl

/-- The image of a user's receipt. It belongs to the user as well, so that
it is in the view, or there is none in either. -/
theorem image_view (h : db.Isolated userId) {r : ReceiptRecord} (hr : r ∈ db.receipts.rows)
    (howner : r.userId = some userId) :
    r.imageId.bind (db.view userId).images.get? = r.imageId.bind db.images.get? := by
  cases hi : r.imageId with
  | none => rfl
  | some i =>
    show (db.images.filter _).get? i = db.images.get? i
    rw [Table.get?_filter]
    cases himage : db.images.get? i with
    | none => rfl
    | some image =>
      exact Option.filter_some_pos (decide_eq_true (h.images r hr howner i hi image himage))

theorem withThumbnail_view (h : db.Isolated userId) {r : ReceiptRecord}
    (hr : r ∈ db.receipts.rows) (howner : r.userId = some userId) :
    (db.view userId).withThumbnail r = db.withThumbnail r := by
  unfold Db.withThumbnail
  rw [image_view h hr howner]

/-! ## Receipts -/

theorem receiptFor?_view (receiptId : UUID) :
    (db.view userId).receiptFor? ⟨userId, false⟩ receiptId
      = db.receiptFor? ⟨userId, false⟩ receiptId :=
  get?_filter_filter (fun _ hr => decide_eq_true (scope_iff.mp (of_decide_eq_true hr))) receiptId

section Lists

variable [Lowercase]

theorem matching_view (f : ReceiptFilters) :
    (db.view userId).matching ⟨userId, false⟩ f = db.matching ⟨userId, false⟩ f :=
  filter_filter_of_imp fun r _ hr =>
    decide_eq_true (scope_iff.mp (of_decide_eq_true hr : f.Matches _ r).1)

theorem listsReceipts_view (f : ReceiptFilters) (limit offset : ℕ)
    (answer : Except DbError (List ReceiptRecord)) :
    (db.view userId).ListsReceipts ⟨userId, false⟩ f limit offset answer
      ↔ db.ListsReceipts ⟨userId, false⟩ f limit offset answer := by
  have hselected : (db.view userId).selectedReceipts ⟨userId, false⟩ f limit offset
      = db.selectedReceipts ⟨userId, false⟩ f limit offset := by
    cases hcollection : f.collectionId with
    | none => rw [selectedReceipts_eq hcollection, selectedReceipts_eq hcollection, matching_view]
    | some collectionId =>
      rw [selectedReceipts_collection hcollection, selectedReceipts_collection hcollection]
  unfold Db.ListsReceipts
  rw [hselected]

/-- Only receipts of the user are listed. The scope of the caller is one
of the conditions of the statement, with and without a collection. -/
theorem owner_of_listsReceipts {f : ReceiptFilters} {limit offset : ℕ} {l : List ReceiptRecord}
    (hl : db.ListsReceipts ⟨userId, false⟩ f limit offset (.ok l)) {r : ReceiptRecord}
    (hr : r ∈ l) : r ∈ db.receipts.rows ∧ r.userId = some userId := by
  cases hcollection : f.collectionId with
  | none =>
    obtain ⟨-, sorted, hsorted, rfl⟩ := (listsReceipts_ok_iff hcollection).mp hl
    have hmem : r ∈ sorted := List.mem_of_mem_drop (List.mem_of_mem_take hr)
    obtain ⟨hrows, hmatches⟩ := List.mem_filter.mp (hsorted.perm.mem_iff.mp hmem)
    exact ⟨hrows, scope_iff.mp (of_decide_eq_true hmatches : f.Matches _ r).1⟩
  | some collectionId =>
    obtain ⟨rows, sorted, hrows, -⟩ := hl
    rw [selectedReceipts_collection hcollection] at hrows
    exact absurd hrows (by simp)

theorem listsWithThumbnails_view (h : db.Isolated userId) (f : ReceiptFilters) (limit offset : ℕ)
    (answer : Except DbError (List ListedReceipt)) :
    (db.view userId).ListsWithThumbnails ⟨userId, false⟩ f limit offset answer
      ↔ db.ListsWithThumbnails ⟨userId, false⟩ f limit offset answer := by
  refine exists_congr fun rows => ?_
  rw [listsReceipts_view]
  refine and_congr_right fun hrows => ?_
  have hmap : rows.map (List.map (db.view userId).withThumbnail)
      = rows.map (List.map db.withThumbnail) := by
    cases rows with
    | error e => rfl
    | ok l =>
      refine congrArg Except.ok (List.map_congr_left fun r hr => ?_)
      obtain ⟨hmem, howner⟩ := owner_of_listsReceipts hrows hr
      exact withThumbnail_view h hmem howner
  rw [hmap]

omit [Lowercase] in
theorem members_view (h : db.Isolated userId) (collectionId : UUID) :
    (db.view userId).members ⟨userId, false⟩ collectionId
      = db.members ⟨userId, false⟩ collectionId := by
  refine filter_filter_congr (fun r _ hr => ?_) fun r hr howner => ?_
  · exact decide_eq_true (scope_iff.mp (of_decide_eq_true hr : _ ∧ _).2)
  · exact decide_eq_decide.mpr
      (and_congr_left fun _ => mem_links_view h hr (of_decide_eq_true howner))

theorem listsCollection_view (h : db.Isolated userId) (collectionId : UUID)
    (answer : Except DbError (List ReceiptRecord)) :
    (db.view userId).ListsCollection ⟨userId, false⟩ collectionId answer
      ↔ db.ListsCollection ⟨userId, false⟩ collectionId answer := by
  unfold Db.ListsCollection
  rw [selectedInCollection_eq, selectedInCollection_eq, members_view h]

end Lists

/-- The children of a user's receipt. -/
theorem children_view {receiptId : UUID} (h : db.ownsReceipt userId receiptId = true) :
    (db.view userId).listLineItems receiptId = db.listLineItems receiptId
      ∧ (db.view userId).listTaxes receiptId = db.listTaxes receiptId := by
  have howns : ∀ id, id = receiptId → db.ownsReceipt userId id = true := by
    rintro id rfl
    exact h
  refine ⟨congrArg _ (filter_filter_of_imp fun item _ hitem => ?_),
    congrArg _ (filter_filter_of_imp fun tax _ htax => ?_)⟩
  · exact howns _ (of_decide_eq_true hitem)
  · exact howns _ (of_decide_eq_true htax)

theorem collectionIds_view (h : db.Isolated userId) {receiptId : UUID}
    (howns : db.ownsReceipt userId receiptId = true) :
    (db.view userId).collectionIdsForReceipt receiptId = db.collectionIdsForReceipt receiptId := by
  refine congrArg _ (filter_filter_of_imp fun l hl hreceipt => ?_)
  have hreceipt : l.receiptId = receiptId := of_decide_eq_true hreceipt
  rw [← h.links l hl, hreceipt, howns]
  rfl

theorem receiptFor?_spec {receiptId : UUID} {r : ReceiptRecord}
    (h : db.receiptFor? ⟨userId, false⟩ receiptId = some r) :
    r ∈ db.receipts.rows ∧ r.id = receiptId ∧ r.userId = some userId := by
  obtain ⟨hget, hscope⟩ := Option.filter_eq_some_iff.mp h
  obtain ⟨hr, hid⟩ := Table.get?_eq_some_iff.mp hget
  exact ⟨hr, hid, scope_iff.mp (of_decide_eq_true hscope)⟩

theorem detailWithThumbnail_view (h : db.Isolated userId) (receiptId : UUID) :
    (db.view userId).detailWithThumbnail ⟨userId, false⟩ receiptId
      = db.detailWithThumbnail ⟨userId, false⟩ receiptId := by
  unfold Db.detailWithThumbnail Db.getReceiptWithDetails
  rw [receiptFor?_view]
  cases hreceipt : db.receiptFor? ⟨userId, false⟩ receiptId with
  | none => rfl
  | some r =>
    obtain ⟨hr, rfl, howner⟩ := receiptFor?_spec hreceipt
    have howns := ownsReceipt_of_mem hr howner
    obtain ⟨hitems, htaxes⟩ := children_view howns
    simp only [Option.map_some]
    rw [hitems, htaxes, collectionIds_view h howns, image_view h hr howner,
      withThumbnail_view h hr howner]

/-- Line items with their receipts, if only receipts of the user are asked
for. Others are missing in the view, and would not have been asked for. -/
theorem purchases_view {p : LineItemRecord × ReceiptRecord → Bool}
    (hp : ∀ row, p row = true → row.2.userId = some userId) :
    (db.view userId).purchases.filter p = db.purchases.filter p := by
  unfold Db.purchases
  rw [List.filter_filterMap, List.filter_filterMap]
  refine (List.filterMap_filter).trans (List.filterMap_congr fun item _ => ?_)
  have hget : (db.view userId).receipts.get? item.receiptId
      = (db.receipts.get? item.receiptId).filter fun r => r.userId = some userId :=
    Table.get?_filter _ _ _
  unfold Db.ownsReceipt
  rw [hget]
  cases db.receipts.get? item.receiptId with
  | none => rfl
  | some r =>
    by_cases howner : r.userId = some userId
    · simp [howner, Option.filter_some]
    · have hno : p (item, r) = false := Bool.eq_false_iff.mpr fun hrow => howner (hp _ hrow)
      simp [howner, hno, Option.filter_some]

theorem searchProducts_view [Lowercase] (query : String) :
    (db.view userId).searchProducts query ⟨userId, false⟩
      = db.searchProducts query ⟨userId, false⟩ := by
  unfold Db.searchProducts
  refine congrArg _ (funext fun pattern => ?_)
  rw [purchases_view fun row hrow => scope_iff.mp (of_decide_eq_true hrow : _ ∧ _).1.2.2]

/-! ## Statistics -/

theorem statisticsReceipts_view (h : db.Isolated userId) (collectionId : Option UUID) :
    (db.view userId).statisticsReceipts ⟨some userId, false, collectionId⟩
      = db.statisticsReceipts ⟨some userId, false, collectionId⟩ := by
  refine filter_filter_congr (fun r _ hr => ?_) fun r hr howner => ?_
  · exact decide_eq_true ((of_decide_eq_true hr : db.InStatistics _ r).2.2.1 userId rfl)
  · refine decide_eq_decide.mpr (and_congr_right fun _ => and_congr_right fun _ =>
      and_congr_right fun _ => forall₂_congr fun c _ => ?_)
    exact mem_links_view h hr (of_decide_eq_true howner)

/-- The scope of a query. -/
def StatisticsOp.scope : StatisticsOp → StatisticsScope
  | currency scope => scope
  | named _ scope => scope
  | weekday scope => scope
  | weekly _ scope => scope

theorem calls_getStatistics (scope : StatisticsScope) (weeks : ℤ) :
    (getStatistics scope weeks).Calls fun op => op.scope = scope := by
  unfold getStatistics
  repeat refine Program.calls_bind (Program.calls_perform rfl) fun _ => ?_
  trivial

/-- Each query of the page looks at the receipts of the user only. -/
theorem statisticsAnswer_view [Aggregation] (h : db.Isolated userId) (today : Date)
    {collectionId : Option UUID} {op : StatisticsOp}
    (hscope : op.scope = ⟨some userId, false, collectionId⟩) :
    op.answer today (db.view userId) = op.answer today db := by
  cases op
  all_goals
    obtain rfl := hscope
    simp only [StatisticsOp.answer, Db.statsCurrency, Db.statsNamed, Db.statsWeekday,
      Db.statsWeekly, statisticsReceipts_view h]
    rfl

theorem scopedReceipts_view (h : db.Isolated userId) (dateFrom dateTo : Date)
    (collectionId : Option UUID) :
    (db.view userId).scopedReceipts dateFrom dateTo ⟨userId, false⟩ collectionId
      = db.scopedReceipts dateFrom dateTo ⟨userId, false⟩ collectionId := by
  refine filter_filter_congr (fun r _ hr => ?_) fun r hr howner => ?_
  · exact decide_eq_true
      (scope_iff.mp (of_decide_eq_true hr : db.InScope dateFrom dateTo _ collectionId r).2.2.2.2.1)
  · refine decide_eq_decide.mpr (and_congr_right fun _ => and_congr_right fun _ =>
      and_congr_right fun _ => and_congr_right fun _ => and_congr_right fun _ =>
        forall₂_congr fun c _ => ?_)
    exact mem_links_view h hr (of_decide_eq_true howner)

theorem getTotals_view (h : db.Isolated userId) (dateFrom dateTo : Date)
    (collectionId : Option UUID) :
    (db.view userId).getTotals dateFrom dateTo ⟨userId, false⟩ collectionId
      = db.getTotals dateFrom dateTo ⟨userId, false⟩ collectionId := by
  have hitems : (db.view userId).withItems
        (db.scopedReceipts dateFrom dateTo ⟨userId, false⟩ collectionId)
      = db.withItems (db.scopedReceipts dateFrom dateTo ⟨userId, false⟩ collectionId) := by
    refine List.flatMap_congr fun r hr => congrArg _ (filter_filter_of_imp fun item _ hitem => ?_)
    obtain ⟨hmem, hscope⟩ := List.mem_filter.mp hr
    have howner := scope_iff.mp
      (of_decide_eq_true hscope : db.InScope dateFrom dateTo _ collectionId r).2.2.2.2.1
    have hreceipt : item.receiptId = r.id := of_decide_eq_true hitem
    show db.ownsReceipt userId item.receiptId = true
    rw [hreceipt]
    exact ownsReceipt_of_mem hmem howner
  unfold Db.getTotals
  dsimp only
  rw [scopedReceipts_view h, hitems]

/-! ## Images -/

theorem listImages_view (status : Option (List String)) (limit offset : ℕ) :
    (db.view userId).listImages ⟨userId, false⟩ status limit offset
      = db.listImages ⟨userId, false⟩ status limit offset := by
  have hrows : (db.view userId).images.rows.filter (fun i =>
        (⟨userId, false⟩ : Caller).Scope i.userId ∧ ∀ l ∈ status, l ≠ [] → i.status.text ∈ l)
      = db.images.rows.filter (fun i =>
        (⟨userId, false⟩ : Caller).Scope i.userId ∧ ∀ l ∈ status, l ≠ [] → i.status.text ∈ l) :=
    filter_filter_of_imp fun i _ hi =>
      decide_eq_true (scope_iff.mp (of_decide_eq_true hi : _ ∧ _).1)
  unfold Db.listImages
  rw [hrows]

theorem imageFor?_view (imageId : UUID) :
    (db.view userId).imageFor? ⟨userId, false⟩ imageId = db.imageFor? ⟨userId, false⟩ imageId :=
  get?_filter_filter (fun _ hi => decide_eq_true (scope_iff.mp (of_decide_eq_true hi))) imageId

/-! ## Collections

The count and the totals of a collection have no condition on the owner.
They are the same in the view if no link joins what belongs to different
users, which is where that is used. -/

theorem collectionFor?_view (collectionId : UUID) :
    (db.view userId).collectionFor? ⟨userId, false⟩ collectionId
      = db.collectionFor? ⟨userId, false⟩ collectionId :=
  get?_filter_filter (fun _ hc =>
    decide_eq_true (Option.some.inj (scope_iff.mp (of_decide_eq_true hc)))) collectionId

theorem collectionsFor_view :
    (db.view userId).collectionsFor ⟨userId, false⟩ = db.collectionsFor ⟨userId, false⟩ :=
  filter_filter_of_imp fun _ _ hc =>
    decide_eq_true (Option.some.inj (scope_iff.mp (of_decide_eq_true hc)))

/-- The links of a user's collection. -/
theorem linksOf_view (h : db.Isolated userId) {collectionId : UUID}
    (howns : db.ownsCollection userId collectionId = true) :
    (db.view userId).links.rows.filter (fun l => l.collectionId = collectionId)
      = db.links.rows.filter (fun l => l.collectionId = collectionId) := by
  refine filter_filter_of_imp fun l hl hcollection => ?_
  have hcollection : l.collectionId = collectionId := of_decide_eq_true hcollection
  rw [h.links l hl, hcollection, howns]
  rfl

theorem receiptCount_view (h : db.Isolated userId) {collectionId : UUID}
    (howns : db.ownsCollection userId collectionId = true) :
    (db.view userId).receiptCount collectionId = db.receiptCount collectionId := by
  unfold Db.receiptCount
  rw [List.countP_eq_length_filter, List.countP_eq_length_filter, linksOf_view h howns]

theorem linkedReceipts_view (h : db.Isolated userId) {collectionId : UUID}
    (howns : db.ownsCollection userId collectionId = true) :
    (db.view userId).linkedReceipts collectionId = db.linkedReceipts collectionId := by
  unfold Db.linkedReceipts
  rw [linksOf_view h howns]
  refine List.filterMap_congr fun l hl => ?_
  obtain ⟨hmem, hcollection⟩ := List.mem_filter.mp hl
  have hcollection : l.collectionId = collectionId := of_decide_eq_true hcollection
  obtain ⟨r, hr, howner⟩ := ownsReceipt_iff.mp
    ((h.links l hmem).trans (by rw [hcollection, howns]))
  show (db.receipts.filter _).get? l.receiptId = _
  rw [Table.get?_filter, hr]
  exact Option.filter_some_pos (decide_eq_true howner)

theorem totalsPerCurrency_view (h : db.Isolated userId) {collectionId : UUID}
    (howns : db.ownsCollection userId collectionId = true) :
    (db.view userId).TotalsPerCurrency collectionId = db.TotalsPerCurrency collectionId := by
  unfold Db.TotalsPerCurrency
  rw [linkedReceipts_view h howns]

theorem ownsCollection_of_mem_for {c : CollectionRecord}
    (hc : c ∈ db.collectionsFor ⟨userId, false⟩) : db.ownsCollection userId c.id = true := by
  obtain ⟨hmem, hscope⟩ := List.mem_filter.mp hc
  exact ownsCollection_of_mem hmem (Option.some.inj (scope_iff.mp (of_decide_eq_true hscope)))

theorem listsWithTotals_view [Aggregation] (h : db.Isolated userId)
    (answer : Except DbError (List CollectionSummary)) :
    (db.view userId).ListsWithTotals ⟨userId, false⟩ answer
      ↔ db.ListsWithTotals ⟨userId, false⟩ answer := by
  have hcount : ∀ c ∈ db.collectionsFor ⟨userId, false⟩,
      (db.view userId).receiptCount c.id = db.receiptCount c.id :=
    fun c hc => receiptCount_view h (ownsCollection_of_mem_for hc)
  cases answer with
  | error e =>
    show (∃ c ∈ (db.view userId).collectionsFor _, _) ∧ _ ↔ _
    rw [collectionsFor_view]
    refine and_congr_left fun _ => exists_congr fun c => and_congr_right fun hc => ?_
    rw [hcount c hc]
  | ok l =>
    show (∀ c ∈ (db.view userId).collectionsFor _, _) ∧ (∃ sorted : List CollectionRecord,
      sorted.Perm ((db.view userId).collectionsFor _) ∧ _) ↔ _
    rw [collectionsFor_view]
    refine and_congr (forall₂_congr fun c hc => by rw [hcount c hc])
      (exists_congr fun sorted => and_congr_right fun hperm => and_congr_right fun _ => ?_)
    have hsummarizes : ∀ c ∈ sorted, ∀ summary,
        (db.view userId).Summarizes c summary ↔ db.Summarizes c summary := by
      intro c hc summary
      have hown := hperm.mem_iff.mp hc
      unfold Db.Summarizes
      rw [hcount c hown, totalsPerCurrency_view h (ownsCollection_of_mem_for hown)]
    exact forall₂_iff_of_mem hsummarizes

theorem getsDetail_view [Lowercase] (h : db.Isolated userId) (collectionId : UUID)
    (answer : Except DbError (Option CollectionDetail)) :
    (db.view userId).GetsDetail ⟨userId, false⟩ collectionId answer
      ↔ db.GetsDetail ⟨userId, false⟩ collectionId answer := by
  unfold Db.GetsDetail
  split
  · rw [collectionFor?_view, listsCollection_view h]
  · rw [collectionFor?_view]
  · next detail =>
    rw [collectionFor?_view, listsCollection_view h]
    refine and_congr_right fun hcollection => ?_
    obtain ⟨hget, hscope⟩ := Option.filter_eq_some_iff.mp hcollection
    rw [totalsPerCurrency_view h (ownsCollection_iff.mpr
      ⟨_, hget, Option.some.inj (scope_iff.mp (of_decide_eq_true hscope))⟩)]

/-! ## Rows in another order

Queries without an `ORDER BY` return rows in any order. So an answer is
one of several that are possible, and the possible answers do not depend
on the order of the rows. -/

namespace Db

theorem SameRows.refl (db : Db) : db.SameRows db :=
  ⟨.refl _, .refl _, .refl _, .refl _, .refl _, .refl _, .refl _, .refl _⟩

theorem SameRows.symm {db' : Db} (h : db.SameRows db') : db'.SameRows db :=
  ⟨List.Perm.symm h.receipts, List.Perm.symm h.lineItems, List.Perm.symm h.taxes,
    List.Perm.symm h.images, List.Perm.symm h.collections, List.Perm.symm h.links,
    List.Perm.symm h.aliases, h.tags.symm⟩

theorem SameRows.trans {db' db'' : Db} (h : db.SameRows db') (h' : db'.SameRows db'') :
    db.SameRows db'' :=
  ⟨List.Perm.trans h.receipts h'.receipts, List.Perm.trans h.lineItems h'.lineItems,
    List.Perm.trans h.taxes h'.taxes, List.Perm.trans h.images h'.images,
    List.Perm.trans h.collections h'.collections, List.Perm.trans h.links h'.links,
    List.Perm.trans h.aliases h'.aliases, h.tags.trans h'.tags⟩

theorem SameRows.ownsReceipt {db' : Db} (h : db.SameRows db') (userId receiptId : UUID) :
    db'.ownsReceipt userId receiptId = db.ownsReceipt userId receiptId :=
  congrArg _ (h.receipts.get?_eq receiptId)

theorem SameRows.ownsCollection {db' : Db} (h : db.SameRows db') (userId collectionId : UUID) :
    db'.ownsCollection userId collectionId = db.ownsCollection userId collectionId :=
  congrArg _ (h.collections.get?_eq collectionId)

/-- Rows belong together wherever they lie. -/
theorem Isolated.of_sameRows {db' : Db} (h : db.Isolated userId) (hrows : db.SameRows db') :
    db'.Isolated userId where
  links l hl := by
    rw [hrows.ownsReceipt, hrows.ownsCollection]
    exact h.links l (hrows.links.mem_iff.mpr hl)
  images r hr howner i hi image himage := by
    rw [Option.mem_def, hrows.images.get?_eq] at himage
    exact h.images r (hrows.receipts.mem_iff.mpr hr) howner i hi image himage

/-- What belongs to a user are the same rows wherever the rows of the
database lie. -/
theorem SameRows.view {db' : Db} (h : db.SameRows db') (userId : UUID) :
    (db.view userId).SameRows (db'.view userId) where
  receipts := h.receipts.filter _
  lineItems := by
    unfold Db.view
    simp only [h.ownsReceipt]
    exact h.lineItems.filter _
  taxes := by
    unfold Db.view
    simp only [h.ownsReceipt]
    exact h.taxes.filter _
  images := h.images.filter _
  collections := h.collections.filter _
  links := by
    unfold Db.view
    simp only [h.ownsReceipt, h.ownsCollection]
    exact h.links.filter _
  aliases := .refl _
  tags := h.tags

/-- **What belongs to a user can be put into any order**, table by table:
the rows of others stay behind, and do not decide what is the user's. -/
theorem exists_sameRows_view {d : Db} (h : db.SameView userId d) :
    ∃ db', db.SameRows db' ∧ db'.view userId = d.view userId := by
  obtain ⟨receipts, hreceipts, hreceiptsView⟩ := Table.exists_sameRows_of_filter h.receipts
  obtain ⟨lineItems, hitems, hitemsView⟩ := Table.exists_sameRows_of_filter h.lineItems
  obtain ⟨taxes, htaxes, htaxesView⟩ := Table.exists_sameRows_of_filter h.taxes
  obtain ⟨images, himages, himagesView⟩ := Table.exists_sameRows_of_filter h.images
  obtain ⟨collections, hcollections, hcollectionsView⟩ :=
    Table.exists_sameRows_of_filter h.collections
  obtain ⟨links, hlinks, hlinksView⟩ := Table.exists_sameRows_of_filter h.links
  have hrows : db.SameRows ⟨receipts, lineItems, taxes, images, collections, links, db.aliases,
      d.tags⟩ :=
    ⟨hreceipts, hitems, htaxes, himages, hcollections, hlinks, .refl _, h.tags⟩
  refine ⟨_, hrows, ?_⟩
  unfold Db.view at hreceiptsView hitemsView htaxesView himagesView hcollectionsView hlinksView ⊢
  simp only [hrows.ownsReceipt, hrows.ownsCollection]
  rw [hreceiptsView, hitemsView, htaxesView, himagesView, hcollectionsView, hlinksView]

end Db

/-! ## All queries

What each query may answer in one state it may answer in the other. The
nine of them are put together in one relation. -/

section Agree

variable {db' : Db}

/-- Whatever order the rows of one database are in, those of the other can
be put into one in which what belongs to the user comes alike. -/
theorem Db.SameView.exists_sameRows (hview : db.SameView userId db') {d : Db}
    (hd : db.SameRows d) : ∃ d', db'.SameRows d' ∧ d'.view userId = d.view userId :=
  Db.exists_sameRows_view (Db.SameRows.trans (Db.SameRows.symm hview) (hd.view userId))

theorem Db.SameView.symm (hview : db.SameView userId db') : db'.SameView userId db :=
  Db.SameRows.symm hview

/-- What may be answered in one database may be answered in the other, by
a query that answers from what belongs to the user. -/
theorem Db.MayAnswer.of_sameView {α : Type} {query : Db → α → Prop} {answer : α}
    (hanswer : db.MayAnswer query answer) (h : db.Isolated userId) (h' : db'.Isolated userId)
    (hview : db.SameView userId db')
    (hquery : ∀ d : Db, d.Isolated userId → (query (d.view userId) answer ↔ query d answer)) :
    db'.MayAnswer query answer := by
  obtain ⟨d, hd, hd_answer⟩ := hanswer
  obtain ⟨d', hd', heq⟩ := hview.exists_sameRows hd
  refine ⟨d', hd', (hquery d' (h'.of_sameRows hd')).mp ?_⟩
  rw [heq]
  exact (hquery d (h.of_sameRows hd)).mpr hd_answer

theorem mayAnswer_iff {α : Type} {query : Db → α → Prop} {answer : α} (h : db.Isolated userId)
    (h' : db'.Isolated userId) (hview : db.SameView userId db')
    (hquery : ∀ d : Db, d.Isolated userId → (query (d.view userId) answer ↔ query d answer)) :
    db.MayAnswer query answer ↔ db'.MayAnswer query answer :=
  ⟨fun hanswer => hanswer.of_sameView h h' hview hquery,
    fun hanswer => hanswer.of_sameView h' h hview.symm hquery⟩

/-- The same for a query with one answer for each order of the rows. -/
theorem mayAnswer_eq_iff {α : Type} {query : Db → α} {answer : α} (h : db.Isolated userId)
    (h' : db'.Isolated userId) (hview : db.SameView userId db')
    (hquery : ∀ d : Db, d.Isolated userId → query (d.view userId) = query d) :
    db.MayAnswer (fun d => Eq (query d)) answer ↔ db'.MayAnswer (fun d => Eq (query d)) answer :=
  mayAnswer_iff h h' hview fun d hd => by rw [hquery d hd]

/-- Each statement of the page may find the rows in the order that gives
the answer that it gives in the other database. -/
theorem Db.GetsStatistics.of_sameView [Aggregation] {today : Date} {collectionId : Option UUID}
    {weeks : ℤ} {answer : Except DbError ReceiptStatistics}
    (hanswer : db.GetsStatistics today ⟨some userId, false, collectionId⟩ weeks answer)
    (h : db.Isolated userId) (h' : db'.Isolated userId) (hview : db.SameView userId db') :
    db'.GetsStatistics today ⟨some userId, false, collectionId⟩ weeks answer := by
  obtain ⟨order, horder, rfl⟩ := hanswer
  choose order' horder' heq using fun op => hview.exists_sameRows (horder op)
  refine ⟨order', horder', Program.ask_congr ((calls_getStatistics _ weeks).mono fun op hscope => ?_)⟩
  rw [← statisticsAnswer_view (h'.of_sameRows (horder' op)) today hscope, heq op]
  exact statisticsAnswer_view (h.of_sameRows (horder op)) today hscope

/-- **What belongs to a user decides what the user may be told**, in
databases in which what is joined belongs together. -/
theorem sameAnswers_of_sameView [Lowercase] [Aggregation] (h : db.Isolated userId)
    (h' : db'.Isolated userId) (hview : db.SameView userId db') :
    Db.SameAnswers userId db db' where
  listReceipts f limit offset answer :=
    mayAnswer_iff h h' hview fun _ hd => listsWithThumbnails_view hd f limit offset answer
  getReceiptWithDetails receiptId _ :=
    mayAnswer_eq_iff h h' hview fun _ hd => detailWithThumbnail_view hd receiptId
  searchProducts query _ := mayAnswer_eq_iff h h' hview fun _ _ => searchProducts_view query
  getStatistics _ _ _ _ :=
    ⟨fun hanswer => hanswer.of_sameView h h' hview,
      fun hanswer => hanswer.of_sameView h' h hview.symm⟩
  getTotals dateFrom dateTo collectionId _ :=
    mayAnswer_eq_iff h h' hview fun _ hd => getTotals_view hd dateFrom dateTo collectionId
  listImages status limit offset _ :=
    mayAnswer_eq_iff h h' hview fun _ _ => listImages_view status limit offset
  getImageById imageId _ := mayAnswer_eq_iff h h' hview fun _ _ => imageFor?_view imageId
  listWithTotals answer := mayAnswer_iff h h' hview fun _ hd => listsWithTotals_view hd answer
  getDetail collectionId answer :=
    mayAnswer_iff h h' hview fun _ hd => getsDetail_view hd collectionId answer

end Agree

end View

end VisionBill
