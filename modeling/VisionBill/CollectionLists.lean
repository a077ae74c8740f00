import VisionBill.ReceiptLists

/-!
# The receipts of a collection, in two ways

A collection can be listed by `receipts_in_collection`, and by
`list_receipts` with a filter. The join lists the receipts that the caller
may see (`listsCollection_iff`). The filter is a condition on
`receipts.id` in a statement that knows the table as `r`: the server
refuses it, whatever is asked for (`listsReceipts_collection_iff`), so the
two never agree.

A table that has an alias is not known by its name any more. So the
reference fails when names are resolved, before any row is looked at, and
it fails for every collection, every caller and every other filter. The
filter was meant to scope a listing to one collection, as the parameter of
the route says.
-/

namespace VisionBill

section Lists

variable [Lowercase] {db : Db} {caller : Caller} {collectionId : UUID} {f : ReceiptFilters}
  {limit offset : ℕ}

/-- The two lists of a collection agree: `list_receipts` succeeds, and
lists the members that match the other filters. Either list may come in
any order that its statement allows. -/
def Db.CollectionListsAgree (db : Db) (caller : Caller) (collectionId : UUID) (f : ReceiptFilters)
    (limit : ℕ) : Prop :=
  ∀ answer members,
    db.ListsReceipts caller { f with collectionId := some collectionId } limit 0 answer →
      db.ListsCollection caller collectionId (.ok members) →
        ∃ l, answer = .ok l ∧ ∀ r, r ∈ l ↔ r ∈ members ∧ f.Matches caller r

/-- What `receipts_in_collection` returns: the receipts that the caller
may see, by descending date. -/
theorem listsCollection_iff {answer : Except DbError (List ReceiptRecord)} :
    db.ListsCollection caller collectionId answer
      ↔ ∃ l, answer = .ok l ∧ Pages.Listing (fun r : ReceiptRecord => r.date)
          (db.members caller collectionId) l := by
  cases answer with
  | error e =>
    show db.selectedInCollection caller collectionId = .error e ↔ _
    rw [selectedInCollection_eq]
    exact iff_of_false (by simp) fun ⟨l, hl, _⟩ => by simp at hl
  | ok l =>
    show (∃ rows, db.selectedInCollection caller collectionId = .ok rows ∧ _) ↔ _
    rw [selectedInCollection_eq]
    constructor
    · rintro ⟨rows, hrows, hl⟩
      exact ⟨l, rfl, Except.ok.inj hrows ▸ hl⟩
    · rintro ⟨l', hl, hlisting⟩
      exact ⟨_, rfl, Except.ok.inj hl ▸ hlisting⟩

/-- What `list_receipts` does with a collection. The text of the statement
is refused before any row is looked at, whatever there is in the
database. -/
theorem listsReceipts_collection_iff (hcollection : f.collectionId = some collectionId)
    {answer : Except DbError (List ReceiptRecord)} :
    db.ListsReceipts caller f limit offset answer ↔ answer = .error .undefinedTable := by
  cases answer with
  | error e =>
    show db.selectedReceipts caller f limit offset = .error e ↔ _
    rw [selectedReceipts_collection hcollection]
    exact eq_comm
  | ok l =>
    refine iff_of_false ?_ (by simp)
    rintro ⟨rows, sorted, hrows, -⟩
    rw [selectedReceipts_collection hcollection] at hrows
    exact absurd hrows (by simp)

/-- **The two lists of a collection never agree**: one of them is always
refused. There is no database and no request for which it is not, because
the name that its text uses is not one that its `FROM` introduces. -/
theorem collectionLists_never_agree (db : Db) (caller : Caller) (collectionId : UUID)
    (f : ReceiptFilters) (limit : ℕ) :
    ¬ db.CollectionListsAgree caller collectionId f limit := by
  intro h
  obtain ⟨members, hmembers⟩ := Pages.exists_listing (fun r : ReceiptRecord => r.date)
    (db.members caller collectionId)
  obtain ⟨l, hl, -⟩ := h (.error .undefinedTable) members
    ((listsReceipts_collection_iff rfl).mpr rfl) (listsCollection_iff.mpr ⟨members, rfl, hmembers⟩)
  exact absurd hl (by simp)

end Lists

/-! ## A collection with a receipt -/

/-- A receipt in a collection of its owner. -/
def oneMember : Db :=
  { oneReceipt with
    collections := ⟨[{
      id := 1
      userId := 1
      name := "Trip"
      color := none
      startDate := none
      endDate := none
      active := false
      createdAt := 0 }], List.nodup_singleton _⟩
    links := ⟨[⟨1, 1⟩], List.nodup_singleton _⟩ }

section Example

local instance asciiLowercaseOfCollectionLists : Lowercase := asciiLowercase

/-- `receipts_in_collection` returns the receipt, and `list_receipts`
raises. One statement names the table by its alias, and the other one does
not. -/
theorem oneMember_lists_disagree :
    oneMember.ListsCollection ⟨1, false⟩ 1 (.ok [emptyRow 1 1])
      ∧ oneMember.ListsReceipts ⟨1, false⟩ { collectionId := some 1 } 50 0 (.error .undefinedTable)
      ∧ ¬ oneMember.CollectionListsAgree ⟨1, false⟩ 1 {} 50 := by
  have hmembers : oneMember.ListsCollection ⟨1, false⟩ 1 (.ok [emptyRow 1 1]) :=
    listsCollection_iff.mpr ⟨_, rfl, by decide, by decide⟩
  have hrefused : oneMember.ListsReceipts ⟨1, false⟩ { collectionId := some 1 } 50 0
      (.error .undefinedTable) :=
    (listsReceipts_collection_iff rfl).mpr rfl
  refine ⟨hmembers, hrefused, fun h => ?_⟩
  obtain ⟨l, hl, -⟩ := h _ _ hrefused hmembers
  exact absurd hl (by simp)

end Example

end VisionBill
