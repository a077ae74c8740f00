import VisionBill.Creation
import VisionBill.ReceiptLists

/-!
# The receipts of a benchmark

Without a list of receipts, a benchmark takes verified receipts from the
database up to the limit, and keeps those of a category and of a
confidence. What does not match counts against the limit, so a receipt
that does not match may displace one that does. The selection has as many
receipts as it should have if none is displaced, and only then
(`selectionHonours_iff`).

## Limit before filter

The database applies the limit and the status, and the program the other
two conditions, to what the database has returned. With ten receipts asked
for and the ten most recent ones of another category, the selection is
empty, however many there are that match. A request for all receipts has a
limit as well, of ten thousand.

## In which order

The listing is by date, and receipts of one date come in any order. So
there is not one selection but several that the database may answer with,
and what is said is said of all of them (`Db.MaySelect`). Displacing is
about such an order too: a receipt that is not admitted displaces another
one if it *may* be listed within the limit while the other one is beyond
it.
-/

namespace VisionBill

section Selection

variable [Lowercase] {db : Db} {request : BenchmarkCreate}

/-- The filters of a request: the category has to be the same, and the
confidence at most the one that is given. They are applied to the rows
that the database has listed, in the program and not in the statement. -/
def BenchmarkCreate.Admits (request : BenchmarkCreate) (row : ReceiptRecord) : Prop :=
  (∀ category ∈ request.category, row.category = category)
    ∧ ∀ c ∈ request.maxSourceConfidence, row.confidence ≤ c

instance : DecidablePred request.Admits := fun _ => inferInstanceAs (Decidable (_ ∧ _))

/-- `request.limit or 10_000`. -/
def BenchmarkCreate.selectionLimit (request : BenchmarkCreate) : ℕ := request.limit.getD 10000

/-- `status=["verified"]`. -/
def onlyVerified : ReceiptFilters := { status := some ["verified"] }

/-- What `_select_receipts` may return. The order within a date is up to
the database, and so is which receipts of the last date come within the
limit. -/
def Db.MaySelect (db : Db) (request : BenchmarkCreate) (answer : Except DbError (List UUID)) :
    Prop :=
  match request.receiptIds with
  | some ids => answer = .ok (ids.filter (fun id => db.IsVerified id))
  | none => ∃ listed, db.ListsReceipts everyone onlyVerified request.selectionLimit 0 listed
      ∧ answer = listed.map fun rows =>
        (rows.filter (fun row => request.Admits row)).map ReceiptRecord.id

/-- The receipts that are verified. -/
def Db.verifiedReceipts (db : Db) : List ReceiptRecord :=
  db.receipts.rows.filter (fun row => row.status = .verified)

/-- The selection consists of verified receipts that the filters admit,
each of them once, and of as many as there are, up to the limit. It is
asked of every answer that the database may give. -/
def Db.SelectionHonours (db : Db) (request : BenchmarkCreate) : Prop :=
  ∀ answer, db.MaySelect request answer → ∃ ids, answer = .ok ids ∧ ids.Nodup
    ∧ (∀ id ∈ ids, ∃ row ∈ db.verifiedReceipts, row.id = id ∧ request.Admits row)
    ∧ ids.length = min request.selectionLimit (db.verifiedReceipts.countP request.Admits)

/-- A receipt that is not admitted displaces another one: it may be listed
within the limit, and the other one beyond it. The limit is applied by the
database and the filters afterwards, so a newer receipt takes a place that
it does not use. Of receipts of one date it is not determined which come
within the limit, and so it is said that it may be so. -/
def Db.Displaces (db : Db) (limit : ℕ) (row row' : ReceiptRecord) : Prop :=
  db.verifiedReceipts.countP (fun r => row.date < r.date) < limit
    ∧ limit < db.verifiedReceipts.countP fun r => row'.date ≤ r.date

instance (limit : ℕ) : DecidableRel (db.Displaces limit) := fun _ _ =>
  inferInstanceAs (Decidable (_ ∧ _))

omit [Lowercase] in
theorem text_eq_verified_iff {status : ReceiptStatus} :
    status.text ∈ ["verified"] ↔ status = .verified := by
  cases status <;> decide

theorem matching_onlyVerified : db.matching everyone onlyVerified = db.verifiedReceipts := by
  refine List.filter_congr fun row _ => decide_eq_decide.mpr ?_
  constructor
  · rintro ⟨-, hstatus, -⟩
    exact text_eq_verified_iff.mp (hstatus _ rfl (List.cons_ne_nil _ _))
  · intro hstatus
    refine ⟨.inl rfl, fun l hl _ => ?_, fun d hd => absurd hd (Option.not_mem_none d),
      fun d hd => absurd hd (Option.not_mem_none d), fun s hs => absurd hs (Option.not_mem_none s)⟩
    rw [← Option.some_inj.mp hl]
    exact text_eq_verified_iff.mpr hstatus

omit [Lowercase] in
theorem isAccepted_onlyVerified {limit : ℕ} :
    onlyVerified.IsAccepted limit 0 ↔ limit ≤ int8Max := by
  have htexts : onlyVerified.IsSendable := by decide
  exact ⟨fun h => h.2.1, fun h => ⟨htexts, h, Nat.zero_le _⟩⟩

/-- What a request without receipts selects. The limit is applied to the
listed receipts, and the filters to what it has left of them, in this
order. -/
theorem maySelect_iff (hreceipts : request.receiptIds = none)
    {answer : Except DbError (List UUID)} :
    db.MaySelect request answer
      ↔ (¬ request.selectionLimit ≤ int8Max ∧ answer = .error .dataError)
        ∨ request.selectionLimit ≤ int8Max ∧ ∃ sorted,
          Pages.Listing (fun r : ReceiptRecord => r.date) db.verifiedReceipts sorted
            ∧ answer = .ok (((sorted.take request.selectionLimit).filter
              (fun row => request.Admits row)).map ReceiptRecord.id) := by
  unfold Db.MaySelect
  rw [hreceipts, ← matching_onlyVerified]
  dsimp only
  constructor
  · rintro ⟨listed, hlisted, rfl⟩
    cases listed with
    | error e =>
      obtain ⟨hlimit, rfl⟩ := (listsReceipts_error_iff rfl).mp hlisted
      exact .inl ⟨fun h => hlimit (isAccepted_onlyVerified.mpr h), rfl⟩
    | ok l =>
      obtain ⟨hlimit, sorted, hsorted, rfl⟩ := (listsReceipts_ok_iff rfl).mp hlisted
      exact .inr ⟨isAccepted_onlyVerified.mp hlimit, sorted, hsorted, rfl⟩
  · rintro (⟨hlimit, rfl⟩ | ⟨hlimit, sorted, hsorted, rfl⟩)
    · exact ⟨.error .dataError, (listsReceipts_error_iff rfl).mpr
        ⟨fun h => hlimit (isAccepted_onlyVerified.mp h), rfl⟩, rfl⟩
    · exact ⟨.ok _, (listsReceipts_ok_iff rfl).mpr
        ⟨isAccepted_onlyVerified.mpr hlimit, sorted, hsorted, rfl⟩, rfl⟩

omit [Lowercase] in
/-- Whatever is selected, it is a verified receipt that the filters admit,
and no receipt is selected twice. -/
theorem selected_spec {sorted : List ReceiptRecord} (limit : ℕ)
    (h : Pages.Listing (fun r : ReceiptRecord => r.date) db.verifiedReceipts sorted) :
    (((sorted.take limit).filter (fun row => request.Admits row)).map ReceiptRecord.id).Nodup
      ∧ ∀ id ∈ ((sorted.take limit).filter (fun row => request.Admits row)).map ReceiptRecord.id,
          ∃ row ∈ db.verifiedReceipts, row.id = id ∧ request.Admits row := by
  constructor
  · have hnodup : (sorted.map ReceiptRecord.id).Nodup :=
      (h.perm.map ReceiptRecord.id).nodup_iff.mpr
        (db.receipts.nodup.sublist (List.filter_sublist.map _))
    exact hnodup.sublist ((List.filter_sublist.trans (List.take_sublist _ _)).map _)
  · intro id hid
    obtain ⟨row, hrow, rfl⟩ := List.mem_map.mp hid
    obtain ⟨hmem, hadmits⟩ := List.mem_filter.mp hrow
    exact ⟨row, h.perm.mem_iff.mp (List.mem_of_mem_take hmem), rfl, of_decide_eq_true hadmits⟩

/-- **The selection honours its filters and its limit** if the limit can
be sent and no receipt displaces one that should be selected, and only
then. The query cuts the list off before the filters are applied, so a
receipt that the filters reject can take the place of one that they
admit. -/
theorem selectionHonours_iff (hreceipts : request.receiptIds = none) :
    db.SelectionHonours request
      ↔ request.selectionLimit ≤ int8Max
        ∧ ∀ row ∈ db.verifiedReceipts, ∀ row' ∈ db.verifiedReceipts,
            ¬ request.Admits row → request.Admits row' →
              ¬ db.Displaces request.selectionLimit row row' := by
  have hnodup : db.verifiedReceipts.Nodup :=
    (List.Nodup.of_map _ db.receipts.nodup).filter _
  -- cutting first and filtering then gives enough exactly if nothing is displaced
  have hfirst := Pages.first_filter_iff (fun r : ReceiptRecord => r.date) hnodup
    (fun row => request.Admits row) request.selectionLimit
  constructor
  · intro h
    have hlimit : request.selectionLimit ≤ int8Max := by
      by_contra hlimit
      obtain ⟨ids, hids, -⟩ := h _ ((maySelect_iff hreceipts).mpr (.inl ⟨hlimit, rfl⟩))
      exact absurd hids (by simp)
    have hlengths := hfirst.mp fun sorted hsorted => by
      obtain ⟨ids, hids, -, -, hlength⟩ :=
        h _ ((maySelect_iff hreceipts).mpr (.inr ⟨hlimit, sorted, hsorted, rfl⟩))
      rw [← Except.ok.inj hids, List.length_map] at hlength
      exact hlength
    refine ⟨hlimit, fun row hrow row' hrow' hnot hadmits hdisplaces => ?_⟩
    rcases hlengths row hrow row' hrow' (decide_eq_false hnot) (decide_eq_true hadmits)
      with hmany | hfew
    · exact absurd hdisplaces.1 (not_lt.mpr hmany)
    · exact absurd hdisplaces.2 (not_lt.mpr hfew)
  · rintro ⟨hlimit, hkept⟩ answer hanswer
    rcases (maySelect_iff hreceipts).mp hanswer with ⟨hnot, -⟩ | ⟨-, sorted, hsorted, rfl⟩
    · exact absurd hlimit hnot
    obtain ⟨hdistinct, hadmitted⟩ := selected_spec request.selectionLimit hsorted
    refine ⟨_, rfl, hdistinct, hadmitted, ?_⟩
    rw [List.length_map]
    refine hfirst.mpr (fun row hrow row' hrow' hnot hadmits => ?_) sorted hsorted
    have := hkept row hrow row' hrow' (of_decide_eq_false hnot) (of_decide_eq_true hadmits)
    rcases not_and_or.mp this with h | h
    · exact .inl (not_lt.mp h)
    · exact .inr (not_lt.mp h)

omit [Lowercase] in
/-- Receipts that are sorted by a database that keeps equal ones in
order. -/
theorem listing_orderBy (rows : List ReceiptRecord) :
    Pages.Listing (fun r : ReceiptRecord => r.date) rows
      (orderBy (fun a b => b.date ≤ a.date) rows) := by
  have htotal : Std.Total fun a b : ReceiptRecord => b.date ≤ a.date :=
    ⟨fun a b => le_total b.date a.date⟩
  have htrans : IsTrans ReceiptRecord fun a b => b.date ≤ a.date :=
    ⟨fun a b c hab hbc => hbc.trans hab⟩
  exact ⟨perm_orderBy _ _, List.pairwise_insertionSort _ _⟩

/-- One of the answers is that of a database that keeps receipts of one
date in their order. -/
theorem maySelect_selectReceipts (hlimit : request.selectionLimit ≤ int8Max) :
    db.MaySelect request (.ok (db.selectReceipts request)) := by
  cases hreceipts : request.receiptIds with
  | some ids =>
    unfold Db.MaySelect Db.selectReceipts
    rw [hreceipts]
  | none =>
    refine (maySelect_iff hreceipts).mpr (.inr ⟨hlimit,
      orderBy (fun a b => b.date ≤ a.date) db.verifiedReceipts, listing_orderBy _, ?_⟩)
    unfold Db.selectReceipts
    rw [hreceipts]
    rfl

end Selection

/-! ## A newer receipt of another category -/

/-- A request for one grocery receipt. -/
def groceryRequest : BenchmarkCreate :=
  { receiptRequest [] with
    modelIds := none
    receiptIds := none
    category := some "grocery"
    limit := some 1
    limit_pos := fun _ h => Nat.le_of_eq (Option.mem_some_iff.mp h) }

/-- A verified receipt. -/
def verifiedRow (id : UUID) (category : String) (date : Date) : ReceiptRecord :=
  { emptyRow id 1 with
    status := .verified
    verified := true
    category := category
    date := date }

/-- A grocery receipt and a receipt of a restaurant, with their dates. -/
def groceryAndRestaurant (grocery restaurant : Date) : Db :=
  { Db.empty with
    receipts := ⟨[verifiedRow 1 "grocery" grocery, verifiedRow 2 "restaurant" restaurant],
      show [1, 2].Nodup by decide⟩ }

section Example

local instance asciiLowercaseOfSelection : Lowercase := asciiLowercase

/-- The grocery receipt is the newer one. -/
theorem newerGrocery_selectionHonours :
    (groceryAndRestaurant ⟨2025, 5, 2, by decide⟩ ⟨2025, 5, 1, by decide⟩).SelectionHonours
      groceryRequest :=
  (selectionHonours_iff rfl).mpr (by decide)

/-- The restaurant is the newer one: nothing is selected, where one
receipt matches. -/
theorem olderGrocery_not_selectionHonours :
    ¬ (groceryAndRestaurant ⟨2025, 5, 1, by decide⟩ ⟨2025, 5, 2, by decide⟩).SelectionHonours
      groceryRequest := by
  intro h
  obtain ⟨ids, hids, -, -, hlength⟩ := h _ (maySelect_selectReceipts (by decide))
  rw [← Except.ok.inj hids] at hlength
  exact absurd hlength (by decide)

end Example

end VisionBill
