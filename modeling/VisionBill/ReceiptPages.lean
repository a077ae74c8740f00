import VisionBill.ReceiptLists

/-!
# Pages of the list of receipts

A client reads the receipts page after page, until one is empty. Every
page is a statement of its own, and receipts of one date come in any
order. So the pages show every receipt once if no page ends in the midst
of the receipts of one date, and only then (`pagesPartition_iff`). What
else may go wrong is an argument that cannot be sent.

Nothing is written between the requests here. All that changes from one
page to the next is the order of receipts with one date, which the
statement leaves to the server. If a page ends between two of them, the
server may list the one first for this page and the other one first for
the next, and then one of them is shown twice and the other not at all
(`oneDay_not_pagesPartition`). That this is the only thing which can
happen is a fact about pages of listings in general
(`VisionBill.Lib.Pages`).
-/

namespace VisionBill

/-- What the answers to the pages, from the first one to the first empty
one, yield together. A page that raises ends the reading, and nothing is
yielded. -/
def Yields (answers : ℕ → Except DbError (List ReceiptRecord)) (l : List ReceiptRecord) : Prop :=
  ∃ (n : ℕ) (ls : ℕ → List ReceiptRecord), (∀ k ≤ n, answers k = .ok (ls k))
    ∧ (∀ k < n, ls k ≠ []) ∧ ls n = [] ∧ l = (List.range n).flatMap ls

section Pages

variable [Lowercase] {db : Db} {caller : Caller} {f : ReceiptFilters} {limit offset : ℕ}

/-- The pages show every receipt that matches once, whatever the order is
in which the server lists the receipts of one date for a page. Each page
is a query of its own, and nothing makes the orders of two queries the
same. So all answers are considered that the server may give, page by
page. -/
def Db.PagesPartition (db : Db) (caller : Caller) (f : ReceiptFilters) (limit : ℕ) : Prop :=
  ∀ answers : ℕ → Except DbError (List ReceiptRecord),
    (∀ k, db.ListsReceipts caller f limit (k * limit) (answers k)) →
      ∃ l, Yields answers l ∧ l.Perm (db.matching caller f)

/-- The first empty page. -/
def Db.lastPage (db : Db) (caller : Caller) (f : ReceiptFilters) (limit : ℕ) : ℕ :=
  Pages.pageCount limit (db.matching caller f).length

/-- No receipt matches twice. -/
theorem nodup_matching : (db.matching caller f).Nodup :=
  (List.Nodup.of_map _ db.receipts.nodup).filter _

omit [Lowercase] in
/-- An offset that can be sent for a page can be sent for those before
it. -/
theorem ReceiptFilters.IsAccepted.mono {offset' : ℕ} (h : f.IsAccepted limit offset) (hle : offset' ≤ offset) :
    f.IsAccepted limit offset' :=
  ⟨h.1, h.2.1, hle.trans h.2.2⟩

/-- Answers to the pages until the first empty one, from listings of the
receipts that match: each page is cut from a listing of its own. -/
theorem exists_listings (hcollection : f.collectionId = none)
    {answers : ℕ → Except DbError (List ReceiptRecord)} {n : ℕ}
    (haccepted : f.IsAccepted limit (n * limit))
    (hanswers : ∀ k, db.ListsReceipts caller f limit (k * limit) (answers k)) (k : ℕ) :
    ∃ sorted, Pages.Listing (fun r : ReceiptRecord => r.date) (db.matching caller f) sorted
      ∧ (k ≤ n → answers k = .ok (Pages.page sorted limit (k * limit))) := by
  rcases Nat.lt_or_ge n k with hk | hk
  · obtain ⟨sorted, hsorted⟩ :=
      Pages.exists_listing (fun r : ReceiptRecord => r.date) (db.matching caller f)
    exact ⟨sorted, hsorted, fun hle => absurd hle (not_le.mpr hk)⟩
  · have h := hanswers k
    cases hanswer : answers k with
    | error e =>
      rw [hanswer, listsReceipts_error_iff hcollection] at h
      exact absurd (haccepted.mono (Nat.mul_le_mul_right limit hk)) h.1
    | ok l =>
      rw [hanswer, listsReceipts_ok_iff hcollection] at h
      obtain ⟨-, sorted, hsorted, hl⟩ := h
      exact ⟨sorted, hsorted, fun _ => congrArg _ hl⟩

/-- The answers to the pages, for listings of the server's choice. -/
def answersOf (f : ReceiptFilters) (limit : ℕ) (ls : ℕ → List ReceiptRecord) (k : ℕ) :
    Except DbError (List ReceiptRecord) :=
  if f.IsAccepted limit (k * limit) then .ok (Pages.page (ls k) limit (k * limit))
  else .error .dataError

/-- And any listings give such answers. -/
theorem lists_answersOf (hcollection : f.collectionId = none) {ls : ℕ → List ReceiptRecord}
    (hls : ∀ k, Pages.Listing (fun r : ReceiptRecord => r.date) (db.matching caller f) (ls k))
    (k : ℕ) : db.ListsReceipts caller f limit (k * limit) (answersOf f limit ls k) := by
  unfold answersOf
  split
  · next h => exact (listsReceipts_ok_iff hcollection).mpr ⟨h, ls k, hls k, rfl⟩
  · next h => exact (listsReceipts_error_iff hcollection).mpr ⟨h, rfl⟩

/-- What they yield are all pages that are not empty. Paging stops at the
first empty page, and its number is known from how many receipts match. -/
theorem yields_answersOf (hlimit : 1 ≤ limit) {ls : ℕ → List ReceiptRecord}
    (hls : ∀ k, Pages.Listing (fun r : ReceiptRecord => r.date) (db.matching caller f) (ls k))
    {l : List ReceiptRecord} (h : Yields (answersOf f limit ls) l) :
    f.IsAccepted limit (db.lastPage caller f limit * limit)
      ∧ l = Pages.pages ls limit (db.lastPage caller f limit) := by
  obtain ⟨n, ls', hok, hne, hempty, rfl⟩ := h
  have hpage : ∀ k ≤ n, f.IsAccepted limit (k * limit)
      ∧ ls' k = Pages.page (ls k) limit (k * limit) := by
    intro k hk
    have hk' := hok k hk
    unfold answersOf at hk'
    split at hk'
    · next h => exact ⟨h, (Except.ok.inj hk').symm⟩
    · exact absurd hk' (by simp)
  have hnil : ∀ k ≤ n, ls' k = [] ↔ db.lastPage caller f limit ≤ k := by
    intro k hk
    rw [(hpage k hk).2, Pages.page_eq_nil_iff hlimit, (hls k).perm.length_eq, Db.lastPage,
      Pages.pageCount_le_iff hlimit]
  have hn : n = db.lastPage caller f limit := by
    refine le_antisymm (not_lt.mp fun hlt => ?_) ((hnil n le_rfl).mp hempty)
    exact hne _ hlt ((hnil _ hlt.le).mpr le_rfl)
  rw [← hn]
  refine ⟨(hpage n le_rfl).1, List.flatMap_congr fun k hk => ?_⟩
  exact (hpage k (List.mem_range.mp hk).le).2

/-- **The pages show every receipt once** if all arguments can be sent and
no page ends between two receipts of one date, and only then. Otherwise
the server may choose listings for which they do not. -/
theorem pagesPartition_iff (hcollection : f.collectionId = none) (hlimit : 1 ≤ limit) :
    db.PagesPartition caller f limit
      ↔ f.IsAccepted limit (db.lastPage caller f limit * limit)
        ∧ ∀ k, ¬ Pages.Straddles (fun r : ReceiptRecord => r.date) (db.matching caller f)
            (k * limit) := by
  rw [← Pages.pages_perm_iff hlimit nodup_matching]
  constructor
  · rintro h
    have hyields : ∀ ls : ℕ → List ReceiptRecord,
        (∀ k, Pages.Listing (fun r : ReceiptRecord => r.date) (db.matching caller f) (ls k)) →
          f.IsAccepted limit (db.lastPage caller f limit * limit)
            ∧ (Pages.pages ls limit (db.lastPage caller f limit)).Perm (db.matching caller f) := by
      intro ls hls
      obtain ⟨l, hl, hperm⟩ := h _ (lists_answersOf hcollection hls)
      obtain ⟨haccepted, rfl⟩ := yields_answersOf hlimit hls hl
      exact ⟨haccepted, hperm⟩
    obtain ⟨sorted, hsorted⟩ :=
      Pages.exists_listing (fun r : ReceiptRecord => r.date) (db.matching caller f)
    exact ⟨(hyields (fun _ => sorted) fun _ => hsorted).1, fun ls hls => (hyields ls hls).2⟩
  · rintro ⟨haccepted, hpages⟩ answers hanswers
    choose ls hls hok using exists_listings hcollection haccepted hanswers
    refine ⟨_, ⟨_, fun k => Pages.page (ls k) limit (k * limit), hok, fun k hk => ?_, ?_, rfl⟩,
      hpages ls hls⟩
    · rw [Ne, Pages.page_eq_nil_iff hlimit, (hls k).perm.length_eq, not_le]
      exact (Pages.lt_pageCount_iff hlimit).mp hk
    · rw [Pages.page_eq_nil_iff hlimit, (hls _).perm.length_eq]
      exact (Pages.pageCount_le_iff hlimit).mp le_rfl

end Pages

/-! ## Two receipts -/

/-- A row of another day. -/
def laterRow (id owner : UUID) : ReceiptRecord :=
  { emptyRow id owner with date := ⟨2025, 12, 24, by decide⟩ }

/-- Two receipts of one day. -/
def oneDay : Db :=
  { Db.empty with receipts := ⟨[emptyRow 1 1, emptyRow 2 1], by decide⟩ }

/-- Receipts of two days. -/
def twoDays : Db :=
  { Db.empty with receipts := ⟨[emptyRow 1 1, laterRow 2 1], by decide⟩ }

section Example

local instance asciiLowercaseOfPages : Lowercase := asciiLowercase

/-- Pages with one receipt each, of one day each. -/
theorem twoDays_pagesPartition : twoDays.PagesPartition ⟨1, false⟩ {} 1 := by
  refine (pagesPartition_iff rfl le_rfl).mpr ⟨by decide, ?_⟩
  rintro k ⟨r, hr, hbefore, hafter⟩
  have hdays : ∀ r ∈ twoDays.matching ⟨1, false⟩ {},
      (twoDays.matching ⟨1, false⟩ {}).countP (fun r' => r.date ≤ r'.date)
        ≤ (twoDays.matching ⟨1, false⟩ {}).countP (fun r' => r.date < r'.date) + 1 := by
    decide
  exact absurd (hafter.trans_le (hdays r hr)) (not_lt.mpr (Nat.succ_le_of_lt hbefore))

/-- The two receipts change places between the pages: the first one is
shown again, and the second one is not shown. -/
theorem oneDay_not_pagesPartition : ¬ oneDay.PagesPartition ⟨1, false⟩ {} 1 := by
  intro h
  have hls : ∀ k : ℕ, Pages.Listing (fun r : ReceiptRecord => r.date)
      (oneDay.matching ⟨1, false⟩ {})
        (if k = 0 then [emptyRow 1 1, emptyRow 2 1] else [emptyRow 2 1, emptyRow 1 1]) := by
    intro k
    split
    · exact ⟨by decide, by decide⟩
    · exact ⟨by decide, by decide⟩
  obtain ⟨l, hl, hperm⟩ := h _ (lists_answersOf rfl hls)
  rw [(yields_answersOf le_rfl hls hl).2] at hperm
  have hshown : ¬ (Pages.pages
      (fun k => if k = 0 then [emptyRow 1 1, emptyRow 2 1] else [emptyRow 2 1, emptyRow 1 1]) 1
        (oneDay.lastPage ⟨1, false⟩ {} 1)).Perm (oneDay.matching ⟨1, false⟩ {}) := by
    decide
  exact hshown hperm

end Example

end VisionBill
