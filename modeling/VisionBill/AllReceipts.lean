import VisionBill.Lib.MovingPages
import VisionBill.Lib.Program
import VisionBill.ReceiptPages
import VisionBill.Statistics

/-!
# All receipts

The page with the receipts wants all of them, and the server gives at most
500 at a time. So the client asks for one page after another until one is
not full (`fetchAllReceipts`). Others go on working meanwhile: receipts
are added and deleted, verified and edited between the requests.

What the client has in the end is related to what there was in the
beginning (`fetchAllReceipts_spec`): if no receipt goes away or changes
its date, none is missing; if none is added or changes its date, none is
there twice. This is so as long as the receipts of one day are not torn
apart by the end of a page, since the server lists them in any order.

## Why positions move

A page is asked for by its position. A receipt that is added in front
moves all others back by one, so the last one of a page is the first one
of the next: it is there twice. One that is deleted moves them forward,
and one is skipped. So additions alone lose nothing and deletions alone
repeat nothing, which is what the library shows for pages of any list that
changes (`VisionBill.Lib.MovingPages`). Here the list is that of the
receipts which match, in the order of their dates, and what identifies a
receipt in it is its identifier together with its date: one that changes
its date goes away at one place and comes in at another.

## The end of the loop

The loop has no bound of its own. It ends with the first page that is not
full, and that comes as soon as fewer receipts match than the client has
asked for. With others adding receipts as fast as it reads, it would go
on; how many requests are looked at is a parameter, and the statement says
what follows if they are used up.
-/

namespace VisionBill

/-! ## The client

The loop asks for one page after another and stops at the first that is
not full. It is a program over one operation, so that what happens between
two requests is up to the run and not to the loop. The source has no bound
on the number of requests; here it has as many as the fuel, and running
out of it is an outcome of its own. -/

/-- `PAGE_SIZE`. -/
def pageSize : ℕ := 500

/-- A request of the client. There is one kind, and what answers it is the
database as it is when the request arrives. -/
inductive ReceiptsOp
  | listReceipts (caller : Caller) (filters : ReceiptFilters) (limit offset : ℕ)

/-- What it returns. -/
def ReceiptsOp.Ret : ReceiptsOp → Type
  | .listReceipts _ _ _ _ => List ReceiptRecord

/-- Why the client has no receipts. The source knows only the first
reason; the second stands for a loop that has not ended within the fuel of
the model. -/
inductive FetchError
  | api (e : DbError)
  /-- The model has stopped looking; the client would go on. -/
  | outOfFuel
  deriving DecidableEq

/-- The loop of `fetchAllReceipts`, for a number of rounds at most. The
source has no such number. -/
def fetchFrom (caller : Caller) (filters : ReceiptFilters) :
    ℕ → List ReceiptRecord → ℕ → Program ReceiptsOp.Ret FetchError (List ReceiptRecord)
  | 0, _, _ => throw .outOfFuel
  | fuel + 1, receipts, offset => do
    let page : List ReceiptRecord ←
      Program.perform (.listReceipts caller filters pageSize offset)
    let receipts := receipts ++ page
    if page.length < pageSize then return receipts
    fetchFrom caller filters fuel receipts (offset + pageSize)

/-- `fetchAllReceipts`. The loop of the source has no bound; here it gets
fuel, and to run out of it is an outcome of its own. -/
def fetchAllReceipts (caller : Caller) (filters : ReceiptFilters) (fuel : ℕ) :
    Program ReceiptsOp.Ret FetchError (List ReceiptRecord) :=
  fetchFrom caller filters fuel [] 0

/-! ## The server

Each request is answered from the database as it is then. Between two
requests anything may have been committed, and a request may be answered
with the receipts of one day in any order, since the statement orders by
the date alone. -/

section Server

variable [Lowercase]

instance (rows l : List ReceiptRecord) :
    Decidable (Pages.Listing (fun r : ReceiptRecord => r.date) rows l) :=
  decidable_of_iff (l.Perm rows ∧ l.Pairwise fun a b => b.date ≤ a.date)
    ⟨fun h => ⟨h.1, h.2⟩, fun h => ⟨h.perm, h.sorted⟩⟩

/-- What a request does not control: what is committed before it, and the
order in which the server has the receipts of one day. Both may differ
from one request to the next. -/
structure PageChoice where
  commits : List (Db → Db)
  sorted : List ReceiptRecord

/-- A request, after what others have committed since the last one. The
rows of a day come in any order, which is part of the choice: the
statement sorts by the date only. -/
def ReceiptsOp.exec (db : Db) (op : ReceiptsOp) (c : PageChoice) :
    Option (Db × Except FetchError op.Ret) :=
  match op with
  | .listReceipts caller f limit offset =>
    match (db.committed c.commits).selectedReceipts caller f limit offset with
    | .error e => some (db.committed c.commits, .error (.api e))
    | .ok rows =>
      if Pages.Listing (fun r : ReceiptRecord => r.date) rows c.sorted then
        some (db.committed c.commits, .ok (Pages.page c.sorted limit offset))
      else none

/-- The state that a request sees. It is the database after all commits up
to the request, and a page is always one of a single such state. -/
def seenBy (db : Db) (choices : List PageChoice) (request : ℕ) : Db :=
  snapshot db (choices.map PageChoice.commits) request

variable {caller : Caller} {f : ReceiptFilters} {db db' : Db} {choices : List PageChoice}

omit [Lowercase] in
theorem seenBy_zero (c : PageChoice) : seenBy db (c :: choices) 0 = db.committed c.commits := by
  show db.committed ([c.commits].flatten) = _
  rw [List.flatten_singleton]

omit [Lowercase] in
theorem seenBy_succ (c : PageChoice) (k : ℕ) :
    seenBy db (c :: choices) (k + 1) = seenBy (db.committed c.commits) choices k := by
  show db.committed ((c.commits :: (choices.map PageChoice.commits).take (k + 1)).flatten) = _
  rw [List.flatten_cons]
  exact List.foldl_append

/-- The answers that the client has got, page after page. Each is a page
of the list as it was at its request. -/
structure PagesRead (caller : Caller) (f : ReceiptFilters) (db : Db) (choices : List PageChoice)
    (offset : ℕ) (ps : List (List ReceiptRecord)) : Prop where
  length : ps.length ≤ choices.length
  page : ∀ k p, ps[k]? = some p →
    (seenBy db choices k).ListsReceipts caller f pageSize (offset + k * pageSize) (.ok p)

/-- How the loop may end, after a number of requests: with a page that is
not full, with an error, or because its rounds are used up. -/
inductive Fetched (fuel requests : ℕ) (receipts : List ReceiptRecord)
    (ps : List (List ReceiptRecord)) : Except FetchError (List ReceiptRecord) → Prop
  | done (all : List ReceiptRecord) (h : Pages.readAll pageSize ps = some all)
      (hlength : ps.length = requests) : Fetched fuel requests receipts ps (.ok (receipts ++ all))
  | failed (e : DbError) : Fetched fuel requests receipts ps (.error (.api e))
  | going (hlength : ps.length = fuel) (hfull : ∀ p ∈ ps, pageSize ≤ p.length) :
    Fetched fuel requests receipts ps (.error .outOfFuel)

/-- One round of the loop. Whatever was committed before it, the answer is
a page of the list as it is then, or an error of the server. -/
theorem exec_listReceipts {limit offset : ℕ} {c : PageChoice}
    {r : Except FetchError (List ReceiptRecord)}
    (h : ReceiptsOp.exec db (.listReceipts caller f limit offset) c = some (db', r)) :
    db' = db.committed c.commits
      ∧ ((∃ e, r = .error (.api e))
        ∨ ∃ p, r = .ok p ∧ db'.ListsReceipts caller f limit offset (.ok p)) := by
  unfold ReceiptsOp.exec at h
  dsimp only at h
  split at h
  · next e _ =>
    obtain ⟨rfl, rfl⟩ := Prod.mk.inj (Option.some.inj h)
    exact ⟨rfl, .inl ⟨e, rfl⟩⟩
  · next rows hrows =>
    split at h
    · next hsorted =>
      obtain ⟨rfl, rfl⟩ := Prod.mk.inj (Option.some.inj h)
      exact ⟨rfl, .inr ⟨_, rfl, rows, c.sorted, hrows, hsorted, rfl⟩⟩
    · exact absurd h (by simp)

/-- **What the loop does**: it reads page after page. Anything may be
committed between two of its requests, so `PagesRead` takes each page from
the database of its own request. The induction is on the rounds that are
left. -/
theorem run_fetchFrom {fuel : ℕ} {receipts : List ReceiptRecord} {offset : ℕ}
    {r : Except FetchError (List ReceiptRecord)}
    (h : (fetchFrom caller f fuel receipts offset).run ReceiptsOp.exec choices db
      = some (db', r)) :
    ∃ ps, PagesRead caller f db choices offset ps ∧ Fetched fuel choices.length receipts ps r := by
  induction fuel generalizing receipts offset choices db with
  | zero =>
    obtain ⟨-, -, rfl⟩ := Program.run_throw h
    exact ⟨[], ⟨Nat.zero_le _, fun k p hp => absurd hp (by simp)⟩, .going rfl (by simp)⟩
  | succ fuel ih =>
    obtain ⟨c, cs, rfl, ⟨db₁, answer, hexec, hrest⟩ | ⟨e, hexec, -, rfl⟩⟩ :=
      Program.run_perform_bind h
    · obtain ⟨rfl, ⟨e, he⟩ | ⟨p, hp, hlists⟩⟩ := exec_listReceipts hexec
      · exact absurd he (by simp)
      obtain rfl := (Except.ok.inj hp).symm
      have hfirst : (seenBy db (c :: cs) 0).ListsReceipts caller f pageSize
          (offset + 0 * pageSize) (.ok p) := by
        rw [seenBy_zero, Nat.zero_mul, Nat.add_zero]
        exact hlists
      dsimp only at hrest
      split at hrest
      · next hshort =>
        obtain ⟨rfl, -, rfl⟩ := Program.run_pure hrest
        refine ⟨[p], ⟨le_rfl, fun k q hq => ?_⟩, .done p ?_ rfl⟩
        · obtain ⟨hk, rfl⟩ := List.getElem?_eq_some_iff.mp hq
          obtain rfl : k = 0 := Nat.lt_one_iff.mp hk
          exact hfirst
        · show (if p.length < pageSize then some p else _) = some p
          rw [if_pos hshort]
      · next hfull =>
        obtain ⟨ps, hps, hfetched⟩ := ih hrest
        -- the pages behind this one were read from later states
        refine ⟨p :: ps, ⟨Nat.succ_le_succ hps.length, fun k q hq => ?_⟩, ?_⟩
        · cases k with
          | zero =>
            obtain rfl := Option.some.inj hq
            exact hfirst
          | succ k =>
            rw [seenBy_succ, Nat.succ_mul, Nat.add_comm (k * pageSize), ← Nat.add_assoc]
            exact hps.page k q hq
        · cases hfetched with
          | done all hall hlength =>
            rw [List.append_assoc]
            refine .done (p ++ all) ?_ (congrArg Nat.succ hlength)
            show (if p.length < pageSize then _ else _) = some (p ++ all)
            rw [if_neg hfull, hall]
            rfl
          | failed e => exact .failed e
          | going hlength hall =>
            exact .going (congrArg Nat.succ hlength)
              (List.forall_mem_cons.mpr ⟨not_lt.mp hfull, hall⟩)
    · obtain ⟨-, ⟨e', he⟩ | ⟨p, hp, -⟩⟩ := exec_listReceipts hexec
      · obtain rfl := Except.error.inj he
        exact ⟨[], ⟨Nat.zero_le _, fun k p hp => absurd hp (by simp)⟩, .failed e'⟩
      · exact absurd hp (by simp)

/-! ## What the client has in the end

The pages are compared with the receipts that matched at the first
request. Of a list that is cut in the midst of a day nothing can be said,
since the next page may begin with any receipt of that day; so the
condition is that pages end where days end. -/

/-- What identifies a receipt in a list by dates. A receipt whose date is
edited is another entry of the list. -/
def ReceiptRecord.dated (r : ReceiptRecord) : UUID × Date := (r.id, r.date)

/-- The receipts that match, and their dates. -/
def Db.datedMatching (db : Db) (caller : Caller) (f : ReceiptFilters) : List (UUID × Date) :=
  (db.matching caller f).map ReceiptRecord.dated

/-- The receipts of one day are not torn apart by the end of a page, when
the page is asked for. Otherwise the server may put any of them before the
end and any behind it, and choose anew for the next page. -/
def DaysTogether (caller : Caller) (f : ReceiptFilters) (db : Db) (choices : List PageChoice) :
    Prop :=
  ∀ k < choices.length, ∀ position ∈ [k * pageSize, (k + 1) * pageSize],
    ¬ Pages.Straddles (fun r : ReceiptRecord => r.date) ((seenBy db choices k).matching caller f)
      position

/-- A page of receipts that match. -/
theorem exists_listing_of_lists {offset : ℕ} {p : List ReceiptRecord}
    (h : db.ListsReceipts caller f pageSize offset (.ok p)) :
    ∃ l, Pages.Listing (fun r : ReceiptRecord => r.date) (db.matching caller f) l
      ∧ p = Pages.page l pageSize offset := by
  cases hcollection : f.collectionId with
  | none => exact ((listsReceipts_ok_iff hcollection).mp h).2
  | some collectionId =>
    obtain ⟨rows, -, hrows, -⟩ := h
    exact absurd ((selectedReceipts_collection hcollection).symm.trans hrows) (by simp)

/-- The client reads pages of rows that change. This hands the loop over
to the library, which knows nothing of requests: it sees one list for each
page. -/
theorem PagesRead.read {ps : List (List ReceiptRecord)} (h : PagesRead caller f db choices 0 ps)
    (hdays : DaysTogether caller f db choices) :
    Pages.Read (fun r : ReceiptRecord => r.date) pageSize
      (fun k => (seenBy db choices k).matching caller f) ps where
  nodup _ := nodup_matching
  page k p hp := by
    have hlists := h.page k p hp
    rw [Nat.zero_add] at hlists
    exact exists_listing_of_lists hlists
  start k hk := hdays k (hk.trans_le h.length) _ List.mem_cons_self
  stop k hk := by
    rw [← Nat.succ_mul]
    exact hdays k (hk.trans_le h.length) _ (List.mem_cons_of_mem _ (List.mem_singleton_self _))

/-- The ids of what matches, by way of what identifies it. -/
theorem map_fst_datedMatching :
    (db.datedMatching caller f).map Prod.fst
      = (db.matching caller f).map ReceiptRecord.id := by
  unfold Db.datedMatching
  rw [List.map_map]
  rfl

theorem nodup_ids_matching : ((db.matching caller f).map ReceiptRecord.id).Nodup :=
  db.receipts.nodup.sublist (List.filter_sublist.map _)

theorem nodup_datedMatching : (db.datedMatching caller f).Nodup :=
  List.Nodup.of_map Prod.fst (map_fst_datedMatching ▸ nodup_ids_matching)

/-- And so it reads what identifies the rows. -/
theorem PagesRead.readDated {ps : List (List ReceiptRecord)}
    (h : PagesRead caller f db choices 0 ps) (hdays : DaysTogether caller f db choices) :
    Pages.Read Prod.snd pageSize (fun k => (seenBy db choices k).datedMatching caller f)
      (ps.map (List.map ReceiptRecord.dated)) :=
  Pages.Read.map (h.read hdays) fun _ => nodup_datedMatching

/-- A full page has at most as many receipts as match. So a client that
still has full pages has read no more than there is, which bounds its
requests. -/
theorem PagesRead.le_of_full {ps : List (List ReceiptRecord)}
    (h : PagesRead caller f db choices 0 ps) {k : ℕ} {p : List ReceiptRecord}
    (hp : ps[k]? = some p) (hfull : pageSize ≤ p.length) :
    (k + 1) * pageSize ≤ ((seenBy db choices k).matching caller f).length := by
  have hlists := h.page k p hp
  rw [Nat.zero_add] at hlists
  obtain ⟨l, hl, rfl⟩ := exists_listing_of_lists hlists
  unfold Pages.page at hfull
  rw [List.length_take, List.length_drop, hl.perm.length_eq] at hfull
  rw [Nat.succ_mul]
  have hpos : 0 < pageSize := by decide
  omega

omit [Lowercase] in
/-- What the client has in the end, by way of what identifies it. -/
theorem readAll_dated {ps : List (List ReceiptRecord)} {all : List ReceiptRecord}
    (h : Pages.readAll pageSize ps = some all) :
    Pages.readAll pageSize (ps.map (List.map ReceiptRecord.dated))
      = some (all.map ReceiptRecord.dated) := by
  rw [Pages.readAll_map, h]
  rfl

/-- **All receipts**: if none that matches goes away or changes its date
while the client asks, none that was there from the beginning is missing;
if none is added or changes its date, none is there twice, and none that
was not there; and if nothing changes, the client has what matches, once
each, after one request for every 500 and one more. The client asks in
vain only as long as there are more receipts than it has asked for. -/
theorem fetchAllReceipts_spec {fuel : ℕ} {r : Except FetchError (List ReceiptRecord)}
    (hrun : (fetchAllReceipts caller f fuel).run ReceiptsOp.exec choices db = some (db', r))
    (hdays : DaysTogether caller f db choices) :
    (∀ all, r = .ok all →
        ((∀ k, (seenBy db choices k).datedMatching caller f
            ⊆ (seenBy db choices (k + 1)).datedMatching caller f) →
          ∀ receipt ∈ (seenBy db choices 0).matching caller f, receipt.id ∈ all.map ReceiptRecord.id)
        ∧ ((∀ k, (seenBy db choices (k + 1)).datedMatching caller f
            ⊆ (seenBy db choices k).datedMatching caller f) →
          (all.map ReceiptRecord.id).Nodup
            ∧ ∀ receipt ∈ all, ∃ receipt' ∈ (seenBy db choices 0).matching caller f,
                receipt'.id = receipt.id)
        ∧ ((∀ k, ((seenBy db choices k).matching caller f).Perm (db.matching caller f)) →
          all.Perm (db.matching caller f)
            ∧ choices.length = (db.matching caller f).length / pageSize + 1))
      ∧ (r = .error .outOfFuel →
        fuel = 0 ∨ ∃ k, fuel * pageSize ≤ ((seenBy db choices k).matching caller f).length) := by
  obtain ⟨ps, hps, hfetched⟩ := run_fetchFrom hrun
  have hdated := hps.readDated hdays
  constructor
  · rintro all rfl
    cases hfetched with
    | done all hall hlength =>
      rw [List.nil_append]
      refine ⟨fun hgrow receipt hreceipt => ?_, fun hshrink => ?_, fun hsame => ?_⟩
      · have hmem := hdated.subset_of_growing (readAll_dated hall) hgrow
          (List.mem_map_of_mem hreceipt)
        obtain ⟨receipt', hreceipt', heq⟩ := List.mem_map.mp hmem
        exact List.mem_map.mpr ⟨receipt', hreceipt', congrArg Prod.fst heq⟩
      · obtain ⟨hnodup, hsub⟩ := hdated.nodup_of_shrinking (readAll_dated hall) hshrink
        have hids : all.map ReceiptRecord.id = (all.map ReceiptRecord.dated).map Prod.fst := by
          rw [List.map_map]
          rfl
        -- what is read once with its date might be there twice with two dates
        have hinj : ∀ x ∈ all.map ReceiptRecord.dated, ∀ y ∈ all.map ReceiptRecord.dated,
            x.1 = y.1 → x = y := fun x hx y hy heq =>
          List.inj_on_of_nodup_map (map_fst_datedMatching ▸ nodup_ids_matching) (hsub hx)
            (hsub hy) heq
        refine ⟨hids ▸ List.Nodup.map_on hinj hnodup, fun receipt hreceipt => ?_⟩
        obtain ⟨receipt', hreceipt', heq⟩ :=
          List.mem_map.mp (hsub (List.mem_map_of_mem hreceipt))
        exact ⟨receipt', hreceipt', congrArg Prod.fst heq⟩
      · have hread : Pages.Read (fun r : ReceiptRecord => r.date) pageSize
            (fun _ => db.matching caller f) ps := (hps.read hdays).of_perm hsame
        rw [← hlength]
        exact ⟨hread.perm_of_const hall, hread.length_of_const hall⟩
  · rintro rfl
    cases hfetched with
    | going hlength hfull =>
      cases fuel with
      | zero => exact .inl rfl
      | succ n =>
        have hn : n < ps.length := by rw [hlength]; exact Nat.lt_succ_self n
        exact .inr ⟨n, hps.le_of_full (List.getElem?_eq_getElem hn)
          (hfull _ (List.getElem_mem hn))⟩

end Server

/-! ## 501 receipts

Two requests are needed, and between them a receipt is stored that is
older than all others. All that matched at first are in the result
nevertheless. -/

section Witness

local instance asciiLowercaseOfAllReceipts : Lowercase := asciiLowercase

/-- The receipts of a user on one day, with ids from a first one on. -/
def receiptsOn (date : Date) (first n : ℕ) : List ReceiptRecord :=
  (List.range' first n).map fun id => { emptyRow id 1 with date := date }

/-- The last day of a year. -/
def newYearsEve : Date := ⟨2025, 12, 31, by decide⟩

/-- A page full of receipts of New Year's Eve, and some of the year
before. -/
def aboutNewYear (n : ℕ) : List ReceiptRecord :=
  receiptsOn newYearsEve 1 pageSize ++ receiptsOn emptyFields.date (pageSize + 1) n

theorem ids_aboutNewYear (n : ℕ) :
    (aboutNewYear n).map ReceiptRecord.id = List.range' 1 (pageSize + n) := by
  have hids : ∀ date first n, (receiptsOn date first n).map ReceiptRecord.id = List.range' first n := by
    intro date first n
    unfold receiptsOn
    rw [List.map_map]
    exact List.map_id _
  unfold aboutNewYear
  rw [List.map_append, hids, hids, Nat.add_comm pageSize 1, List.range'_append_1]

/-- The database with these receipts. -/
def newYearDb (n : ℕ) : Db :=
  { Db.empty with receipts := ⟨aboutNewYear n, ids_aboutNewYear n ▸ List.nodup_range' 1⟩ }

/-- All of them match. -/
theorem matching_newYearDb (n : ℕ) :
    (newYearDb n).matching ⟨1, false⟩ {} = aboutNewYear n := by
  refine List.filter_eq_self.mpr fun receipt hreceipt => decide_eq_true ?_
  have howner : receipt.userId = some 1 := by
    rcases List.mem_append.mp hreceipt with hmem | hmem
    all_goals
      obtain ⟨id, -, rfl⟩ := List.mem_map.mp hmem
      rfl
  exact ⟨.inr howner, nofun, nofun, nofun, nofun⟩

/-- They are counted day by day. There are two days only, and of each all
receipts agree on whether their date is counted. -/
theorem countP_aboutNewYear (p : Date → Bool) (n : ℕ) :
    (aboutNewYear n).countP (fun r => p r.date)
      = (if p newYearsEve then pageSize else 0) + if p emptyFields.date then n else 0 := by
  have hday : ∀ date first n, (receiptsOn date first n).countP (fun r => p r.date)
      = if p date then n else 0 := by
    intro date first n
    unfold receiptsOn
    rw [List.countP_map]
    split
    · next h => exact (List.countP_eq_length.mpr fun id _ => h).trans List.length_range'
    · next h => exact List.countP_eq_zero.mpr fun id _ => h
  unfold aboutNewYear
  rw [List.countP_append, hday, hday]

/-- No day straddles the end of the full page, nor what lies behind all:
the page ends where the one day does. -/
theorem not_straddles_aboutNewYear {n position : ℕ}
    (h : position = 0 ∨ position = pageSize ∨ pageSize + n ≤ position) :
    ¬ Pages.Straddles (fun r : ReceiptRecord => r.date) (aboutNewYear n) position := by
  rintro ⟨receipt, hreceipt, hbefore, hafter⟩
  rw [countP_aboutNewYear fun d => receipt.date < d] at hbefore
  rw [countP_aboutNewYear fun d => receipt.date ≤ d] at hafter
  have hdate : receipt.date = newYearsEve ∨ receipt.date = emptyFields.date := by
    rcases List.mem_append.mp hreceipt with hmem | hmem
    · obtain ⟨id, -, rfl⟩ := List.mem_map.mp hmem
      exact .inl rfl
    · obtain ⟨id, -, rfl⟩ := List.mem_map.mp hmem
      exact .inr rfl
  have hlt : emptyFields.date < newYearsEve := by decide
  rcases hdate with heq | heq
  · simp only [heq, lt_irrefl, le_refl, hlt.not_gt, hlt.not_ge] at hbefore hafter
    simp at hbefore hafter
    omega
  · simp only [heq, lt_irrefl, le_refl, hlt, hlt.le] at hbefore hafter
    simp at hbefore hafter
    omega

/-- A page of the server, in the order that it has chosen. -/
theorem exec_of_listing {db db' : Db} {c : PageChoice} {offset : ℕ} {page : List ReceiptRecord}
    (hcommitted : db.committed c.commits = db') (hoffset : offset ≤ int8Max)
    (hsorted : Pages.Listing (fun r : ReceiptRecord => r.date) (db'.matching ⟨1, false⟩ {}) c.sorted)
    (hpage : Pages.page c.sorted pageSize offset = page) :
    ReceiptsOp.exec db (.listReceipts ⟨1, false⟩ {} pageSize offset) c = some (db', .ok page) := by
  have haccepted : (({} : ReceiptFilters)).IsAccepted pageSize offset :=
    ⟨⟨nofun, nofun⟩, by decide, hoffset⟩
  unfold ReceiptsOp.exec
  dsimp only
  rw [hcommitted, selectedReceipts_eq rfl, if_pos haccepted]
  dsimp only
  rw [if_pos hsorted, hpage]

/-- One round of the client. -/
theorem run_fetchFrom_page {db db' : Db} {c : PageChoice} {cs : List PageChoice} {fuel offset : ℕ}
    {receipts page : List ReceiptRecord}
    (hexec : ReceiptsOp.exec db (.listReceipts ⟨1, false⟩ {} pageSize offset) c
      = some (db', .ok page)) :
    (fetchFrom ⟨1, false⟩ {} (fuel + 1) receipts offset).run ReceiptsOp.exec (c :: cs) db
      = Program.run ReceiptsOp.exec (if page.length < pageSize then pure (receipts ++ page)
        else fetchFrom ⟨1, false⟩ {} fuel (receipts ++ page) (offset + pageSize)) cs db' := by
  show (ReceiptsOp.exec db _ c).bind _ = _
  rw [hexec]
  rfl

/-- A receipt of the year before is stored. -/
def storeReceipt (db : Db) : Db :=
  { db with receipts := (db.receipts.insert (emptyRow 502 1)).getD db.receipts }

/-- It is stored between the two requests, and listed before the other one
of its day. -/
def storedBetween : List PageChoice :=
  [⟨[], aboutNewYear 1⟩,
    ⟨[storeReceipt], receiptsOn newYearsEve 1 pageSize ++ [emptyRow 502 1, emptyRow 501 1]⟩]

theorem storeReceipt_newYearDb : storeReceipt (newYearDb 1) = newYearDb 2 := by
  have hinsert : (newYearDb 1).receipts.insert (emptyRow 502 1) = some (newYearDb 2).receipts := by
    refine Table.insert_eq_some_iff.mpr ⟨?_, ?_⟩
    · show 502 ∉ (aboutNewYear 1).map ReceiptRecord.id
      rw [ids_aboutNewYear, List.mem_range'_1]
      decide
    · show receiptsOn newYearsEve 1 pageSize ++ receiptsOn emptyFields.date (pageSize + 1) 2
        = aboutNewYear 1 ++ [emptyRow 502 1]
      exact (List.append_assoc _ (receiptsOn emptyFields.date (pageSize + 1) 1) _).symm
  unfold storeReceipt
  rw [hinsert]
  rfl

theorem listing_aboutNewYear {n : ℕ} {l : List ReceiptRecord}
    (hperm : l.Perm (receiptsOn emptyFields.date (pageSize + 1) n)) :
    Pages.Listing (fun r : ReceiptRecord => r.date) (aboutNewYear n)
      (receiptsOn newYearsEve 1 pageSize ++ l) := by
  have hdate : ∀ {date first n}, ∀ r ∈ receiptsOn date first n, r.date = date := by
    intro date first n r hr
    obtain ⟨id, -, rfl⟩ := List.mem_map.mp hr
    rfl
  have hold : ∀ r ∈ l, r.date = emptyFields.date := fun r hr => hdate r (hperm.mem_iff.mp hr)
  refine ⟨hperm.append_left _, List.pairwise_append.mpr ⟨?_, ?_, fun a ha b hb => ?_⟩⟩
  · exact List.pairwise_of_forall_mem_list fun a ha b hb => (hdate a ha ▸ hdate b hb).le
  · exact List.pairwise_of_forall_mem_list fun a ha b hb => (hold a ha ▸ hold b hb).le
  · rw [hdate a ha, hold b hb]
    decide

theorem seenBy_first : seenBy (newYearDb 1) storedBetween 0 = newYearDb 1 := rfl

/-- Every request but the first one sees the new receipt. -/
theorem seenBy_later (k : ℕ) : seenBy (newYearDb 1) storedBetween (k + 1) = newYearDb 2 := by
  unfold storedBetween
  rw [seenBy_succ]
  cases k with
  | zero => exact (seenBy_zero _).trans storeReceipt_newYearDb
  | succ k =>
    rw [seenBy_succ]
    exact storeReceipt_newYearDb

/-- **A receipt is stored between two requests**, and none of the 501 that
were there is missing. There are two pages. The row that is new is on the
second of them, as its date is the earlier one, so nothing that was there
is pushed off a page before it is read. -/
theorem fetchAllReceipts_spec_storedBetween :
    ((newYearDb 1).matching ⟨1, false⟩ {}).length = 501
      ∧ ∃ all, (fetchAllReceipts ⟨1, false⟩ {} 2).run ReceiptsOp.exec storedBetween (newYearDb 1)
          = some (newYearDb 2, .ok all)
        ∧ ∀ receipt ∈ (newYearDb 1).matching ⟨1, false⟩ {},
          receipt.id ∈ all.map ReceiptRecord.id := by
  have hlength : (aboutNewYear 1).length = 501 := by
    rw [← List.length_map ReceiptRecord.id, ids_aboutNewYear, List.length_range', pageSize]
  have hcommitted : (newYearDb 1).committed [storeReceipt] = newYearDb 2 :=
    storeReceipt_newYearDb
  have hfull : (receiptsOn newYearsEve 1 pageSize).length = pageSize := by
    unfold receiptsOn
    rw [List.length_map, List.length_range']
  have hrun : (fetchAllReceipts ⟨1, false⟩ {} 2).run ReceiptsOp.exec storedBetween (newYearDb 1)
      = some (newYearDb 2, .ok (receiptsOn newYearsEve 1 pageSize
        ++ [emptyRow 502 1, emptyRow 501 1])) := by
    have hfirst : ReceiptsOp.exec (newYearDb 1) (.listReceipts ⟨1, false⟩ {} pageSize 0)
        ⟨[], aboutNewYear 1⟩ = some (newYearDb 1, .ok (receiptsOn newYearsEve 1 pageSize)) := by
      refine exec_of_listing rfl (Nat.zero_le _) ?_ (List.take_left' hfull)
      rw [matching_newYearDb]
      exact listing_aboutNewYear (List.Perm.refl _)
    have hsecond : ReceiptsOp.exec (newYearDb 1) (.listReceipts ⟨1, false⟩ {} pageSize pageSize)
        ⟨[storeReceipt], receiptsOn newYearsEve 1 pageSize ++ [emptyRow 502 1, emptyRow 501 1]⟩
        = some (newYearDb 2, .ok [emptyRow 502 1, emptyRow 501 1]) := by
      refine exec_of_listing hcommitted (by decide) ?_ ?_
      · rw [matching_newYearDb]
        exact listing_aboutNewYear (List.Perm.swap _ _ _)
      · unfold Pages.page
        rw [List.drop_left' hfull]
        rfl
    refine (run_fetchFrom_page hfirst).trans ?_
    rw [if_neg (by rw [hfull]; exact lt_irrefl _)]
    refine (run_fetchFrom_page hsecond).trans ?_
    rw [if_pos (by decide)]
    rfl
  -- both pages end between two days
  have hdays : DaysTogether ⟨1, false⟩ {} (newYearDb 1) storedBetween := by
    intro k hk position hposition
    obtain rfl | rfl : k = 0 ∨ k = 1 := by
      have hk : k < 2 := hk
      omega
    · rw [seenBy_first, matching_newYearDb]
      simp only [Nat.zero_mul, Nat.zero_add, Nat.one_mul, List.mem_cons, List.not_mem_nil,
        or_false] at hposition
      exact not_straddles_aboutNewYear (hposition.imp id .inl)
    · rw [seenBy_later, matching_newYearDb]
      simp only [Nat.one_mul, Nat.reduceAdd, List.mem_cons, List.not_mem_nil, or_false] at hposition
      exact not_straddles_aboutNewYear (.inr (hposition.imp id fun h => by rw [h]; decide))
  refine ⟨(congrArg List.length (matching_newYearDb 1)).trans hlength, _, hrun, ?_⟩
  rw [← seenBy_first]
  refine ((fetchAllReceipts_spec hrun hdays).1 _ rfl).1 fun k => ?_
  cases k with
  | zero =>
    rw [seenBy_first, seenBy_later]
    unfold Db.datedMatching
    rw [matching_newYearDb, matching_newYearDb]
    refine List.map_subset _ (List.append_subset.mpr ⟨List.subset_append_left _ _, ?_⟩)
    exact List.subset_append_of_subset_right _ (by decide)
  | succ k =>
    rw [seenBy_later, seenBy_later]
    exact List.Subset.refl _

end Witness

end VisionBill
