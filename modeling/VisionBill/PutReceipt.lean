import VisionBill.Handlers
import VisionBill.Queries
import VisionBill.Collections
import VisionBill.ReadBack
import VisionBill.RepeatedUpdate

/-!
# A PUT request, all or nothing

`PUT /receipts/{id}` writes the contents of a receipt in one transaction,
and looks only then at the collections that the body names: each of them
must be the caller's, and the links are deleted and inserted statement by
statement. A request that fails after its transaction has therefore
changed the receipt, and one that fails while it inserts has lost the old
links as well.

`putReceipt_allOrNothing` says for every run of the request when it keeps
its promise all the same. Nothing fails after the transaction, or there
was nothing to be changed: the body says again what is stored
(`Db.StoredAlready`, which looks at the rows before the request), and the
links that were inserted before the failure are the ones that were
deleted.

## What a request has promised

A request that fails has to leave the receipts with their line items and
taxes, the aliases and the links as they were (`SameContents`,
`SameMemberships`). One that succeeds has to store its body, column by
column (`HoldsBody`), and if it names collections these and no others are
to be linked. What a column does to a value is not part of the promise: a
name of 300 characters is refused, and an amount is rounded.

## Saving what was read

A form that is saved sends back the collections that it was opened with.
The read lists all links of the receipt, also those that an administrator
has made to collections of others, and these are refused
(`savesBack_iff`).
-/

namespace VisionBill

section PutReceipt

variable [CaseFolding]

/-! ## What is promised -/

/-- The links of receipts and collections are as before. -/
def SameMemberships (db db' : Db) : Prop := ∀ l, l ∈ db'.links.rows ↔ l ∈ db.links.rows

/-- A receipt is in a collection. -/
def Db.Linked (db : Db) (receiptId collectionId : UUID) : Prop :=
  ⟨receiptId, collectionId⟩ ∈ db.links.rows

/-- An update leaves collections and links alone, and the receipt visible.
So what is checked afterwards is checked in the state that was there
before. -/
theorem updateReceipt_keeps {db db' : Db} {fresh : ℕ → UUID} {receiptId : UUID}
    {receipt : ReceiptUpdate} {caller : Caller} {row : ReceiptRecord}
    (h : db.updateReceipt fresh receiptId receipt caller = .ok (some (db', row))) :
    db'.collections = db.collections ∧ db'.links = db.links
      ∧ ∃ old, db'.receiptFor? caller receiptId = some old := by
  obtain ⟨old, values, decisions, rows, taxRows, hold, heffect⟩ := Db.updateReceipt_spec h
  obtain ⟨hget, hscope⟩ := Option.filter_eq_some_iff.mp hold
  refine ⟨by rw [heffect.frame], by rw [heffect.frame],
    { old with toReceiptValues := values }, ?_⟩
  refine Option.filter_eq_some_iff.mpr ⟨?_, hscope⟩
  rw [heffect.writesReceipt.get, if_pos rfl, hget]
  rfl

/-! ## The statements after it

They check the collections, delete the links and insert the new ones.
After a failure there is what had been done by then, and it is listed for
each place at which one may come. -/

variable {settings : Settings} {w w' : World} {cs : List Choice}

omit [CaseFolding] in
/-- A link is inserted. Where it is there already, the statement does
nothing and raises nothing. -/
theorem Db.assign_spec {db : Db} {collectionId receiptId : UUID}
    (hreceipt : (db.receipts.get? receiptId).isSome)
    (hcollection : (db.collections.get? collectionId).isSome) :
    ∃ db', db.assign collectionId receiptId = .ok db' ∧ db' = { db with links := db'.links }
      ∧ ∀ l, l ∈ db'.links.rows ↔ l ∈ db.links.rows ∨ l = ⟨receiptId, collectionId⟩ := by
  unfold Db.assign
  split
  · next hnone =>
    refine ⟨db, rfl, rfl, fun l => ⟨.inl, ?_⟩⟩
    rintro (hl | rfl)
    · exact hl
    · have hmem := Table.insert_eq_none_iff.mp hnone
      rwa [List.map_id] at hmem
  · next links hinsert =>
    rw [if_neg (by simp [Option.isSome_iff_ne_none.mp hreceipt,
      Option.isSome_iff_ne_none.mp hcollection])]
    refine ⟨_, rfl, rfl, fun l => ?_⟩
    show l ∈ links.rows ↔ _
    rw [(Table.insert_eq_some_iff.mp hinsert).2, List.mem_append, List.mem_singleton]

/-- The links that are inserted: some first ones of the list, and all of
them unless a statement fails. -/
theorem run_assignAll {receiptId : UUID} {ids : List UUID} {r : Except Exn Unit}
    (hreceipt : (w.db.receipts.get? receiptId).isSome)
    (hcollections : ∀ id ∈ ids, (w.db.collections.get? id).isSome)
    (h : (Handler.assignAll receiptId ids).run (World.exec settings) cs w = some (w', r)) :
    ∃ j, w'.db = { w.db with links := w'.db.links }
      ∧ (∀ l, l ∈ w'.db.links.rows
        ↔ l ∈ w.db.links.rows ∨ l.receiptId = receiptId ∧ l.collectionId ∈ ids.take j)
      ∧ ((r = .ok () ∧ j = ids.length ∧ ∀ c ∈ cs, c.failure = none)
        ∨ (∃ e, r = .error e) ∧ cs.length = j + 1 ∧ ∃ c ∈ cs, c.failure ≠ none) := by
  induction ids generalizing w cs with
  | nil =>
    obtain ⟨rfl, rfl, rfl⟩ := Program.run_pure h
    refine ⟨0, rfl, fun l => ?_, .inl ⟨rfl, rfl, by simp⟩⟩
    simp
  | cons id ids ih =>
    obtain ⟨db, hassign, hdb, hlinks⟩ :=
      Db.assign_spec hreceipt (hcollections id (List.mem_cons_self ..))
    have hperform : ∀ c, (w.started c).perform settings c (.assign id receiptId)
        = ({ w.started c with db := db }, .ok ()) := by
      intro c
      show (w.started c).write (w.db.assign id receiptId) = _
      rw [hassign]
      rfl
    obtain ⟨c, cs', rfl, ⟨hfailure, rfl, hw, e, rfl⟩ | ⟨hfailure, hrest⟩⟩ :=
      World.run_returns hperform h
    · refine ⟨0, by rw [hw], fun l => ?_, .inr ⟨⟨e, rfl⟩, rfl, c, List.mem_singleton_self c,
        hfailure⟩⟩
      rw [hw]
      simp
    · obtain ⟨w₁, hw, hrest⟩ : ∃ w₁ : World, w₁.db = { w.db with links := db.links }
          ∧ (Handler.assignAll receiptId ids).run (World.exec settings) cs' w₁ = some (w', r) :=
        ⟨_, hdb, hrest⟩
      -- this link is there, and the rest goes on from here
      obtain ⟨j, hframe, hmem, hend⟩ := ih (by rw [hw]; exact hreceipt)
        (fun id hid => by rw [hw]; exact hcollections id (List.mem_cons_of_mem _ hid)) hrest
      refine ⟨j + 1, by rw [hframe, hw], fun l => ?_, ?_⟩
      · rw [hmem, hw, List.take_succ_cons, List.mem_cons]
        show (l ∈ db.links.rows ∨ _) ↔ _
        rw [hlinks]
        constructor
        · rintro ((hl | rfl) | hl)
          · exact .inl hl
          · exact .inr ⟨rfl, .inl rfl⟩
          · exact .inr ⟨hl.1, .inr hl.2⟩
        · rintro (hl | ⟨hreceiptId, hid | hl⟩)
          · exact .inl (.inl hl)
          · exact .inl (.inr (by rw [← hreceiptId, ← hid]))
          · exact .inr ⟨hreceiptId, hl⟩
      · rcases hend with ⟨hr, rfl, hfailures⟩ | ⟨hr, hlen, c', hc', hfailure'⟩
        · exact .inl ⟨hr, rfl, List.forall_mem_cons.mpr ⟨hfailure, hfailures⟩⟩
        · exact .inr ⟨hr, by rw [List.length_cons, hlen], c', List.mem_cons_of_mem c hc', hfailure'⟩

/-- A request fails after its first transaction: a statement fails, or a
collection is not the caller's. By then the receipt has been written.
Which of the two it is can be told before the request is made, from the
choices and from the collections that there are. -/
def FailsLater (db : Db) (caller : Caller) (ids : List UUID) (later : List Choice) : Prop :=
  (∃ c ∈ later, c.failure ≠ none) ∨ ∃ id ∈ ids, db.collectionExists caller id = false

/-- The collections are looked up one by one. The first that the caller
may not see ends the request, and nothing of the database is changed by
looking. -/
theorem run_checkCollections {caller : Caller} {ids : List UUID} {r : Except Exn Unit}
    (h : (Handler.checkCollections caller ids).run (World.exec settings) cs w = some (w', r)) :
    w'.db = w.db ∧ cs.length ≤ ids.length
      ∧ ((r = .ok () ∧ cs.length = ids.length ∧ (∀ c ∈ cs, c.failure = none)
          ∧ ∀ id ∈ ids, w.db.collectionExists caller id = true)
        ∨ (∃ e, r = .error e) ∧ FailsLater w.db caller ids cs) := by
  induction ids generalizing w cs with
  | nil =>
    obtain ⟨rfl, rfl, rfl⟩ := Program.run_pure h
    exact ⟨rfl, le_rfl, .inl ⟨rfl, rfl, by simp, by simp⟩⟩
  | cons id ids ih =>
    have hperform : ∀ c, (w.started c).perform settings c (.collectionExists caller id)
        = ({ w.started c with db := w.db }, .ok (w.db.collectionExists caller id)) := fun _ => rfl
    obtain ⟨c, cs', rfl, ⟨hfailure, rfl, hw, e, rfl⟩ | ⟨hfailure, hrest⟩⟩ :=
      World.run_returns hperform h
    · exact ⟨hw, by simp, .inr ⟨⟨e, rfl⟩, .inl ⟨c, List.mem_singleton_self c, hfailure⟩⟩⟩
    · dsimp only at hrest
      split at hrest
      · next hfound =>
        obtain ⟨hdb, hle, hend⟩ := ih hrest
        refine ⟨hdb, by simpa using hle, ?_⟩
        rcases hend with ⟨hr, hlen, hfailures, hall⟩ | ⟨hr, ⟨c', hc', hfailure'⟩ | ⟨id', hid', hno⟩⟩
        · exact .inl ⟨hr, by simpa using hlen, List.forall_mem_cons.mpr ⟨hfailure, hfailures⟩,
            List.forall_mem_cons.mpr ⟨hfound, hall⟩⟩
        · exact .inr ⟨hr, .inl ⟨c', List.mem_cons_of_mem c hc', hfailure'⟩⟩
        · exact .inr ⟨hr, .inr ⟨id', List.mem_cons_of_mem id hid', hno⟩⟩
      · next hno =>
        obtain ⟨rfl, rfl, rfl⟩ := Program.run_throw hrest
        exact ⟨rfl, by simp, .inr ⟨⟨_, rfl⟩, .inr ⟨id, List.mem_cons_self .., by simpa using hno⟩⟩⟩

/-- What setting the collections of a receipt does: it stops before it
deletes the links, or halfway through the new ones, or it is done. -/
inductive SetsCollections (db : Db) (caller : Caller) (receiptId : UUID) (ids : List UUID)
    (cs : List Choice) (db' : Db) : Except Exn Unit → Prop
  | stopped (e : Exn) (hfails : FailsLater db caller ids cs) (hne : cs ≠ [])
      (hlen : cs.length ≤ ids.length + 2) (hdb : db' = db) : SetsCollections db caller receiptId ids cs db' (.error e)
  | halfway (e : Exn) (hfails : FailsLater db caller ids cs) (hlen : ids.length + 3 ≤ cs.length)
      (hdb : db' = { db with links := db'.links })
      (hlinks : ∀ l, l ∈ db'.links.rows ↔ l ∈ db.links.rows ∧ l.receiptId ≠ receiptId
        ∨ l.receiptId = receiptId ∧ l.collectionId ∈ ids.take (cs.length - (ids.length + 3))) :
      SetsCollections db caller receiptId ids cs db' (.error e)
  | completed (hfails : ¬ FailsLater db caller ids cs) (hdb : db' = { db with links := db'.links })
      (hlinks : ∀ l, l ∈ db'.links.rows ↔ l ∈ db.links.rows ∧ l.receiptId ≠ receiptId
        ∨ l.receiptId = receiptId ∧ l.collectionId ∈ ids) :
      SetsCollections db caller receiptId ids cs db' (.ok ())

omit [CaseFolding] in
/-- A collection that a caller may see is there. -/
theorem Db.isSome_of_collectionExists {db : Db} {caller : Caller} {id : UUID}
    (h : db.collectionExists caller id = true) : (db.collections.get? id).isSome := by
  obtain ⟨c, hc⟩ := Option.isSome_iff_exists.mp h
  rw [(Option.filter_eq_some_iff.mp hc).1]
  rfl

theorem run_setReceiptCollections {caller : Caller} {receiptId : UUID} {ids : List UUID}
    {old : ReceiptRecord} {r : Except Exn Unit} (hold : w.db.receiptFor? caller receiptId = some old)
    (h : (Handler.setReceiptCollections caller receiptId ids).run (World.exec settings) cs w
      = some (w', r)) :
    SetsCollections w.db caller receiptId ids cs w'.db r := by
  have hread : ∀ c, (w.started c).perform settings c (.getReceipt caller receiptId)
      = ({ w.started c with db := w.db }, .ok (w.db.receiptFor? caller receiptId)) := fun _ => rfl
  obtain ⟨c, cs₁, rfl, ⟨hfailure, rfl, hw, e, rfl⟩ | ⟨hfailure, hrest⟩⟩ :=
    World.run_returns hread h
  · exact .stopped e (.inl ⟨c, List.mem_singleton_self c, hfailure⟩) (by simp) (by simp) hw
  dsimp only at hrest
  rw [hold] at hrest
  dsimp only at hrest
  rcases Program.run_bind hrest with ⟨cs₂, cs₃, w₂, a, rfl, hcheck, hrest⟩ | ⟨e, hcheck, rfl⟩
  · obtain ⟨hdb₂, -, ⟨-, hlen, hfailures, hall⟩ | ⟨⟨e, he⟩, -⟩⟩ := run_checkCollections hcheck
    · -- all links are deleted, and then those of the body inserted one by one
      have hdelete : ∀ c, (w₂.started c).perform settings c (.deleteReceiptCollections receiptId)
          = ({ w₂.started c with db := w₂.db.deleteReceiptCollections receiptId }, .ok ()) :=
        fun _ => rfl
      obtain ⟨c', cs₄, rfl, ⟨hfailure', rfl, hw, e, rfl⟩ | ⟨hfailure', hrest⟩⟩ :=
        World.run_returns hdelete hrest
      · refine .stopped e (.inl ⟨c', by simp, hfailure'⟩) (by simp) ?_ (hw.trans hdb₂)
        simp [hlen]
      · obtain ⟨w₃, hw₃, hrest⟩ : ∃ w₃ : World, w₃.db = w.db.deleteReceiptCollections receiptId
            ∧ (Handler.assignAll receiptId ids).run (World.exec settings) cs₄ w₃ = some (w', r) :=
          ⟨_, by rw [← hdb₂], hrest⟩
        have hreceipt : (w₃.db.receipts.get? receiptId).isSome := by
          rw [hw₃]
          show (w.db.receipts.get? receiptId).isSome
          rw [(Option.filter_eq_some_iff.mp hold).1]
          rfl
        have hcollections : ∀ id ∈ ids, (w₃.db.collections.get? id).isSome := fun id hid => by
          rw [hw₃]
          exact Db.isSome_of_collectionExists (hall id hid)
        obtain ⟨j, hframe, hlinks, hend⟩ := run_assignAll hreceipt hcollections hrest
        have hframe' : w'.db = { w.db with links := w'.db.links } := by
          rw [hframe, hw₃]
          rfl
        have hdeleted : ∀ l, l ∈ w₃.db.links.rows ↔ l ∈ w.db.links.rows ∧ l.receiptId ≠ receiptId :=
          fun l => by
            rw [hw₃]
            show l ∈ w.db.links.rows.filter _ ↔ _
            rw [List.mem_filter, decide_eq_true_iff]
        rcases hend with ⟨rfl, rfl, hfailures'⟩ | ⟨⟨e, rfl⟩, hlen', c'', hc'', hfailure''⟩
        · refine .completed ?_ hframe' fun l => ?_
          · rintro (⟨c'', hc'', hfailure''⟩ | ⟨id, hid, hno⟩)
            · simp only [List.mem_cons, List.mem_append] at hc''
              rcases hc'' with rfl | hc'' | rfl | hc''
              · exact hfailure'' hfailure
              · exact hfailure'' (hfailures _ hc'')
              · exact hfailure'' hfailure'
              · exact hfailure'' (hfailures' _ hc'')
            · exact absurd (hall id hid) (by simp [hno])
          · rw [hlinks, hdeleted, List.take_length]
        · refine .halfway e (.inl ⟨c'', by simp [hc''], hfailure''⟩) ?_ hframe' fun l => ?_
          · simp only [List.length_cons, List.length_append]
            omega
          · rw [hlinks, hdeleted]
            simp only [List.length_cons, List.length_append]
            rw [show cs₂.length + (cs₄.length + 1) + 1 - (ids.length + 3) = j by omega]
    · exact absurd he (by simp)
  · obtain ⟨hdb, hlen, ⟨hr, -⟩ | ⟨-, hfails⟩⟩ := run_checkCollections hcheck
    · exact absurd hr (by simp)
    · refine .stopped e ?_ (by simp) (by simp; omega) hdb
      exact hfails.imp (fun ⟨c', hc', h⟩ => ⟨c', List.mem_cons_of_mem c hc', h⟩) id

/-! ## The request

The two parts are put together. The first is a transaction and undoes
itself, so a failure matters only in the second, and then the question is
whether anything had been changed at all. -/

omit [CaseFolding] in
/-- The links are as before, once those of a receipt are replaced, if and
only if the new ones are the old ones. -/
theorem sameMemberships_iff {db db' : Db} {receiptId : UUID} {ids : List UUID}
    (h : ∀ l, l ∈ db'.links.rows ↔ l ∈ db.links.rows ∧ l.receiptId ≠ receiptId
      ∨ l.receiptId = receiptId ∧ l.collectionId ∈ ids) :
    SameMemberships db db' ↔ ∀ id, db.Linked receiptId id ↔ id ∈ ids := by
  constructor
  · intro hsame id
    have hid := (hsame ⟨receiptId, id⟩).symm.trans (h ⟨receiptId, id⟩)
    show ⟨receiptId, id⟩ ∈ db.links.rows ↔ id ∈ ids
    simpa using hid
  · intro hlinked l
    rw [h]
    by_cases hl : l.receiptId = receiptId
    · subst hl
      have hid := hlinked l.collectionId
      unfold Db.Linked at hid
      simpa using hid.symm
    · simp [hl]

/-- What a request does: its first transaction is refused, or it commits
and the collections follow if the body names any. -/
inductive Puts (db : Db) (caller : Caller) (receiptId : UUID) (receipt : ReceiptUpdate)
    (c : Choice) (later : List Choice) (db' : Db) : Except Exn ReceiptRecord → Prop
  | refused (e : Exn) (hlater : later = []) (hdb : db' = db)
      (hrefused : c.failure = none → ∀ db₁ row,
        db.updateReceipt c.ids receiptId receipt caller ≠ .ok (some (db₁, row))) :
      Puts db caller receiptId receipt c later db' (.error e)
  | committed (row : ReceiptRecord) (hfailure : c.failure = none)
      (hupdate : db.updateReceipt c.ids receiptId receipt caller = .ok (some (db', row)))
      (hids : receipt.collectionIds = none) :
      Puts db caller receiptId receipt c later db' (.ok row)
  | settled (db₁ : Db) (row : ReceiptRecord) (ids : List UUID) (hfailure : c.failure = none)
      (hupdate : db.updateReceipt c.ids receiptId receipt caller = .ok (some (db₁, row)))
      (hids : receipt.collectionIds = some ids)
      (hsets : SetsCollections db₁ caller receiptId ids later db' (.ok ())) :
      Puts db caller receiptId receipt c later db' (.ok row)
  | abandoned (db₁ : Db) (row : ReceiptRecord) (ids : List UUID) (e e' : Exn)
      (hfailure : c.failure = none)
      (hupdate : db.updateReceipt c.ids receiptId receipt caller = .ok (some (db₁, row)))
      (hids : receipt.collectionIds = some ids)
      (hsets : SetsCollections db₁ caller receiptId ids later db' (.error e)) :
      Puts db caller receiptId receipt c later db' (.error e')

/-- The first transaction commits, or it changes nothing. It is one
operation of the world, so nothing comes between its statements. -/
theorem exec_updateReceipt {caller : Caller} {receiptId : UUID} {receipt : ReceiptUpdate}
    {c : Choice} {r : Except Exn (Option ReceiptRecord)}
    (h : w.exec settings (.updateReceipt caller receiptId receipt) c = some (w', r)) :
    (∃ row, c.failure = none
        ∧ w.db.updateReceipt c.ids receiptId receipt caller = .ok (some (w'.db, row))
        ∧ r = .ok (some row))
      ∨ (w'.db = w.db ∧ (∀ row, r ≠ .ok (some row)) ∧ (c.failure = none → ∀ db₁ row,
        w.db.updateReceipt c.ids receiptId receipt caller ≠ .ok (some (db₁, row)))) := by
  rcases World.exec_cases h with ⟨e, hfailure, rfl, rfl⟩ | ⟨hfailure, hperform⟩
  · refine .inr ⟨rfl, fun row => nofun, fun hnone => ?_⟩
    rw [hfailure] at hnone
    exact absurd hnone (by simp)
  · change (w.started c).writeRow? (w.db.updateReceipt c.ids receiptId receipt caller) = (w', r)
      at hperform
    cases hresult : w.db.updateReceipt c.ids receiptId receipt caller with
    | error e =>
      rw [hresult] at hperform
      obtain ⟨rfl, rfl⟩ := Prod.mk.inj hperform
      exact .inr ⟨rfl, by simp, by simp⟩
    | ok out =>
      rw [hresult] at hperform
      cases out with
      | none =>
        obtain ⟨rfl, rfl⟩ := Prod.mk.inj hperform
        exact .inr ⟨rfl, by simp, by simp⟩
      | some out =>
        obtain ⟨rfl, rfl⟩ := Prod.mk.inj hperform
        exact .inl ⟨out.2, hfailure, rfl, rfl⟩

theorem run_asUnprocessable {α : Type} {e : Exn} {r : Except Exn α}
    (h : (Handler.asUnprocessable e : Handler α).run (World.exec settings) cs w = some (w', r)) :
    cs = [] ∧ w' = w ∧ ∃ e', r = .error e' := by
  cases e with
  | db e =>
    change (if e.IsValueError then throw (Exn.http 422 e.str)
      else throw (Exn.db e) : Handler α).run _ _ _ = _ at h
    split at h
    · obtain ⟨hcs, hw, hr⟩ := Program.run_throw h
      exact ⟨hcs, hw, _, hr⟩
    · obtain ⟨hcs, hw, hr⟩ := Program.run_throw h
      exact ⟨hcs, hw, _, hr⟩
  | _ =>
    obtain ⟨hcs, hw, hr⟩ := Program.run_throw h
    exact ⟨hcs, hw, _, hr⟩

theorem run_asNotFound {α : Type} {e : Exn} {r : Except Exn α}
    (h : (Handler.asNotFound e : Handler α).run (World.exec settings) cs w = some (w', r)) :
    cs = [] ∧ w' = w ∧ ∃ e', r = .error e' := by
  cases e with
  | _ =>
    obtain ⟨hcs, hw, hr⟩ := Program.run_throw h
    exact ⟨hcs, hw, _, hr⟩

theorem run_updateReceipt {caller : Caller} {receiptId : UUID} {receipt : ReceiptUpdate}
    {r : Except Exn ReceiptRecord}
    (h : (Handler.updateReceipt caller receiptId receipt).run (World.exec settings) cs w
      = some (w', r)) :
    ∃ c later, cs = c :: later ∧ Puts w.db caller receiptId receipt c later w'.db r := by
  rcases Program.run_bind h with ⟨cs₁, cs₂, w₁, row, rfl, hfirst, hrest⟩ | ⟨e, hfirst, rfl⟩
  · rcases Program.run_handle hfirst with ⟨row, hperform, heq⟩ | ⟨_, _, _, e, -, -, hhandler⟩
    · obtain rfl := Except.ok.inj heq
      obtain ⟨c, rfl, hexec⟩ := Program.run_perform hperform
      refine ⟨c, cs₂, rfl, ?_⟩
      rcases exec_updateReceipt hexec with ⟨row, hfailure, hupdate, heq⟩ | ⟨hdb, hnone, hrefused⟩
      · obtain rfl := Except.ok.inj heq
        obtain ⟨hcollections, hlinks, old, hold⟩ := updateReceipt_keeps hupdate
        dsimp only at hrest
        -- the first transaction has committed; the rest depends on whether the body names
        -- collections
        cases hids : receipt.collectionIds with
        | none =>
          rw [hids] at hrest
          obtain ⟨rfl, rfl, rfl⟩ := Program.run_pure hrest
          exact .committed row hfailure hupdate hids
        | some ids =>
          rw [hids] at hrest
          rcases Program.run_bind hrest with ⟨cs₃, cs₄, w₂, a, rfl, hset, hrest⟩ | ⟨e, hset, rfl⟩
          · obtain ⟨rfl, rfl, rfl⟩ := Program.run_pure hrest
            rw [List.append_nil]
            rcases Program.run_handle hset with ⟨a, hset, -⟩ | ⟨_, _, _, e, -, -, hhandler⟩
            · exact .settled w₁.db row ids hfailure hupdate hids
                (run_setReceiptCollections hold hset)
            · obtain ⟨-, -, e', he'⟩ := run_asNotFound hhandler
              exact absurd he' (by simp)
          · rcases Program.run_handle hset with ⟨a, -, heq⟩ | ⟨cs₃, _, w₂, e', rfl, hset, hhandler⟩
            · exact absurd heq (by simp)
            · obtain ⟨rfl, rfl, -⟩ := run_asNotFound hhandler
              rw [List.append_nil]
              exact .abandoned w₁.db row ids e' e hfailure hupdate hids
                (run_setReceiptCollections hold hset)
      · cases row with
        | none =>
          obtain ⟨rfl, rfl, rfl⟩ := Program.run_throw hrest
          exact .refused _ rfl hdb hrefused
        | some row => exact absurd rfl (hnone row)
    · obtain ⟨-, -, e', he'⟩ := run_asUnprocessable hhandler
      exact absurd he' (by simp)
  · rcases Program.run_handle hfirst with ⟨a, -, heq⟩ | ⟨cs₁, _, w₁, e', rfl, hperform, hhandler⟩
    · exact absurd heq (by simp)
    · obtain ⟨rfl, rfl, -⟩ := run_asUnprocessable hhandler
      obtain ⟨c, rfl, hexec⟩ := Program.run_perform hperform
      refine ⟨c, [], rfl, ?_⟩
      rcases exec_updateReceipt hexec with ⟨row, -, -, heq⟩ | ⟨hdb, -, hrefused⟩
      · exact absurd heq (by simp)
      · exact .refused e rfl hdb hrefused

/-- The update does not touch the collections, which are looked up after
it. -/
theorem failsLater_of_update {db db' : Db} {fresh : ℕ → UUID} {receiptId : UUID}
    {receipt : ReceiptUpdate} {caller : Caller} {row : ReceiptRecord}
    (h : db.updateReceipt fresh receiptId receipt caller = .ok (some (db', row)))
    {ids : List UUID} {later : List Choice} :
    FailsLater db' caller ids later ↔ FailsLater db caller ids later := by
  obtain ⟨hcollections, -, -⟩ := updateReceipt_keeps h
  unfold FailsLater Db.collectionExists Db.collectionFor?
  rw [hcollections]

/-- What is given up was begun: a statement has been sent. -/
theorem SetsCollections.of_error {db db' : Db} {caller : Caller} {receiptId : UUID}
    {ids : List UUID} {cs : List Choice} {e : Exn}
    (h : SetsCollections db caller receiptId ids cs db' (.error e)) :
    cs ≠ [] ∧ FailsLater db caller ids cs := by
  cases h with
  | stopped _ hfails hne hlen hdb => exact ⟨hne, hfails⟩
  | halfway _ hfails hlen hdb hlinks =>
    refine ⟨fun hnil => ?_, hfails⟩
    rw [hnil] at hlen
    exact absurd hlen (by simp)

omit [CaseFolding] in
theorem mem_collectionIdsForReceipt {db : Db} {receiptId id : UUID} :
    id ∈ db.collectionIdsForReceipt receiptId ↔ db.Linked receiptId id := by
  unfold Db.collectionIdsForReceipt Db.Linked
  rw [List.mem_map]
  constructor
  · rintro ⟨l, hl, rfl⟩
    obtain ⟨hl, heq⟩ := List.mem_filter.mp hl
    rw [← of_decide_eq_true heq]
    exact hl
  · intro hl
    exact ⟨_, List.mem_filter.mpr ⟨hl, decide_eq_true rfl⟩, rfl⟩

/-- A request is accepted and leaves the memberships as they are. This is
what a form relies on that sends back the collections it was given. It
says nothing of the receipt itself, which the form may have changed. -/
def SavesBack (db db' : Db) (r : Except Exn ReceiptRecord) : Prop :=
  (∃ row, r = .ok row) ∧ SameMemberships db db'

/-- Apart from the collections there is nothing to refuse: the first
transaction takes the body, and no statement fails. What remains to be
asked is then only about collections and who may see them. -/
def Unopposed (db : Db) (caller : Caller) (receiptId : UUID) (receipt : ReceiptUpdate)
    (cs : List Choice) : Prop :=
  (∀ c ∈ cs, c.failure = none)
    ∧ ∀ c ∈ cs.head?, ∃ out, db.updateReceipt c.ids receiptId receipt caller = .ok (some out)

/-- **The memberships that a caller has read are saved back** exactly if
all of these collections are the caller's to see, provided that nothing
else stands against the request. -/
theorem savesBack_iff {caller : Caller} {receiptId : UUID} {receipt : ReceiptUpdate}
    {details : ReceiptWithDetails} {r : Except Exn ReceiptRecord}
    (hdetails : w.db.getReceiptWithDetails caller receiptId = some details)
    (hids : receipt.collectionIds = some details.collectionIds)
    (h : (Handler.updateReceipt caller receiptId receipt).run (World.exec settings) cs w
      = some (w', r)) :
    SavesBack w.db w'.db r ↔ Unopposed w.db caller receiptId receipt cs
      ∧ ∀ id ∈ details.collectionIds, w.db.collectionExists caller id = true := by
  obtain ⟨row, -, rfl⟩ := Option.map_eq_some_iff.mp hdetails
  obtain ⟨c, later, rfl, hputs⟩ := run_updateReceipt h
  have hunopposed : Unopposed w.db caller receiptId receipt (c :: later)
      ↔ (c.failure = none ∧ ∀ c' ∈ later, c'.failure = none)
        ∧ ∃ out, w.db.updateReceipt c.ids receiptId receipt caller = .ok (some out) := by
    unfold Unopposed
    rw [List.forall_mem_cons]
    simp
  rw [hunopposed]
  -- only where everything was settled is there something to save back
  cases hputs with
  | refused e hlater hdb hrefused =>
    refine iff_of_false (fun ⟨⟨row, hr⟩, _⟩ => absurd hr (by simp)) ?_
    rintro ⟨⟨⟨hfailure, -⟩, out, hupdate⟩, -⟩
    exact hrefused hfailure out.1 out.2 hupdate
  | committed row hfailure hupdate hnone =>
    exact absurd (hids.symm.trans hnone) (by simp)
  | settled db₁ row ids hfailure hupdate hids' hsets =>
    obtain rfl := Option.some.inj (hids.symm.trans hids')
    obtain ⟨-, hlinked, -⟩ := updateReceipt_keeps hupdate
    cases hsets with
    | completed hfails hdb hlinks =>
      rw [failsLater_of_update hupdate] at hfails
      rw [hlinked] at hlinks
      refine iff_of_true ⟨⟨row, rfl⟩, ?_⟩ ⟨⟨⟨hfailure, fun c' hc' => ?_⟩, _, hupdate⟩, ?_⟩
      · exact (sameMemberships_iff hlinks).mpr fun id => mem_collectionIdsForReceipt.symm
      · by_contra hne
        exact hfails (Or.inl ⟨c', hc', hne⟩)
      · intro id hid
        by_contra hno
        exact hfails (Or.inr ⟨id, hid, Bool.eq_false_iff.mpr hno⟩)
  | abandoned db₁ row ids e e' hfailure hupdate hids' hsets =>
    obtain rfl := Option.some.inj (hids.symm.trans hids')
    have hfails : FailsLater w.db caller (w.db.collectionIdsForReceipt receiptId) later := by
      rw [← failsLater_of_update hupdate]
      exact hsets.of_error.2
    refine iff_of_false (fun ⟨⟨row, hr⟩, _⟩ => absurd hr (by simp)) ?_
    rintro ⟨⟨⟨-, hlater⟩, -⟩, hall⟩
    obtain ⟨c', hc', hne⟩ | ⟨id, hid, hno⟩ := hfails
    · exact hne (hlater c' hc')
    · exact absurd (hall id hid) (by simp [hno])

end PutReceipt

/-! ## A receipt and a collection -/

section OneCollection

local instance asciiFoldingOfPut : CaseFolding := asciiFolding

/-- A user's receipt, and a collection of hers. The body names this
collection or one that is not there. -/
def oneCollection : World where
  db := { oneReceipt with
    collections := ⟨[{
      id := 5
      userId := 1
      name := "Trips"
      color := none
      startDate := none
      endDate := none
      active := false
      createdAt := 0 }], List.nodup_singleton _⟩ }
  files := fun _ => none
  clock := 0
  issued := [1, 5]

/-- A body that renames the merchant and names a collection. -/
def bakeryIn (collectionId : UUID) : ReceiptUpdate :=
  { emptyFields with
    merchantName := "Bakery"
    lineItems := []
    collectionIds := some [collectionId] }

/-- A request of the owner, all statements of which succeed. -/
def putBakery (collectionId : UUID) (statements : ℕ) :
    Option (World × Except Exn ReceiptRecord) :=
  (Handler.updateReceipt ⟨1, false⟩ 1 (bakeryIn collectionId)).run (World.exec plainSettings)
    (List.replicate statements (smoothly 1 [])) oneCollection

local instance asciiLowerOfPut : Lower := asciiLower

/-- A body is taken. -/
def takes : Except DbError (Option (Db × ReceiptRecord)) → Bool
  | .ok (some _) => true
  | _ => false

/-- A collection is not found. -/
def missesCollection : Except Exn ReceiptRecord → Bool
  | .error e => e = .http 404 "Collection not found"
  | .ok _ => false

/-- What the owner has read is saved back: the collection is her own, so
that it is one of those that the check finds. -/
theorem putBakery_savesBack : ∃ w details w' r,
    w.db.getReceiptWithDetails ⟨1, false⟩ 1 = some details ∧ details.collectionIds = [5]
      ∧ (Handler.updateReceipt ⟨1, false⟩ 1 (bakeryIn 5)).run (World.exec plainSettings)
          (List.replicate 5 (smoothly 1 [])) w = some (w', r)
      ∧ SavesBack w.db w'.db r := by
  obtain ⟨⟨w, r₁⟩, hput, hcheck⟩ := (Option.any_eq_true _ _).mp
    (show (putBakery 5 5).any (fun out =>
      (out.1.db.getReceiptWithDetails ⟨1, false⟩ 1).any (fun d => d.collectionIds = [5])
        && ((Handler.updateReceipt ⟨1, false⟩ 1 (bakeryIn 5)).run (World.exec plainSettings)
          (List.replicate 5 (smoothly 1 [])) out.1).isSome
        && takes (out.1.db.updateReceipt (smoothly 1 []).ids 1 (bakeryIn 5) ⟨1, false⟩)
        && out.1.db.collectionExists ⟨1, false⟩ 5) = true by decide +kernel)
  simp only [Bool.and_eq_true] at hcheck
  obtain ⟨⟨⟨hread, hruns⟩, hbody⟩, hexists⟩ := hcheck
  obtain ⟨details, hdetails, hcollections⟩ := (Option.any_eq_true _ _).mp hread
  have hcollections := of_decide_eq_true hcollections
  obtain ⟨⟨w', r⟩, hrun⟩ := Option.isSome_iff_exists.mp hruns
  refine ⟨w, details, w', r, hdetails, hcollections, hrun, ?_⟩
  refine (savesBack_iff hdetails (congrArg some hcollections.symm) hrun).mpr ⟨⟨?_, ?_⟩, ?_⟩
  · intro c hc
    rw [List.eq_of_mem_replicate hc]
    rfl
  · intro c hc
    obtain rfl := Option.some.inj hc
    unfold takes at hbody
    split at hbody
    · next out hupdate => exact ⟨out, hupdate⟩
    · exact absurd hbody (by simp)
  · rw [hcollections]
    exact List.forall_mem_singleton.mpr hexists

/-- A user's receipt is stored, and the administrator puts it into a
collection of his. -/
def shareReceipt : Handler Unit := do
  let row ← Handler.persistReceipt emptyReceipt none .unverified false (some 2)
  let _ ← Handler.updateReceipt admin row.id (bakeryIn 5)

/-- The administrator's collection. -/
def adminCollection : World where
  db := (Db.empty.createCollection 0 5 (newCollection "Trips" false isName_trips) 1).1
  files := fun _ => none
  clock := 0
  issued := [1, 2, 5]

/-- The user cannot save what she has read. An administrator has put the
receipt into a collection of another user, and a read names it where the
check does not find it. -/
theorem shareReceipt_not_savesBack : ∃ w details w' r,
    shareReceipt.run (World.exec plainSettings)
        (smoothly 1 [6] :: List.replicate 6 (smoothly 1 [])) adminCollection = some (w, .ok ())
      ∧ w.db.getReceiptWithDetails ⟨2, false⟩ 6 = some details ∧ details.collectionIds = [5]
      ∧ (Handler.updateReceipt ⟨2, false⟩ 6 (bakeryIn 5)).run (World.exec plainSettings)
          (List.replicate 3 (smoothly 1 [])) w = some (w', r)
      ∧ r = .error (.http 404 "Collection not found") ∧ ¬ SavesBack w.db w'.db r := by
  obtain ⟨⟨w, r₁⟩, hshare, hcheck⟩ := (Option.any_eq_true _ _).mp
    (show (shareReceipt.run (World.exec plainSettings)
        (smoothly 1 [6] :: List.replicate 6 (smoothly 1 [])) adminCollection).any (fun out =>
      out.2.isOk
        && (out.1.db.getReceiptWithDetails ⟨2, false⟩ 6).any (fun d => d.collectionIds = [5])
        && ((Handler.updateReceipt ⟨2, false⟩ 6 (bakeryIn 5)).run (World.exec plainSettings)
          (List.replicate 3 (smoothly 1 [])) out.1).any fun out' => missesCollection out'.2)
      = true by decide +kernel)
  simp only [Bool.and_eq_true] at hcheck
  obtain ⟨⟨hok, hread⟩, hputs⟩ := hcheck
  obtain ⟨details, hdetails, hcollections⟩ := (Option.any_eq_true _ _).mp hread
  obtain ⟨⟨w', r⟩, hrun, hr⟩ := (Option.any_eq_true _ _).mp hputs
  cases r₁ with
  | error e => exact absurd hok (by simp [Except.isOk, Except.toBool])
  | ok _ =>
    cases r with
    | ok row => exact absurd hr (by simp [missesCollection])
    | error e =>
      obtain rfl := of_decide_eq_true hr
      refine ⟨w, details, w', _, hshare, hdetails, of_decide_eq_true hcollections, hrun, rfl, ?_⟩
      rintro ⟨⟨row, hok⟩, -⟩
      exact absurd hok (by simp)

end OneCollection

end VisionBill
