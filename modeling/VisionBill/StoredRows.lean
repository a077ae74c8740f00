import VisionBill.CollectionPages
import VisionBill.GroundTruth

/-!
# What is stored has been accepted

The rows of receipts, line items and taxes are written by
`persist_receipt` and `update_receipt` alone, from values that were
validated and that the columns have taken. No other statement writes one
of their values. So every row that is stored holds what its columns return
for some valid values (`written_of_run`), also after many edits.

## Why it has to be said

What is read back from the database is shown in a form, validated again
and compared. None of these would have to do with a row that no program
has written – a negative quantity, a time of day that does not exist, a
text longer than its column. Whether such a row can occur is not a
question about the statement that reads it but about all those that write.
Hence the property is one of the whole database (`Db.Written`), kept by
every operation of every program.

It is not said which receipt the values come from, or that the rows of one
receipt come from one request. This is a matter of how they are combined,
and other modules deal with it; here a row is looked at alone.

## How it is kept

Most operations delete rows or change a column that is not one of the
values, and then every row that is left is an old one or an old one with
other keys (`Db.Written.mono`). For the two that write values, the row
comes out of the columns.
-/

namespace VisionBill

variable [CaseFolding]

/-! ## Rows that were written

A row was written if its values have passed their columns. That is a
property of the row alone, so it stays true whatever happens to other
rows. -/

/-- The values of a receipt that were written: some receipt has them, and
the columns have taken them. -/
def ReceiptValues.Written (v : ReceiptValues) : Prop :=
  ∃ r : ReceiptFields, r.values = .ok v

/-- A line item that was written: its columns return what it holds for
some validated item. -/
def LineItemRecord.Written (row : LineItemRecord) : Prop :=
  ∃ newId receiptId index item decision,
    lineItemRecord newId receiptId index item decision = .ok row

/-- A tax that was written. -/
def TaxRecord.Written (row : TaxRecord) : Prop :=
  ∃ newId receiptId tax, taxRecord newId receiptId tax = .ok row

/-- Every row of a receipt, a line item or a tax was written. So each has
passed its columns once, and no other value is in the tables. -/
structure Db.Written (db : Db) : Prop where
  receipts : ∀ r ∈ db.receipts.rows, r.toReceiptValues.Written
  lineItems : ∀ row ∈ db.lineItems.rows, row.Written
  taxes : ∀ row ∈ db.taxes.rows, row.Written

/-- Every row of what is shown was written. This is what a form is built
from, and all that is known of it. -/
structure ReceiptWithDetails.Written (details : ReceiptWithDetails) : Prop where
  receipt : details.receipt.toReceiptValues.Written
  lineItems : ∀ row ∈ details.lineItems, row.Written
  taxes : ∀ row ∈ details.taxes, row.Written

theorem StoresItems.written {fresh : ℕ → UUID} {receiptId : UUID} {index : ℕ}
    {l : List (LineItem × ItemCategoryDecision)} {rows : List LineItemRecord}
    (h : StoresItems fresh receiptId index l rows) : ∀ row ∈ rows, row.Written := by
  intro row hrow
  obtain ⟨i, hi, rfl⟩ := List.mem_iff_getElem.mp hrow
  exact ⟨_, _, _, _, _, h.get (h.length_eq ▸ hi) hi⟩

omit [CaseFolding] in
theorem StoresTaxes.written {fresh : ℕ → UUID} {receiptId : UUID} {index : ℕ} {l : List TaxLine}
    {rows : List TaxRecord} (h : StoresTaxes fresh receiptId index l rows) :
    ∀ row ∈ rows, row.Written := by
  intro row hrow
  obtain ⟨i, hi, rfl⟩ := List.mem_iff_getElem.mp hrow
  exact ⟨_, _, _, h.get (h.length_eq ▸ hi) hi⟩

namespace Db.Written

variable {db db' : Db}

/-- Rows stay written where none is new and no value changes. Deleting,
linking, verifying and assigning an owner are all of this kind. -/
theorem mono (h : db.Written)
    (hreceipts : ∀ r ∈ db'.receipts.rows,
      ∃ old ∈ db.receipts.rows, old.toReceiptValues = r.toReceiptValues)
    (hitems : ∀ row ∈ db'.lineItems.rows, row ∈ db.lineItems.rows)
    (htaxes : ∀ row ∈ db'.taxes.rows, row ∈ db.taxes.rows) : db'.Written where
  receipts r hr := by
    obtain ⟨old, hold, heq⟩ := hreceipts r hr
    rw [← heq]
    exact h.receipts old hold
  lineItems row hrow := h.lineItems row (hitems row hrow)
  taxes row hrow := h.taxes row (htaxes row hrow)

theorem of_eq (h : db.Written) (hreceipts : db'.receipts = db.receipts)
    (hitems : db'.lineItems = db.lineItems) (htaxes : db'.taxes = db.taxes) : db'.Written :=
  h.mono (fun r hr => ⟨r, hreceipts ▸ hr, rfl⟩) (fun _ hrow => hitems ▸ hrow)
    fun _ hrow => htaxes ▸ hrow

/-- Children that replace others were written. -/
theorem of_replaces (h : db.Written) {receiptId : UUID} {rows : List LineItemRecord}
    {taxRows : List TaxRecord} (hreplaces : ReplacesChildren db db' receiptId rows taxRows)
    (hrows : ∀ row ∈ rows, row.Written) (htaxRows : ∀ row ∈ taxRows, row.Written)
    (hreceipts : ∀ r ∈ db'.receipts.rows, r.toReceiptValues.Written) : db'.Written where
  receipts := hreceipts
  lineItems row hrow := by
    rw [hreplaces.lineItems, List.mem_append] at hrow
    exact hrow.elim (fun hold => h.lineItems row (List.mem_filter.mp hold).1) (hrows row)
  taxes row hrow := by
    rw [hreplaces.taxes, List.mem_append] at hrow
    exact hrow.elim (fun hold => h.taxes row (List.mem_filter.mp hold).1) (htaxRows row)

/-- A row among those of which one was rewritten. -/
theorem of_update (h : db.Written) {receiptId : UUID} {f : ReceiptRecord → ReceiptRecord}
    (hf : ∀ r, (f r).id = r.id)
    (hvalues : ∀ old ∈ db.receipts.rows, (f old).toReceiptValues.Written) {r : ReceiptRecord}
    (hr : r ∈ (db.receipts.update receiptId f hf).rows) : r.toReceiptValues.Written := by
  obtain ⟨hkept, -⟩ | ⟨old, hold, -, rfl⟩ := Table.mem_update.mp hr
  · exact h.receipts r hkept
  · exact hvalues old hold

theorem of_persistReceipt (h : db.Written) {now : Timestamp} {fresh : ℕ → UUID}
    {receipt : Receipt} {imageId : Option UUID} {status : ReceiptStatus} {verified : Bool}
    {userId : Option UUID} {row : ReceiptRecord}
    (hpersist : db.persistReceipt now fresh receipt imageId status verified userId
      = .ok (db', row)) : db'.Written := by
  obtain ⟨values, history, rows, taxRows, heffect⟩ := Db.persistReceipt_spec hpersist
  have hvalues : values.Written := ⟨_, heffect.values_eq⟩
  refine h.of_replaces heffect.replaces heffect.stores.written heffect.storesTaxes.written ?_
  intro r hr
  obtain ⟨db₁, hwrite, hdb⟩ := heffect.writes
  rw [hdb] at hr
  cases Db.writeReceipt_spec hwrite with
  | updated i old himage hold hrow hdb₁ =>
    rw [hdb₁] at hr
    exact h.of_update (f := rewritten values status verified userId) (fun _ => rfl)
      (fun _ _ => hvalues) hr
  | inserted hnone hfree hexists hrow hinsert hdb₁ =>
    have hrows := (Table.insert_eq_some_iff.mp hinsert).2
    have hr' : r ∈ db₁.receipts.rows := hr
    rw [hrows, List.mem_append, List.mem_singleton] at hr'
    obtain hold | rfl := hr'
    · exact h.receipts r hold
    · rw [hrow]
      exact hvalues

theorem of_updateReceipt (h : db.Written) {fresh : ℕ → UUID} {receiptId : UUID}
    {receipt : ReceiptUpdate} {caller : Caller} {row : ReceiptRecord}
    (hupdate : db.updateReceipt fresh receiptId receipt caller = .ok (some (db', row))) :
    db'.Written := by
  obtain ⟨old, values, decisions, rows, taxRows, -, heffect⟩ := Db.updateReceipt_spec hupdate
  refine h.of_replaces heffect.replaces heffect.stores.written heffect.storesTaxes.written ?_
  intro r hr
  rw [heffect.frame] at hr
  have hvalues : values.Written := ⟨_, heffect.values_eq⟩
  exact h.of_update (f := fun r => { r with toReceiptValues := values }) (fun _ => rfl)
    (fun _ _ => hvalues) hr

theorem of_verifyReceipt (h : db.Written) {receiptId : UUID} {caller : Caller}
    {row : ReceiptRecord} (hverify : db.verifyReceipt receiptId caller = some (db', row)) :
    db'.Written := by
  obtain ⟨old, -, heq⟩ := Option.map_eq_some_iff.mp hverify
  obtain ⟨rfl, -⟩ := Prod.mk.inj heq
  refine ⟨fun r hr => ?_, h.lineItems, h.taxes⟩
  exact h.of_update (f := fun r => { r with status := .verified, verified := true })
    (fun _ => rfl) h.receipts hr

theorem of_deleteReceipt (h : db.Written) {benchmarked : Bool} {receiptId : UUID}
    {caller : Caller} {row : ReceiptRecord}
    (hdelete : db.deleteReceipt benchmarked receiptId caller = .ok (some (db', row))) :
    db'.Written := by
  unfold Db.deleteReceipt at hdelete
  split at hdelete
  · exact absurd (Except.ok.inj hdelete) (by simp)
  · split at hdelete
    · exact absurd hdelete (by simp)
    · obtain ⟨rfl, -⟩ := Prod.mk.inj (Option.some.inj (Except.ok.inj hdelete))
      exact h.mono (fun r hr => ⟨r, (List.mem_filter.mp hr).1, rfl⟩)
        (fun _ hrow => (List.mem_filter.mp hrow).1) fun _ hrow => (List.mem_filter.mp hrow).1

/-- An image that is deleted is forgotten, and no value changes. -/
theorem of_deleteImage (h : db.Written) (imageId : UUID) : (db.deleteImage imageId).Written := by
  refine h.mono (fun r hr => ?_) (fun _ hrow => hrow) fun _ hrow => hrow
  obtain ⟨old, hold, rfl⟩ := List.mem_map.mp hr
  exact ⟨old, hold, rfl⟩

end Db.Written

/-! ## Every step keeps them -/

omit [CaseFolding] in
/-- A statement about collections writes no line item and no tax. What it
writes are collections, links and tags, one case for each statement. -/
theorem Db.children_afterStatement {db db' : Db} {statement : CollectionStatement}
    (h : db.afterStatement statement = some db') :
    db'.lineItems = db.lineItems ∧ db'.taxes = db.taxes := by
  -- collections, links and tags only
  cases statement with
  | deactivateSiblings userId =>
    obtain rfl := Option.some.inj h
    exact ⟨rfl, rfl⟩
  | insert now newId userId values active =>
    obtain ⟨⟨db₁, row⟩, hok, rfl⟩ := Option.map_eq_some_iff.mp h
    obtain ⟨values', -, h₁⟩ := bind_eq_ok.mp (ok_of_toOption hok)
    split at h₁
    · exact absurd h₁ (by simp [throw, throwThe, MonadExceptOf.throw, bind, Except.bind])
    · dsimp only at h₁
      split at h₁
      · obtain ⟨rfl, -⟩ := Prod.mk.inj (Except.ok.inj h₁)
        exact ⟨rfl, rfl⟩
      · exact absurd h₁ (by simp [throw, throwThe, MonadExceptOf.throw])
  | update caller collectionId values =>
    obtain ⟨⟨db₁, row⟩, hok, rfl⟩ := Option.map_eq_some_iff.mp h
    obtain ⟨values', -, h₁⟩ := bind_eq_ok.mp (ok_of_toOption (Option.join_eq_some_iff.mp hok))
    obtain ⟨old, -, heq⟩ := Option.map_eq_some_iff.mp (Except.ok.inj h₁)
    obtain ⟨rfl, -⟩ := Prod.mk.inj heq
    exact ⟨rfl, rfl⟩
  | setActive caller collectionId active =>
    obtain ⟨⟨db₁, row⟩, hok, rfl⟩ := Option.map_eq_some_iff.mp h
    have hset := ok_of_toOption (Option.join_eq_some_iff.mp hok)
    unfold setActive at hset
    split at hset
    · exact absurd (Except.ok.inj hset) (by simp)
    · dsimp only at hset
      split at hset
      · exact absurd hset (by simp)
      · obtain ⟨rfl, -⟩ := Prod.mk.inj (Option.some.inj (Except.ok.inj hset))
        exact ⟨rfl, rfl⟩
  | delete caller collectionId =>
    obtain ⟨old, -, rfl⟩ := Option.map_eq_some_iff.mp h
    exact ⟨rfl, rfl⟩
  | unassign collectionId receiptId =>
    obtain rfl := Option.some.inj h
    exact ⟨rfl, rfl⟩
  | createTag name =>
    obtain ⟨⟨db₁, isNew⟩, hok, rfl⟩ := Option.map_eq_some_iff.mp h
    obtain ⟨name', -, h₁⟩ := bind_eq_ok.mp (ok_of_toOption hok)
    split at h₁
    · obtain ⟨rfl, -⟩ := Prod.mk.inj (Except.ok.inj h₁)
      exact ⟨rfl, rfl⟩
    · obtain ⟨rfl, -⟩ := Prod.mk.inj (Except.ok.inj h₁)
      exact ⟨rfl, rfl⟩

/-- **What an operation stores was written.** One case for each operation;
all but two keep the values of every row. -/
theorem World.written_exec {settings : Settings} {w w' : World} {op : Op} {c : Choice}
    {r : Except Exn op.Ret} (h : w.db.Written) (hexec : w.exec settings op c = some (w', r)) :
    w'.db.Written := by
  cases World.changes_exec hexec with
  | images hframe => exact h.of_eq (by rw [hframe]) (by rw [hframe]) (by rw [hframe])
  | persistReceipt hok => exact h.of_persistReceipt hok
  | updateReceipt hok => exact h.of_updateReceipt hok
  | verifyReceipt hok => exact h.of_verifyReceipt hok
  | deleteReceipt hok => exact h.of_deleteReceipt hok
  | deleteImage hdb => exact hdb ▸ h.of_deleteImage _
  | assign hok =>
    have hframe := Db.assign_frame hok
    exact h.of_eq (by rw [hframe]) (by rw [hframe]) (by rw [hframe])
  | deleteReceiptCollections hdb =>
    exact h.of_eq (by rw [hdb]; rfl) (by rw [hdb]; rfl) (by rw [hdb]; rfl)

/-- **What is stored was written**, in every state that is reached. An
empty database has no rows, and each operation of each program keeps the
property. -/
theorem written_of_run {settings : Settings} {files : Files} {clock : Timestamp}
    {s : Threads Op.Ret Exn World}
    (run : Transition.Reachable (TenantStep settings) ⟨World.initial files clock, []⟩ s) :
    s.shared.db.Written := by
  refine Threads.invariant_of_calls (P := fun _ => True) (I := fun w : World => w.db.Written)
    ?_ ?_ (fun _ => Program.calls_true _) ?_ run
  · exact fun _ op _ w c r w' hinv hexec => World.written_exec hinv hexec
  · intro w statement w' hinv hstep
    obtain ⟨db, hdb, rfl⟩ := World.afterStatement_eq hstep
    obtain ⟨hitems, htaxes⟩ := Db.children_afterStatement hdb
    exact Db.Written.of_eq hinv (Db.afterStatement_spec hdb).receipts hitems htaxes
  · exact ⟨fun r hr => absurd hr List.not_mem_nil, fun r hr => absurd hr List.not_mem_nil,
      fun r hr => absurd hr List.not_mem_nil⟩

end VisionBill
