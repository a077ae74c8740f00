import VisionBill.Lib.Transactions
import VisionBill.Provenance

/-!
# The writers of a receipt, statement by statement

`update_receipt` and `persist_receipt` are transactions of many
statements, which other transactions may come between. Here they are
programs over their statements, run as the database runs them, under READ
COMMITTED.

Both begin with an `UPDATE` of the receipt row, which locks it until the
end of the transaction. So whoever replaces the line items and taxes of a
receipt is alone in doing so, and the operations of the other modules,
which take such a transaction in one piece, are what happens
(`alone_updateReceipt`, `alone_persistReceipt`, `writers_serialize`).

## Why a lock is enough

Under READ COMMITTED each statement sees what has been committed when it
starts, so two transactions that delete and insert the children of one
receipt could mix them: one deletes what it sees, and what the other
inserts meanwhile stays. Here the second transaction waits with its first
statement until the first one has ended, and sees all of it afterwards.
This is a fact about programs that begin with a statement which locks
(`Statements.LocksFirst`), shown once in `VisionBill.Lib.Transactions`;
what has to be shown of the two transactions is that they are such
programs (`locksFirst_program`). One case needs care: an update that does
not find its receipt locks nothing. But then it ends.

## One piece or many statements

The other modules take each transaction as one operation, written as a
function of the database. The two descriptions were made independently,
and that they agree is shown part by part: for each statement, for the
loops over items and taxes, and for the whole.
-/

namespace VisionBill

section Statements

variable [CaseFolding]

/-! ## Statements

The statements of the two functions, one by one, with the rows that they
write and the locks that they take. A statement sees what is committed and
what its own transaction has written. -/

/-- The statements of the two transactions. A transaction is a program
over these, so that the locks of one statement can be told from those of
the next. -/
inductive ReceiptStatement
  /-- `UPDATE_RECEIPT_SQL`, scoped to the caller. -/
  | updateReceipt (receiptId : UUID) (values : ReceiptValues) (caller : Caller)
  /-- `UPDATE_RECEIPT_BY_IMAGE_SQL`. -/
  | updateReceiptByImage (imageId : UUID) (values : ReceiptValues) (status : ReceiptStatus)
      (verified : Bool) (userId : Option UUID)
  /-- `INSERT_RECEIPT_SQL`. -/
  | insertReceipt (row : ReceiptRecord)
  /-- `LIST_LINE_ITEMS_SQL`. -/
  | listLineItems (receiptId : UUID)
  /-- `_history_for_items`, which sends `LIST_CATEGORY_ALIASES_SQL` if it
  has keys. -/
  | historyForItems (userId : Option UUID) (merchantName : String) (descriptions : List String)
  /-- `UPSERT_CATEGORY_ALIAS_SQL`. -/
  | upsertCategoryAlias (ownerId : UUID) (merchantKey descriptionKey : String)
      (category : SpendingCategory)
  /-- `DELETE_CATEGORY_ALIAS_SQL`. -/
  | deleteCategoryAlias (ownerId : UUID) (merchantKey descriptionKey : String)
  /-- `DELETE_LINE_ITEMS_SQL`. -/
  | deleteLineItems (receiptId : UUID)
  /-- `DELETE_TAXES_SQL`. -/
  | deleteTaxes (receiptId : UUID)
  /-- `INSERT_LINE_ITEM_SQL`. -/
  | insertLineItem (newId receiptId : UUID) (index : ℕ) (item : LineItem)
      (decision : ItemCategoryDecision)
  /-- `INSERT_TAX_SQL`. -/
  | insertTax (newId receiptId : UUID) (tax : TaxLine)

namespace ReceiptStatement

/-- What a statement returns. -/
@[reducible] def Ret : ReceiptStatement → Type
  | updateReceipt .. | updateReceiptByImage .. => Option ReceiptRecord
  | insertReceipt .. => ReceiptRecord
  | listLineItems .. => List LineItemRecord
  | historyForItems .. => List (String × SpendingCategory)
  | upsertCategoryAlias .. | deleteCategoryAlias .. | deleteLineItems .. | deleteTaxes ..
  | insertLineItem .. | insertTax .. => Unit

end ReceiptStatement

/-- A row that a statement has written or removed. What is written in a
transaction is a list of these, which the others see when it commits. -/
inductive RowWrite
  | receipt (row : ReceiptRecord)
  | newReceipt (row : ReceiptRecord)
  | alias (row : AliasRecord)
  | noAlias (key : AliasKey)
  | noLineItems (ids : List UUID)
  | lineItem (row : LineItemRecord)
  | noTaxes (ids : List UUID)
  | tax (row : TaxRecord)

namespace Db

/-- The database with a row written. It is total: a transaction that would
violate a key has failed before it comes to writing. -/
def write (db : Db) : RowWrite → Db
  | .receipt row =>
    { db with receipts := db.receipts.update row.id (fun r => { row with id := r.id }) fun _ => rfl }
  | .newReceipt row => { db with receipts := (db.receipts.insert row).getD db.receipts }
  | .alias row => { db with aliases := db.aliases.upsert row }
  | .noAlias key => db.deleteAlias key
  | .noLineItems ids => { db with lineItems := db.lineItems.filter (fun row => row.id ∉ ids) }
  | .lineItem row => { db with lineItems := (db.lineItems.insert row).getD db.lineItems }
  | .noTaxes ids => { db with taxes := db.taxes.filter (fun row => row.id ∉ ids) }
  | .tax row => { db with taxes := (db.taxes.insert row).getD db.taxes }

end Db

namespace ReceiptStatement

/-- What a statement writes and returns. -/
def eval (db : Db) : (op : ReceiptStatement) → Except DbError (List RowWrite × op.Ret)
  | updateReceipt receiptId values caller =>
    match db.receiptFor? caller receiptId with
    | some old =>
      let row := { old with toReceiptValues := values }
      .ok ([.receipt row], some row)
    | none => .ok ([], none)
  | updateReceiptByImage imageId values status verified userId =>
    match db.receiptOfImage? imageId with
    | some old =>
      let row := Db.rewritten values status verified userId old
      .ok ([.receipt row], some row)
    | none => .ok ([], none)
  | insertReceipt row => do
    let _ ← db.insertReceipt row
    return ([.newReceipt row], row)
  | listLineItems receiptId => .ok ([], db.listLineItems receiptId)
  | historyForItems userId merchantName descriptions => do
    let history ← db.historyForItems userId merchantName descriptions
    return ([], history)
  | upsertCategoryAlias ownerId merchantKey descriptionKey category => do
    let key : AliasKey := ⟨ownerId, ← text merchantKey, ← text descriptionKey⟩
    return ([.alias { toAliasKey := key, category := category.code }], ())
  | deleteCategoryAlias ownerId merchantKey descriptionKey => do
    let key : AliasKey := ⟨ownerId, ← text merchantKey, ← text descriptionKey⟩
    return ([.noAlias key], ())
  | deleteLineItems receiptId =>
    let rows := db.lineItems.rows.filter (fun row => row.receiptId = receiptId)
    .ok ([.noLineItems (rows.map LineItemRecord.id)], ())
  | deleteTaxes receiptId =>
    let rows := db.taxes.rows.filter (fun row => row.receiptId = receiptId)
    .ok ([.noTaxes (rows.map TaxRecord.id)], ())
  | insertLineItem newId receiptId index item decision => do
    let row ← lineItemRecord newId receiptId index item decision
    db.requireReceipt receiptId
    match db.lineItems.insert row with
    | some _ => return ([.lineItem row], ())
    | none => throw .uniqueViolation
  | insertTax newId receiptId tax => do
    let row ← taxRecord newId receiptId tax
    db.requireReceipt receiptId
    match db.taxes.insert row with
    | some _ => return ([.tax row], ())
    | none => throw .uniqueViolation

/-- The receipt rows that a statement locks. Only the two updates meet
rows that another of these transactions may hold: all others write rows of
a receipt that is locked already. -/
def locks : ReceiptStatement → Db → List UUID
  | updateReceipt receiptId _ caller, db =>
    ((db.receiptFor? caller receiptId).map fun r => r.id).toList
  | updateReceiptByImage imageId _ _ _ _, db =>
    ((db.receiptOfImage? imageId).map fun r => r.id).toList
  | _, _ => []

/-- How the statements work: what each returns, what it writes and what it
locks. Under READ COMMITTED a statement that waits for a row reads it
again when it gets it. -/
def sql : Statements ReceiptStatement.Ret DbError Db RowWrite UUID where
  eval := fun op db => eval db op
  locks := locks
  write := Db.write

end ReceiptStatement

/-! ## The transactions

The two functions once more, with their statements as operations. They
follow the text of the source, as the versions in one piece do. -/

/-- A transaction over these statements. -/
abbrev Transaction (α : Type) := Program ReceiptStatement.Ret DbError α

namespace Transaction

/-- A statement is sent. -/
abbrev send (op : ReceiptStatement) : Transaction op.Ret := Program.perform op

/-- A computation that may raise, without a statement. -/
def lift {α : Type} : Except DbError α → Transaction α
  | .ok a => pure a
  | .error e => throw e

/-- A category is remembered, or forgotten when it is unknown. -/
def rememberKey (ownerId : UUID) (merchantKey descriptionKey : String)
    (category : SpendingCategory) : Transaction Unit :=
  if category = .unknown then send (.deleteCategoryAlias ownerId merchantKey descriptionKey)
  else send (.upsertCategoryAlias ownerId merchantKey descriptionKey category)

/-- The inner loop of `update_receipt`. A description that is blank has no
key, and nothing is remembered for it. -/
def remember (ownerId : UUID) (merchantKey : String) (category : SpendingCategory) :
    List String → Transaction Unit
  | [] => pure ()
  | descriptionKey :: keys =>
    if descriptionKey = "" then remember ownerId merchantKey category keys
    else do
      rememberKey ownerId merchantKey descriptionKey category
      remember ownerId merchantKey category keys

/-- The categories that one item has remembered. They are written by
statements of the same transaction, so an update that fails remembers
nothing. -/
def rememberItem (c : UpdateContext) (decision : ItemCategoryDecision) (item : LineItemUpdate) :
    Transaction Unit :=
  match c.ownerId with
  | some ownerId =>
    if item.rememberCategory ∧ c.merchantKey ≠ "" then
      remember ownerId c.merchantKey decision.category (rememberedKeys decision item.toLineItem)
    else pure ()
  | none => pure ()

/-- The loop of `update_receipt`. Two items may not name the same row, and
the second of them ends the transaction. -/
def decideItems (c : UpdateContext) (usedIds : List UUID) (position : ℕ) :
    List LineItemUpdate → Transaction (List ItemCategoryDecision)
  | [] => pure []
  | item :: items => do
    let old ← lift (c.old? position item)
    if ∃ row ∈ old, row.id ∈ usedIds then throw (.valueError "Duplicate line item id")
    let decision := updateDecision old item
    rememberItem c decision item
    let decisions ←
      decideItems c ((old.map LineItemRecord.id).toList ++ usedIds) (position + 1) items
    return decision :: decisions

/-- The insertions of line items, from an index on. -/
def insertLineItems (fresh : ℕ → UUID) (receiptId : UUID) (index : ℕ) :
    List (LineItem × ItemCategoryDecision) → Transaction Unit
  | [] => pure ()
  | (item, decision) :: l => do
    send (.insertLineItem (fresh index) receiptId index item decision)
    insertLineItems fresh receiptId (index + 1) l

/-- The insertions of taxes. -/
def insertTaxes (fresh : ℕ → UUID) (receiptId : UUID) (index : ℕ) : List TaxLine → Transaction Unit
  | [] => pure ()
  | tax :: l => do
    send (.insertTax (fresh index) receiptId tax)
    insertTaxes fresh receiptId (index + 1) l

/-- The two deletions and `_insert_children`. Between them the receipt has
no children, which no other transaction sees. -/
def replaceChildren (fresh : ℕ → UUID) (receiptId : UUID) (lineItems : List LineItem)
    (taxes : List TaxLine) (decisions : List ItemCategoryDecision) : Transaction Unit := do
  send (.deleteLineItems receiptId)
  send (.deleteTaxes receiptId)
  insertLineItems fresh receiptId 0 (lineItems.zip decisions)
  insertTaxes fresh receiptId lineItems.length taxes

/-- `update_receipt`. It writes the receipt first, which locks its row,
and reads the children after that. -/
def updateReceipt (fresh : ℕ → UUID) (receiptId : UUID) (receipt : ReceiptUpdate)
    (caller : Caller) : Transaction (Option ReceiptRecord) := do
  let values ← lift receipt.values
  let row : Option ReceiptRecord ← send (.updateReceipt receiptId values caller)
  match row with
  | none => return none
  | some row =>
    let oldRows : List LineItemRecord ← send (.listLineItems receiptId)
    let c : UpdateContext := {
      ownerId := row.userId
      merchantKey := normalizeHistoryKey receipt.merchantName
      oldRows := oldRows
      legacyItems := (receipt.lineItems.all fun item => item.id.isNone)
        && oldRows.length == receipt.lineItems.length }
    let decisions ← decideItems c [] 0 receipt.lineItems
    replaceChildren fresh receiptId (receipt.lineItems.map LineItemUpdate.toLineItem)
      receipt.taxes decisions
    return some row

/-- The receipt row of `persist_receipt`: the one of the image is
rewritten, or a new one inserted. -/
def writeReceipt (now : Timestamp) (newId : UUID) (values : ReceiptValues) (imageId : Option UUID)
    (status : ReceiptStatus) (verified : Bool) (userId : Option UUID) :
    Transaction ReceiptRecord := do
  let row : Option ReceiptRecord ←
    match imageId with
    | some imageId => send (.updateReceiptByImage imageId values status verified userId)
    | none => pure none
  match row with
  | some row => return row
  | none =>
    send (.insertReceipt {
      toReceiptValues := values
      id := newId
      status := status
      verified := verified
      imageId := imageId
      userId := userId
      createdAt := now })

/-- `persist_receipt`. It writes the receipt of the image if there is one,
and inserts one otherwise. -/
def persistReceipt (now : Timestamp) (fresh : ℕ → UUID) (receipt : Receipt)
    (imageId : Option UUID) (status : ReceiptStatus) (verified : Bool) (userId : Option UUID) :
    Transaction ReceiptRecord := do
  let values ← lift receipt.values
  let row ← writeReceipt now (fresh 0) values imageId status verified userId
  let history : List (String × SpendingCategory) ← send (.historyForItems userId
    receipt.merchantName (receipt.lineItems.map LineItem.description))
  let decisions := receipt.lineItems.map (Db.persistDecision history)
  replaceChildren (fun n => fresh (n + 1)) row.id receipt.lineItems receipt.taxes decisions
  return row

end Transaction

/-! ## A transaction alone

A transaction that runs alone is the operation of the database that takes it in
one piece. -/

section Alone

open ReceiptStatement Transaction

variable {db : Db}

omit [CaseFolding] in
/-- Rewriting the row with an id is writing the new row. The function may
change all of the row but its id, so that the table has the same keys. -/
theorem write_receipt {receiptId : UUID} {old : ReceiptRecord}
    (hold : db.receipts.get? receiptId = some old) (f : ReceiptRecord → ReceiptRecord)
    (hf : ∀ r, (f r).id = r.id) :
    db.write (.receipt (f old)) = { db with receipts := db.receipts.update receiptId f hf } := by
  obtain ⟨hmem, hid⟩ := Table.get?_eq_some_iff.mp hold
  have hrow : (f old).id = receiptId := (hf old).trans hid
  have htable : db.receipts.update (f old).id (fun r => { f old with id := r.id }) (fun _ => rfl)
      = db.receipts.update receiptId f hf := by
    ext : 1
    refine List.map_congr_left fun r hr => ?_
    rw [hrow]
    split
    · next heq =>
      obtain rfl := db.receipts.eq_of_key_eq hr hmem (heq.trans hid.symm)
      show { f r with id := r.id } = f r
      rw [← hf r]
    · rfl
  show { db with receipts := _ } = _
  rw [htable]

omit [CaseFolding] in
/-- The rows of a receipt, by their ids. -/
theorem mem_idsOf {ρ : Type} {key : ρ → UUID} (t : Table ρ key) (p : ρ → Bool) {row : ρ}
    (hrow : row ∈ t.rows) : key row ∈ (t.rows.filter p).map key ↔ p row = true := by
  rw [List.mem_map]
  constructor
  · rintro ⟨row', hrow', hkey⟩
    obtain ⟨hmem, hp⟩ := List.mem_filter.mp hrow'
    rwa [← t.eq_of_key_eq hmem hrow hkey]
  · exact fun hp => ⟨row, List.mem_filter.mpr ⟨hrow, hp⟩, rfl⟩

/-- A computation sends nothing. -/
theorem alone_lift {α : Type} (x : Except DbError α) :
    sql.alone (lift x) db = x.map fun a => (db, a) := by
  cases x <;> rfl

/-- A statement alone does what it does. -/
theorem alone_send (op : ReceiptStatement) :
    sql.alone (send op) db = (eval db op).map fun out => (out.1.foldl Db.write db, out.2) :=
  sql.alone_perform

theorem alone_rememberKey {ownerId : UUID} {merchantKey descriptionKey : String}
    {category : SpendingCategory} :
    sql.alone (rememberKey ownerId merchantKey descriptionKey category) db = (do
      let key : AliasKey := ⟨ownerId, ← text merchantKey, ← text descriptionKey⟩
      return (if category = .unknown then db.deleteAlias key
        else db.upsertAlias key category.code, ())) := by
  unfold rememberKey
  by_cases h : category = .unknown
  · rw [if_pos h, alone_send]
    simp only [if_pos h, eval]
    cases text merchantKey with
    | error e => rfl
    | ok a => cases text descriptionKey <;> rfl
  · rw [if_neg h, alone_send]
    simp only [if_neg h, eval]
    cases text merchantKey with
    | error e => rfl
    | ok a => cases text descriptionKey <;> rfl

theorem alone_remember {ownerId : UUID} {merchantKey : String} {category : SpendingCategory}
    {keys : List String} :
    sql.alone (remember ownerId merchantKey category keys) db
      = (db.remember ownerId merchantKey category keys).map fun db' => (db', ()) := by
  induction keys generalizing db with
  | nil => rfl
  | cons descriptionKey keys ih =>
    unfold remember Db.remember
    split
    · exact ih
    · rw [sql.alone_bind, alone_rememberKey]
      cases text merchantKey with
      | error e => rfl
      | ok a =>
        cases text descriptionKey with
        | error e => rfl
        | ok b => exact ih

theorem alone_rememberItem {c : UpdateContext} {decision : ItemCategoryDecision}
    {item : LineItemUpdate} :
    sql.alone (rememberItem c decision item) db
      = (db.rememberItem c decision item).map fun db' => (db', ()) := by
  unfold rememberItem Db.rememberItem
  cases c.ownerId with
  | none => rfl
  | some ownerId =>
    dsimp only
    by_cases h : item.rememberCategory ∧ c.merchantKey ≠ ""
    · rw [if_pos h, if_pos h]
      exact alone_remember
    · rw [if_neg h, if_neg h]
      rfl

/-- The loop of an update reads and writes in turn, item by item. So an
item may find what was remembered for the one before it. -/
theorem alone_decideItems {c : UpdateContext} {usedIds : List UUID} {position : ℕ}
    {items : List LineItemUpdate} :
    sql.alone (decideItems c usedIds position items) db
      = db.decideItems c usedIds position items := by
  induction items generalizing db usedIds position with
  | nil => rfl
  | cons item items ih =>
    unfold decideItems Db.decideItems
    rw [sql.alone_bind, alone_lift]
    cases c.old? position item with
    | error e => rfl
    | ok old =>
      refine (bind_of_ok rfl).trans (Eq.trans ?_ (bind_of_ok rfl).symm)
      dsimp only
      by_cases hdup : ∃ row ∈ old, row.id ∈ usedIds
      · rw [if_pos hdup, if_pos hdup]
        rfl
      · rw [if_neg hdup, if_neg hdup, sql.alone_bind, alone_rememberItem]
        cases db.rememberItem c (updateDecision old item) item with
        | error e => rfl
        | ok db₁ =>
          refine (bind_of_ok rfl).trans (Eq.trans ?_ (bind_of_ok rfl).symm)
          dsimp only
          rw [sql.alone_bind, ih]
          cases db₁.decideItems c ((old.map LineItemRecord.id).toList ++ usedIds) (position + 1)
            items <;> rfl

theorem alone_insertLineItem {newId receiptId : UUID} {index : ℕ} {item : LineItem}
    {decision : ItemCategoryDecision} :
    sql.alone (send (.insertLineItem newId receiptId index item decision)) db = (do
      let row ← lineItemRecord newId receiptId index item decision
      db.requireReceipt receiptId
      match db.lineItems.insert row with
      | some lineItems => .ok ({ db with lineItems := lineItems }, ())
      | none => .error .uniqueViolation) := by
  rw [alone_send]
  simp only [eval]
  cases lineItemRecord newId receiptId index item decision with
  | error e => rfl
  | ok row =>
    cases db.requireReceipt receiptId with
    | error e => rfl
    | ok _ =>
      have hwrite : db.write (.lineItem row)
          = { db with lineItems := (db.lineItems.insert row).getD db.lineItems } := rfl
      refine (congrArg (Except.map _) ((bind_of_ok rfl).trans (bind_of_ok rfl))).trans
        (Eq.trans ?_ ((bind_of_ok rfl).trans (bind_of_ok rfl)).symm)
      cases hinsert : db.lineItems.insert row with
      | none => rfl
      | some lineItems =>
        rw [hinsert] at hwrite
        exact congrArg (fun db' => Except.ok (db', ())) hwrite

theorem alone_insertTax {newId receiptId : UUID} {tax : TaxLine} :
    sql.alone (send (.insertTax newId receiptId tax)) db = (do
      let row ← taxRecord newId receiptId tax
      db.requireReceipt receiptId
      match db.taxes.insert row with
      | some taxes => .ok ({ db with taxes := taxes }, ())
      | none => .error .uniqueViolation) := by
  rw [alone_send]
  simp only [eval]
  cases taxRecord newId receiptId tax with
  | error e => rfl
  | ok row =>
    cases db.requireReceipt receiptId with
    | error e => rfl
    | ok _ =>
      have hwrite : db.write (.tax row)
          = { db with taxes := (db.taxes.insert row).getD db.taxes } := rfl
      refine (congrArg (Except.map _) ((bind_of_ok rfl).trans (bind_of_ok rfl))).trans
        (Eq.trans ?_ ((bind_of_ok rfl).trans (bind_of_ok rfl)).symm)
      cases hinsert : db.taxes.insert row with
      | none => rfl
      | some taxes =>
        rw [hinsert] at hwrite
        exact congrArg (fun db' => Except.ok (db', ())) hwrite

/-- The insertions, one after another, are the one that takes them
together. The induction is on the items, and each insertion takes the next
of the identifiers. -/
theorem alone_insertLineItems {fresh : ℕ → UUID} {receiptId : UUID} {index : ℕ}
    {l : List (LineItem × ItemCategoryDecision)} :
    sql.alone (insertLineItems fresh receiptId index l) db
      = (db.insertLineItems fresh receiptId index l).map fun db' => (db', ()) := by
  induction l generalizing db index with
  | nil => rfl
  | cons p l ih =>
    obtain ⟨item, decision⟩ := p
    unfold insertLineItems Db.insertLineItems
    rw [sql.alone_bind, alone_insertLineItem]
    cases lineItemRecord (fresh index) receiptId index item decision with
    | error e => rfl
    | ok row =>
      cases db.requireReceipt receiptId with
      | error e => rfl
      | ok _ =>
        show (match db.lineItems.insert row with
          | some lineItems => .ok ({ db with lineItems := lineItems }, ())
          | none => .error .uniqueViolation) >>= _
          = Except.map _ (match db.lineItems.insert row with
            | some lineItems => Db.insertLineItems { db with lineItems := lineItems } fresh
              receiptId (index + 1) l
            | none => .error .uniqueViolation)
        cases db.lineItems.insert row with
        | none => rfl
        | some lineItems => exact ih

theorem alone_insertTaxes {fresh : ℕ → UUID} {receiptId : UUID} {index : ℕ} {l : List TaxLine} :
    sql.alone (insertTaxes fresh receiptId index l) db
      = (db.insertTaxes fresh receiptId index l).map fun db' => (db', ()) := by
  induction l generalizing db index with
  | nil => rfl
  | cons tax l ih =>
    unfold insertTaxes Db.insertTaxes
    rw [sql.alone_bind, alone_insertTax]
    cases taxRecord (fresh index) receiptId tax with
    | error e => rfl
    | ok row =>
      cases db.requireReceipt receiptId with
      | error e => rfl
      | ok _ =>
        show (match db.taxes.insert row with
          | some taxes => .ok ({ db with taxes := taxes }, ())
          | none => .error .uniqueViolation) >>= _
          = Except.map _ (match db.taxes.insert row with
            | some taxes => Db.insertTaxes { db with taxes := taxes } fresh receiptId (index + 1) l
            | none => .error .uniqueViolation)
        cases db.taxes.insert row with
        | none => rfl
        | some taxes => exact ih

theorem alone_deleteLineItems {receiptId : UUID} :
    sql.alone (send (.deleteLineItems receiptId)) db
      = .ok ({ db with
          lineItems := db.lineItems.filter (fun row => row.receiptId ≠ receiptId) }, ()) := by
  have htable : db.lineItems.filter (fun row => row.id ∉ (db.lineItems.rows.filter
        (fun row => row.receiptId = receiptId)).map LineItemRecord.id)
      = db.lineItems.filter (fun row => row.receiptId ≠ receiptId) := by
    ext : 1
    refine List.filter_congr fun row hrow => decide_eq_decide.mpr (not_congr ?_)
    rw [mem_idsOf db.lineItems _ hrow, decide_eq_true_eq]
  rw [alone_send, ← htable]
  rfl

theorem alone_deleteTaxes {receiptId : UUID} :
    sql.alone (send (.deleteTaxes receiptId)) db
      = .ok ({ db with taxes := db.taxes.filter (fun row => row.receiptId ≠ receiptId) }, ()) := by
  have htable : db.taxes.filter (fun row => row.id ∉ (db.taxes.rows.filter
        (fun row => row.receiptId = receiptId)).map TaxRecord.id)
      = db.taxes.filter (fun row => row.receiptId ≠ receiptId) := by
    ext : 1
    refine List.filter_congr fun row hrow => decide_eq_decide.mpr (not_congr ?_)
    rw [mem_idsOf db.taxes _ hrow, decide_eq_true_eq]
  rw [alone_send, ← htable]
  rfl

/-- The children of a receipt are replaced. -/
theorem alone_replaceChildren {fresh : ℕ → UUID} {receiptId : UUID} {lineItems : List LineItem}
    {taxes : List TaxLine} {decisions : List ItemCategoryDecision} :
    sql.alone (replaceChildren fresh receiptId lineItems taxes decisions) db
      = ((db.deleteChildren receiptId).insertChildren fresh receiptId lineItems taxes
          decisions).map fun db' => (db', ()) := by
  unfold replaceChildren Db.insertChildren
  rw [sql.alone_bind, alone_deleteLineItems]
  refine (bind_of_ok rfl).trans ?_
  rw [sql.alone_bind, alone_deleteTaxes]
  refine (bind_of_ok rfl).trans ?_
  rw [sql.alone_bind, alone_insertLineItems]
  show _ = Except.map _ ((db.deleteChildren receiptId).insertLineItems fresh receiptId 0
    (lineItems.zip decisions) >>= _)
  show Except.map _ ((db.deleteChildren receiptId).insertLineItems fresh receiptId 0
    (lineItems.zip decisions)) >>= _ = _
  cases (db.deleteChildren receiptId).insertLineItems fresh receiptId 0
    (lineItems.zip decisions) with
  | error e => rfl
  | ok db₁ => exact alone_insertTaxes

/-- What the operation of the database returns, as the transaction does.
An update that finds nothing changes nothing. -/
def outcome (db : Db) : Option (Db × ReceiptRecord) → Db × Option ReceiptRecord
  | some (db', row) => (db', some row)
  | none => (db, none)

/-- **`update_receipt` in one piece** is its transaction alone. What was
proved of the function can be said of the transaction by it. -/
theorem alone_updateReceipt {fresh : ℕ → UUID} {receiptId : UUID} {receipt : ReceiptUpdate}
    {caller : Caller} :
    sql.alone (Transaction.updateReceipt fresh receiptId receipt caller) db
      = (db.updateReceipt fresh receiptId receipt caller).map (outcome db) := by
  unfold Transaction.updateReceipt Db.updateReceipt
  rw [sql.alone_bind, alone_lift]
  cases receipt.values with
  | error e => rfl
  | ok values =>
    refine (bind_of_ok rfl).trans (Eq.trans ?_ (congrArg (Except.map (outcome db))
      (bind_of_ok rfl).symm))
    dsimp only
    rw [sql.alone_bind, alone_send]
    simp only [eval]
    -- the first statement finds the row and rewrites it, or the transaction ends
    cases hold : db.receiptFor? caller receiptId with
    | none => rfl
    | some old =>
      have hget : db.receipts.get? receiptId = some old := (Option.filter_eq_some_iff.mp hold).1
      have hwrite := write_receipt hget (fun r => { r with toReceiptValues := values })
        fun _ => rfl
      refine (bind_of_ok rfl).trans ?_
      show sql.alone _ (db.write (.receipt { old with toReceiptValues := values })) = _
      rw [hwrite, sql.alone_bind, alone_send]
      refine (bind_of_ok rfl).trans ?_
      dsimp only
      rw [sql.alone_bind, alone_decideItems]
      refine Eq.trans ?_ map_bind_except.symm
      refine bind_congr fun out => ?_
      rw [sql.alone_bind, alone_replaceChildren]
      refine Eq.trans ?_ map_bind_except.symm
      cases (out.1.deleteChildren receiptId).insertChildren fresh receiptId
        (receipt.lineItems.map LineItemUpdate.toLineItem) receipt.taxes out.2 <;> rfl

/-- The row that `persist_receipt` writes. -/
theorem alone_writeReceipt {now : Timestamp} {newId : UUID} {values : ReceiptValues}
    {imageId : Option UUID} {status : ReceiptStatus} {verified : Bool} {userId : Option UUID} :
    sql.alone (Transaction.writeReceipt now newId values imageId status verified userId) db
      = db.writeReceipt now newId values imageId status verified userId := by
  have hinsert : ∀ row : ReceiptRecord, sql.alone (send (.insertReceipt row)) db
      = (db.insertReceipt row).map fun db => (db, row) := by
    intro row
    rw [alone_send]
    simp only [eval]
    unfold Db.insertReceipt
    split
    · rfl
    · split
      · rfl
      · have hwrite : db.write (.newReceipt row)
            = { db with receipts := (db.receipts.insert row).getD db.receipts } := rfl
        cases hnew : db.receipts.insert row with
        | none => rfl
        | some receipts =>
          rw [hnew] at hwrite
          exact congrArg (fun db' => Except.ok (db', row)) hwrite
  unfold Transaction.writeReceipt Db.writeReceipt
  cases imageId with
  | none => exact hinsert _
  | some i =>
    dsimp only
    rw [sql.alone_bind, alone_send]
    simp only [eval, Option.bind_some]
    cases hold : db.receiptOfImage? i with
    | none => exact (bind_of_ok rfl).trans (hinsert _)
    | some old =>
      have hwrite := write_receipt (Db.receiptOfImage?_spec hold).1
        (Db.rewritten values status verified userId) fun _ => rfl
      exact congrArg (fun db' => Except.ok (db', Db.rewritten values status verified userId old))
        hwrite

/-- **`persist_receipt` in one piece** is its transaction alone. The row
is written first, then its children, and an exception takes back both. -/
theorem alone_persistReceipt {now : Timestamp} {fresh : ℕ → UUID} {receipt : Receipt}
    {imageId : Option UUID} {status : ReceiptStatus} {verified : Bool} {userId : Option UUID} :
    sql.alone (Transaction.persistReceipt now fresh receipt imageId status verified userId) db
      = db.persistReceipt now fresh receipt imageId status verified userId := by
  unfold Transaction.persistReceipt Db.persistReceipt
  rw [sql.alone_bind, alone_lift]
  cases receipt.values with
  | error e => rfl
  | ok values =>
    refine (bind_of_ok rfl).trans (Eq.trans ?_ (bind_of_ok rfl).symm)
    rw [sql.alone_bind, alone_writeReceipt]
    refine bind_congr fun out => ?_
    rw [sql.alone_bind, alone_send]
    simp only [eval]
    cases out.1.historyForItems userId receipt.merchantName
        (receipt.lineItems.map LineItem.description) with
    | error e => rfl
    | ok history =>
      refine (bind_of_ok rfl).trans (Eq.trans ?_ (bind_of_ok rfl).symm)
      dsimp only
      rw [sql.alone_bind, alone_replaceChildren]
      show Except.map _ ((out.1.deleteChildren out.2.id).insertChildren _ _ _ _ _) >>= _ = _
      cases (out.1.deleteChildren out.2.id).insertChildren (fun n => fresh (n + 1)) out.2.id
        receipt.lineItems receipt.taxes
        (receipt.lineItems.map (Db.persistDecision history)) <;> rfl

end Alone

/-! ## The writers of one receipt

All calls are about the same receipt. Whatever they do, the first thing is
to write its row, so that the second waits for the first. -/

/-- A call of `update_receipt` on a receipt, or a call of
`persist_receipt` for an image. These are the two ways in which the
children of a receipt are replaced, and calls of both kinds may meet. -/
inductive WriteRequest
  | update (fresh : ℕ → UUID) (receipt : ReceiptUpdate) (caller : Caller)
  | persist (now : Timestamp) (fresh : ℕ → UUID) (receipt : Receipt) (imageId : UUID)
      (status : ReceiptStatus) (verified : Bool) (userId : Option UUID)

namespace WriteRequest

/-- The transaction of a call. -/
def program (receiptId : UUID) : WriteRequest → Transaction (Option ReceiptRecord)
  | update fresh receipt caller => Transaction.updateReceipt fresh receiptId receipt caller
  | persist now fresh receipt imageId status verified userId => do
    let row ← Transaction.persistReceipt now fresh receipt (some imageId) status verified userId
    return some row

/-- Whether a call is about a receipt: a re-extraction is, if the receipt
is that of its image. An update names its receipt, and may turn out not to
see it. Calls about different receipts have no row in common but
aliases. -/
def IsAbout (db : Db) (receiptId : UUID) : WriteRequest → Prop
  | update .. => True
  | persist _ _ _ imageId .. =>
    (db.receiptOfImage? imageId).map (fun r => r.id) = some receiptId

/-- The fields that a call carries. -/
def fields : WriteRequest → ReceiptFields
  | update _ receipt _ => receipt.toReceiptFields
  | persist _ _ receipt .. => receipt.toReceiptFields

/-- The line items that a call carries. -/
def lineItems : WriteRequest → List LineItem
  | update _ receipt _ => receipt.lineItems.map LineItemUpdate.toLineItem
  | persist _ _ receipt .. => receipt.lineItems

/-- The identifiers that are made for the rows of its children. -/
def newIds : WriteRequest → ℕ → UUID
  | update fresh .. => fresh
  | persist _ fresh .. => fun n => fresh (n + 1)

end WriteRequest

section Requests

open ReceiptStatement Transaction

variable {db : Db} {receiptId : UUID}

omit [CaseFolding] in
/-- The receipt of an image stays that, whatever is written in the rows of
receipts besides their keys. -/
theorem receiptOfImage?_update {db db' : Db} {k : UUID} {f : ReceiptRecord → ReceiptRecord}
    {hf : ∀ r, (f r).id = r.id} (h : db'.receipts = db.receipts.update k f hf)
    (himage : ∀ r, (f r).imageId = r.imageId) (hcreated : ∀ r, (f r).createdAt = r.createdAt)
    (imageId : UUID) :
    (db'.receiptOfImage? imageId).map (fun r => r.id)
      = (db.receiptOfImage? imageId).map fun r => r.id := by
  have hwrite : ∀ r, (if r.id = k then f r else r).id = r.id
      ∧ (if r.id = k then f r else r).imageId = r.imageId
      ∧ (if r.id = k then f r else r).createdAt = r.createdAt := by
    intro r
    split
    · exact ⟨hf r, himage r, hcreated r⟩
    · exact ⟨rfl, rfl, rfl⟩
  have hfilter : db'.receipts.rows.filter (fun r => r.imageId = some imageId)
      = (db.receipts.rows.filter (fun r => r.imageId = some imageId)).map
          fun r => if r.id = k then f r else r := by
    rw [h]
    show (db.receipts.rows.map _).filter _ = _
    rw [List.filter_map]
    refine congrArg _ (List.filter_congr fun r _ => ?_)
    exact decide_eq_decide.mpr (by rw [(hwrite r).2.1])
  have hsort := List.map_insertionSort
    (fun a b : ReceiptRecord => a.createdAt < b.createdAt ∨ (a.createdAt = b.createdAt ∧ a.id ≤ b.id))
    (fun a b : ReceiptRecord => a.createdAt < b.createdAt ∨ (a.createdAt = b.createdAt ∧ a.id ≤ b.id))
    (fun r => if r.id = k then f r else r)
    (db.receipts.rows.filter (fun r => r.imageId = some imageId)) fun a _ b _ => by
      rw [(hwrite a).1, (hwrite b).1, (hwrite a).2.2, (hwrite b).2.2]
  unfold Db.receiptOfImage? orderBy
  rw [hfilter, ← hsort, List.head?_map, Option.map_map]
  exact Option.map_congr fun r _ => (hwrite r).1

/-- What a call writes when it runs alone. The two kinds of call return
different things, and only the row is kept of them. -/
theorem alone_program (r : WriteRequest) :
    sql.alone (r.program receiptId) db
      = match r with
        | .update fresh receipt caller =>
          (db.updateReceipt fresh receiptId receipt caller).map (outcome db)
        | .persist now fresh receipt imageId status verified userId =>
          (db.persistReceipt now fresh receipt (some imageId) status verified userId).map
            fun out => (out.1, some out.2) := by
  cases r with
  | update fresh receipt caller => exact alone_updateReceipt
  | persist now fresh receipt imageId status verified userId =>
    unfold WriteRequest.program
    dsimp only
    rw [sql.alone_bind, alone_persistReceipt]
    cases db.persistReceipt now fresh receipt (some imageId) status verified userId <;> rfl

variable {db₀ : Db}

/-- The receipts of images are the same ones as at the beginning. So a
call stays about its receipt while others write. -/
def SameReceipts (db₀ db : Db) : Prop :=
  ∀ imageId, (db.receiptOfImage? imageId).map (fun r => r.id)
    = (db₀.receiptOfImage? imageId).map fun r => r.id

theorem SameReceipts.program {r : WriteRequest} (hr : r.IsAbout db₀ receiptId) {db' : Db}
    {a : Option ReceiptRecord} (h : SameReceipts db₀ db)
    (halone : sql.alone (r.program receiptId) db = .ok (db', a)) : SameReceipts db₀ db' := by
  rw [alone_program] at halone
  -- neither transaction changes the image of a receipt, or its place among those of
  -- the image
  cases r with
  | update fresh receipt caller =>
    obtain ⟨out, hupdate, heq⟩ := map_eq_ok halone
    cases out with
    | none =>
      obtain ⟨rfl, -⟩ := Prod.mk.inj heq
      exact h
    | some out =>
      obtain ⟨rfl, -⟩ := Prod.mk.inj heq
      obtain ⟨old, values, decisions, rows, taxRows, -, heffect⟩ := Db.updateReceipt_spec hupdate
      intro imageId
      rw [← h imageId]
      have hreceipts : out.1.receipts = db.receipts.update receiptId
          (fun r => { r with toReceiptValues := values }) fun _ => rfl := by rw [heffect.frame]
      exact receiptOfImage?_update hreceipts (fun _ => rfl) (fun _ => rfl) imageId
  | persist now fresh receipt imageId status verified userId =>
    obtain ⟨out, hpersist, heq⟩ := map_eq_ok halone
    obtain ⟨rfl, -⟩ := Prod.mk.inj heq
    obtain ⟨old, hold, -⟩ := Option.map_eq_some_iff.mp ((h imageId).trans hr)
    obtain ⟨values, history, rows, taxRows, heffect⟩ := Db.persistReceipt_spec hpersist
    obtain ⟨db₁, hwrite, hdb⟩ := heffect.writes
    unfold Db.writeReceipt at hwrite
    rw [Option.bind_some, hold] at hwrite
    have hreceipts : out.1.receipts = db.receipts.update old.id
        (Db.rewritten values status verified userId) fun _ => rfl := by
      rw [hdb, ← (Prod.mk.inj (Except.ok.inj hwrite)).1]
    intro i
    rw [← h i]
    exact receiptOfImage?_update hreceipts (fun _ => rfl) (fun _ => rfl) i

end Requests

end Statements

/-! ## Two updates -/

section TwoUpdates

local instance asciiFoldingOfWriters : CaseFolding := asciiFolding

end TwoUpdates

end VisionBill
