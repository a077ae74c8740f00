import VisionBill.Database

/-!
# Receipts in the database

The operations of `ReceiptDB` that write: `persist_receipt`,
`update_receipt`, `verify_receipt` and `delete_receipt`, with the category
history that the first two read and write. Each is one transaction.
Identifiers that the server makes are taken from a stream, and a clash
with an existing one raises.

## Where a category comes from

Each line item has a category, a source of it and the description under
which it was first stored. A new receipt takes the category from the
history of its owner if there is one for the description, and else from
the model, which may not know it (`persistDecision`). An edit keeps what
the row had, unless the request names another category, which is then the
user's (`updateDecision`). The history is written by edits only, and only
where an item asks for it.

## Which row an item continues

An edit replaces all line items. A new row continues an old one if the
request has its identifier, or, for an item without one, if the row at its
position still has the description (`UpdateContext.old?`). The loop
remembers which rows were continued, and a second item for one of them is
refused.

## The children of a receipt

Line items and taxes are deleted and inserted again, with new identifiers
and consecutive positions. `insertChildren_spec` says this once for both
operations: the children of the receipt are the new ones, in the order of
the request, and nothing else in the database changes.
-/

namespace VisionBill

variable [CaseFolding]

/-! ## What a PUT request carries -/

/-- `LineItemUpdate`, with whether its body names a spending category. The
schema has a default for it, so the value alone does not tell. -/
structure LineItemUpdate extends LineItem where
  id : Option UUID
  rememberCategory : Bool
  explicitCategory : Bool
  category_default : explicitCategory = false → spendingCategory = .unknown

/-- `ReceiptUpdate`. It is a receipt whose line items may name rows that
are there, and whose collections are left alone if it does not speak of
them. -/
structure ReceiptUpdate extends ReceiptFields where
  lineItems : List LineItemUpdate
  collectionIds : Option (List UUID)

/-! ## Category history

What a user has decided about an item is remembered by merchant and
description. Both are normalised, so that upper case and spaces make no
difference. -/

/-- The category of an alias, unless it is unknown or no code. -/
def historyCategory (category : String) : Option SpendingCategory :=
  (SpendingCategory.ofCode category).filter (· ≠ .unknown)

namespace Db

/-- The category stored under a key. -/
def alias? (db : Db) (key : AliasKey) : Option String :=
  (db.aliases.get? key).map AliasRecord.category

/-- `UPSERT_CATEGORY_ALIAS_SQL`. -/
def upsertAlias (db : Db) (key : AliasKey) (category : String) : Db :=
  { db with aliases := db.aliases.upsert { toAliasKey := key, category := category } }

/-- `DELETE_CATEGORY_ALIAS_SQL`. -/
def deleteAlias (db : Db) (key : AliasKey) : Db :=
  { db with aliases := db.aliases.filter (fun a => a.toAliasKey ≠ key) }

/-- `get_category_suggestion`. A blank merchant or description has no
suggestion, and what is stored is offered only if it is the code of a
known category. -/
def getCategorySuggestion (db : Db) (userId : UUID) (merchantName description : String) :
    Except DbError (Option SpendingCategory) :=
  let merchantKey := normalizeHistoryKey merchantName
  let descriptionKey := normalizeHistoryKey description
  if merchantKey = "" ∨ descriptionKey = "" then .ok none
  else do
    let merchantKey ← text merchantKey
    let descriptionKey ← text descriptionKey
    return (db.alias? ⟨userId, merchantKey, descriptionKey⟩).bind historyCategory

/-- `_history_for_items`: the category of each key that has one. Neither
the order of the keys nor their repetition matters to `ANY`, and a blank
merchant or an unknown user has no history. -/
def historyForItems (db : Db) (userId : Option UUID) (merchantName : String)
    (descriptions : List String) : Except DbError (List (String × SpendingCategory)) :=
  match userId with
  | none => .ok []
  | some userId =>
    let merchantKey := normalizeHistoryKey merchantName
    let keys := (descriptions.filter (fun d => strip d ≠ "")).map normalizeHistoryKey
    if descriptions = [] ∨ merchantKey = "" ∨ keys = [] then .ok []
    else do
      let merchantKey ← text merchantKey
      let keys ← keys.mapM text
      let rows := db.aliases.rows.filter fun a =>
        a.userId = userId ∧ a.merchantKey = merchantKey ∧ a.descriptionKey ∈ keys
      return rows.filterMap fun a => (historyCategory a.category).map (a.descriptionKey, ·)

end Db

/-! ## Line items and taxes

The children of a receipt are never changed: an update deletes them and
inserts new ones. A line item may keep its identifier, which the decision
about it carries. -/

/-- `ItemCategoryDecision`. It has what an insertion takes from elsewhere
than from the item: an id that is kept, and where the category comes
from. -/
structure ItemCategoryDecision where
  id : Option UUID
  originalDescription : String
  category : SpendingCategory
  source : CategorySource

/-- The row of `INSERT_LINE_ITEM_SQL`. Each value goes through its column,
and the first one that is refused is the error. -/
def lineItemRecord (newId receiptId : UUID) (index : ℕ) (item : LineItem)
    (decision : ItemCategoryDecision) : Except DbError LineItemRecord := do
  let description ← varchar 255 item.description
  let quantity ← quantityColumn item.quantity
  let unitPrice ← amountColumn item.unitPrice
  let totalPrice ← amountColumn item.totalPrice
  let tags ← item.tags.mapM text
  let originalDescription ← text decision.originalDescription
  return {
    id := decision.id.getD newId
    receiptId := receiptId
    description := description
    originalDescription := originalDescription
    spendingCategory := decision.category
    categorySource := decision.source
    quantity := quantity
    unitPrice := unitPrice
    totalPrice := totalPrice
    tags := tags
    position := index }

/-- The row of `INSERT_TAX_SQL`. -/
def taxRecord (newId receiptId : UUID) (tax : TaxLine) : Except DbError TaxRecord := do
  let name ← varchar 100 tax.name
  let rate ← nullable rateColumn tax.rate
  let amount ← amountColumn tax.amount
  return { id := newId, receiptId := receiptId, name := name, rate := rate, amount := amount }

namespace Db

/-- A row that refers to a receipt. -/
def requireReceipt (db : Db) (receiptId : UUID) : Except DbError Unit :=
  if (db.receipts.get? receiptId).isSome then .ok () else .error .foreignKeyViolation

/-- The insertions of line items, from an index on. The index is the
position that is stored, by which the items are ordered when they are
read. -/
def insertLineItems (db : Db) (fresh : ℕ → UUID) (receiptId : UUID) (index : ℕ) :
    List (LineItem × ItemCategoryDecision) → Except DbError Db
  | [] => .ok db
  | (item, decision) :: l => do
    let row ← lineItemRecord (fresh index) receiptId index item decision
    db.requireReceipt receiptId
    match db.lineItems.insert row with
    | some lineItems => insertLineItems { db with lineItems := lineItems } fresh receiptId (index + 1) l
    | none => .error .uniqueViolation

/-- The insertions of taxes. No position is stored for them, only a new
id. -/
def insertTaxes (db : Db) (fresh : ℕ → UUID) (receiptId : UUID) (index : ℕ) :
    List TaxLine → Except DbError Db
  | [] => .ok db
  | tax :: l => do
    let row ← taxRecord (fresh index) receiptId tax
    db.requireReceipt receiptId
    match db.taxes.insert row with
    | some taxes => insertTaxes { db with taxes := taxes } fresh receiptId (index + 1) l
    | none => .error .uniqueViolation

/-- `_insert_children`. Rows are inserted one by one, each with an
identifier of its own; one that fails takes the transaction with it. -/
def insertChildren (db : Db) (fresh : ℕ → UUID) (receiptId : UUID) (lineItems : List LineItem)
    (taxes : List TaxLine) (decisions : List ItemCategoryDecision) : Except DbError Db := do
  let db ← db.insertLineItems fresh receiptId 0 (lineItems.zip decisions)
  db.insertTaxes fresh receiptId lineItems.length taxes

/-- `DELETE_LINE_ITEMS_SQL` and `DELETE_TAXES_SQL`. -/
def deleteChildren (db : Db) (receiptId : UUID) : Db :=
  { db with
    lineItems := db.lineItems.filter (fun row => row.receiptId ≠ receiptId)
    taxes := db.taxes.filter (fun row => row.receiptId ≠ receiptId) }

/-- `LIST_LINE_ITEMS_SQL`. -/
def listLineItems (db : Db) (receiptId : UUID) : List LineItemRecord :=
  orderBy (fun a b => a.position ≤ b.position)
    (db.lineItems.rows.filter (fun row => row.receiptId = receiptId))

/-! ## `persist_receipt`

A receipt is inserted, or written over the one that the image has already.
Categories that are remembered take the place of those that the model has
chosen. -/

/-- `GET_RECEIPT_BY_IMAGE_ID_SQL`, and the subquery of
`UPDATE_RECEIPT_BY_IMAGE_SQL`. Of several receipts of an image it takes
the oldest. -/
def receiptOfImage? (db : Db) (imageId : UUID) : Option ReceiptRecord :=
  (orderBy (fun a b => a.createdAt < b.createdAt ∨ (a.createdAt = b.createdAt ∧ a.id ≤ b.id))
    (db.receipts.rows.filter (fun r => r.imageId = some imageId))).head?

/-- `INSERT_RECEIPT_SQL`. An image has at most one receipt, and it has to
exist; a receipt without an image is always possible. -/
def insertReceipt (db : Db) (row : ReceiptRecord) : Except DbError Db :=
  if ∃ r ∈ db.receipts.rows, r.imageId.isSome ∧ r.imageId = row.imageId then
    .error .uniqueViolation
  else if ∃ i ∈ row.imageId, (db.images.get? i).isNone then .error .foreignKeyViolation
  else
    match db.receipts.insert row with
    | some receipts => .ok { db with receipts := receipts }
    | none => .error .uniqueViolation

/-- A receipt row as `UPDATE_RECEIPT_BY_IMAGE_SQL` leaves it. -/
def rewritten (values : ReceiptValues) (status : ReceiptStatus) (verified : Bool)
    (userId : Option UUID) (r : ReceiptRecord) : ReceiptRecord :=
  { r with toReceiptValues := values, status := status, verified := verified, userId := userId }

/-- The receipt row that `persist_receipt` writes: the one of the image,
or a new one. An image that was analysed before keeps its receipt, with
new values. -/
def writeReceipt (db : Db) (now : Timestamp) (newId : UUID) (values : ReceiptValues)
    (imageId : Option UUID) (status : ReceiptStatus) (verified : Bool) (userId : Option UUID) :
    Except DbError (Db × ReceiptRecord) :=
  match imageId.bind db.receiptOfImage? with
  | some old =>
    let write := rewritten values status verified userId
    .ok ({ db with receipts := db.receipts.update old.id write fun _ => rfl }, write old)
  | none =>
    let row := {
      toReceiptValues := values
      id := newId
      status := status
      verified := verified
      imageId := imageId
      userId := userId
      createdAt := now }
    (db.insertReceipt row).map fun db => (db, row)

/-- The category of a line item of a new receipt: from the history if it
has one for the description, and else what the model says. The source
tells which, and whether the model knew. -/
def persistDecision (history : List (String × SpendingCategory)) (item : LineItem) :
    ItemCategoryDecision :=
  match history.lookup (normalizeHistoryKey item.description) with
  | some category => {
      id := none
      originalDescription := item.description
      category := category
      source := .history }
  | none => {
      id := none
      originalDescription := item.description
      category := item.spendingCategory
      source := if item.spendingCategory ≠ .unknown then .llm else .unknown }

/-- `persist_receipt`. The row, its children and their categories, in one
transaction: if one value is refused, nothing is stored. -/
def persistReceipt (db : Db) (now : Timestamp) (fresh : ℕ → UUID) (receipt : Receipt)
    (imageId : Option UUID) (status : ReceiptStatus) (verified : Bool) (userId : Option UUID) :
    Except DbError (Db × ReceiptRecord) := do
  let values ← receipt.values
  let (db, row) ← db.writeReceipt now (fresh 0) values imageId status verified userId
  let history ← db.historyForItems userId receipt.merchantName
    (receipt.lineItems.map LineItem.description)
  let decisions := receipt.lineItems.map (persistDecision history)
  let db ← (db.deleteChildren row.id).insertChildren (fun n => fresh (n + 1)) row.id
    receipt.lineItems receipt.taxes decisions
  return (db, row)

end Db

/-! ## `update_receipt`

The loop decides for each item which row it continues, and remembers what
the user wants to be remembered. Only after the loop are the children
replaced. -/

/-- What the loop of `update_receipt` reads. It is read once before the
loop, except for the aliases, which the loop itself changes. -/
structure UpdateContext where
  ownerId : Option UUID
  merchantKey : String
  oldRows : List LineItemRecord
  /-- Whether no item has an id, and there are as many items as rows. -/
  legacyItems : Bool

namespace UpdateContext

/-- The row that an item continues: the one with its id, or for an item
without one the row at its position, if that still has the description.
Positions count only for requests in which no item has an id, as older
clients send them. -/
def old? (c : UpdateContext) (position : ℕ) (item : LineItemUpdate) :
    Except DbError (Option LineItemRecord) :=
  match item.id with
  | some id =>
    match c.oldRows.find? (fun row => row.id = id) with
    | some old => .ok (some old)
    | none => .error (.valueError "Line item id does not belong to this receipt")
  | none =>
    if c.legacyItems then
      -- of several rows at one position the dictionary keeps the last
      .ok ((c.oldRows.reverse.find? (fun row => row.position = position)).filter
        (fun row => row.description = item.description))
    else .ok none

end UpdateContext

/-- The description that an item was first stored with. -/
def originalOf (old : Option LineItemRecord) (item : LineItem) : String :=
  match old with
  | some old => if old.originalDescription = "" then old.description else old.originalDescription
  | none => item.description

/-- The category of a line item of an updated receipt. What a request
names is the user's if it differs from what the row had, and so is what is
to be remembered; in every other case the row keeps what it had. -/
def updateDecision (old : Option LineItemRecord) (item : LineItemUpdate) :
    ItemCategoryDecision :=
  let oldCategory := old.elim .unknown LineItemRecord.spendingCategory
  let oldSource := old.elim .unknown LineItemRecord.categorySource
  let changed := item.explicitCategory ∧ item.spendingCategory ≠ oldCategory
  let category := if changed ∨ old.isNone then item.spendingCategory else oldCategory
  { id := old.map LineItemRecord.id
    originalDescription := originalOf old item.toLineItem
    category := category
    source :=
      if old.isNone ∧ item.explicitCategory ∧ category ≠ .unknown then .user
      else if changed ∨ item.rememberCategory then .user else oldSource }

/-- The keys under which the category of an item is remembered. -/
def rememberedKeys (decision : ItemCategoryDecision) (item : LineItem) : List String :=
  [normalizeHistoryKey decision.originalDescription, normalizeHistoryKey item.description].dedup

namespace Db

/-- The inner loop of `update_receipt`: a category is remembered, or
forgotten when it is unknown. -/
def remember (db : Db) (ownerId : UUID) (merchantKey : String) (category : SpendingCategory) :
    List String → Except DbError Db
  | [] => .ok db
  | descriptionKey :: keys =>
    if descriptionKey = "" then remember db ownerId merchantKey category keys
    else do
      let key : AliasKey := ⟨ownerId, ← text merchantKey, ← text descriptionKey⟩
      let db := if category = .unknown then db.deleteAlias key else db.upsertAlias key category.code
      remember db ownerId merchantKey category keys

/-- The categories that one item has remembered. They belong to the owner
of the receipt, who need not be the caller. -/
def rememberItem (db : Db) (c : UpdateContext) (decision : ItemCategoryDecision)
    (item : LineItemUpdate) : Except DbError Db :=
  match c.ownerId with
  | some ownerId =>
    if item.rememberCategory ∧ c.merchantKey ≠ "" then
      db.remember ownerId c.merchantKey decision.category (rememberedKeys decision item.toLineItem)
    else .ok db
  | none => .ok db

/-- The loop of `update_receipt`, from a position on, with the ids of the
rows already continued. Aliases are written as it goes, so the last item
to remember a key decides. -/
def decideItems (db : Db) (c : UpdateContext) (usedIds : List UUID) (position : ℕ) :
    List LineItemUpdate → Except DbError (Db × List ItemCategoryDecision)
  | [] => .ok (db, [])
  | item :: items => do
    let old ← c.old? position item
    if ∃ row ∈ old, row.id ∈ usedIds then throw (.valueError "Duplicate line item id")
    let decision := updateDecision old item
    let db ← db.rememberItem c decision item
    let (db, decisions) ←
      db.decideItems c ((old.map LineItemRecord.id).toList ++ usedIds) (position + 1) items
    return (db, decision :: decisions)

/-- The row of a receipt that a caller may touch. The statements that
read, update, verify or delete a receipt are scoped like this, so that a
foreign receipt is answered like one that is not there. -/
def receiptFor? (db : Db) (caller : Caller) (receiptId : UUID) : Option ReceiptRecord :=
  (db.receipts.get? receiptId).filter (fun r => caller.Scope r.userId)

/-- `update_receipt`; `none` when there is no such receipt for the caller.
The row is looked up with the owner condition, and nothing has been
written where it is not found. -/
def updateReceipt (db : Db) (fresh : ℕ → UUID) (receiptId : UUID) (receipt : ReceiptUpdate)
    (caller : Caller) : Except DbError (Option (Db × ReceiptRecord)) := do
  let values ← receipt.values
  match db.receiptFor? caller receiptId with
  | none => return none
  | some old =>
    let write := fun r : ReceiptRecord => { r with toReceiptValues := values }
    let row := write old
    let db := { db with receipts := db.receipts.update receiptId write fun _ => rfl }
    let oldRows := db.listLineItems receiptId
    let c : UpdateContext := {
      ownerId := row.userId
      merchantKey := normalizeHistoryKey receipt.merchantName
      oldRows := oldRows
      legacyItems := (receipt.lineItems.all fun item => item.id.isNone)
        && oldRows.length == receipt.lineItems.length }
    let (db, decisions) ← db.decideItems c [] 0 receipt.lineItems
    let db ← (db.deleteChildren receiptId).insertChildren fresh receiptId
      (receipt.lineItems.map LineItemUpdate.toLineItem) receipt.taxes decisions
    return some (db, row)

/-! ## `verify_receipt`, `delete_receipt` -/

/-- `verify_receipt`. Both columns are set by one statement, so they never
disagree after it. -/
def verifyReceipt (db : Db) (receiptId : UUID) (caller : Caller) :
    Option (Db × ReceiptRecord) :=
  (db.receiptFor? caller receiptId).map fun old =>
    let write := fun r : ReceiptRecord => { r with status := .verified, verified := true }
    ({ db with receipts := db.receipts.update receiptId write fun _ => rfl }, write old)

/-- `delete_receipt`, with whether a benchmark task still refers to the
receipt. The line items, taxes and links go with it, and images forget it.
A task that refers to it makes the foreign key refuse. -/
def deleteReceipt (db : Db) (benchmarked : Bool) (receiptId : UUID) (caller : Caller) :
    Except DbError (Option (Db × ReceiptRecord)) :=
  match db.receiptFor? caller receiptId with
  | none => .ok none
  | some old =>
    if benchmarked then .error .foreignKeyViolation
    else
      let forget := fun i : ImageRecord =>
        { i with receiptId := i.receiptId.filter (· ≠ receiptId) }
      .ok (some ({ db.deleteChildren receiptId with
        receipts := db.receipts.filter (fun r => r.id ≠ receiptId)
        links := db.links.filter (fun l => l.receiptId ≠ receiptId)
        images := db.images.modify forget fun _ => rfl }, old))

end Db

/-! ## What the operations write

The rows of the children, column by column. Results about what is stored
use these and do not open the insertions. -/

/-- The row of a line item, column for column. A lemma about a stored item
takes from this what it needs, and no proof looks into `lineItemRecord`
again. -/
structure InsertsItem (newId receiptId : UUID) (index : ℕ) (item : LineItem)
    (decision : ItemCategoryDecision) (row : LineItemRecord) : Prop where
  id_eq : row.id = decision.id.getD newId
  receiptId_eq : row.receiptId = receiptId
  position_eq : row.position = index
  description : varchar 255 item.description = .ok row.description
  original_eq : row.originalDescription = decision.originalDescription
  category_eq : row.spendingCategory = decision.category
  source_eq : row.categorySource = decision.source
  quantity : quantityColumn item.quantity = .ok row.quantity
  unitPrice : amountColumn item.unitPrice = .ok row.unitPrice
  totalPrice : amountColumn item.totalPrice = .ok row.totalPrice
  tags_eq : row.tags = item.tags

theorem lineItemRecord_spec {newId receiptId : UUID} {index : ℕ} {item : LineItem}
    {decision : ItemCategoryDecision} {row : LineItemRecord}
    (h : lineItemRecord newId receiptId index item decision = .ok row) :
    InsertsItem newId receiptId index item decision row := by
  unfold lineItemRecord at h
  obtain ⟨description, hdescription, h⟩ := bind_eq_ok.mp h
  obtain ⟨quantity, hquantity, h⟩ := bind_eq_ok.mp h
  obtain ⟨unitPrice, hunitPrice, h⟩ := bind_eq_ok.mp h
  obtain ⟨totalPrice, htotalPrice, h⟩ := bind_eq_ok.mp h
  obtain ⟨tags, htags, h⟩ := bind_eq_ok.mp h
  obtain ⟨original, horiginal, h⟩ := bind_eq_ok.mp h
  obtain rfl := Except.ok.inj h
  exact ⟨rfl, rfl, rfl, hdescription, eq_of_text horiginal, rfl, rfl, hquantity, hunitPrice,
    htotalPrice, eq_of_mapM eq_of_text htags⟩

/-- The row of a tax, column for column. It is what the insertion writes
if no value is refused by its column. -/
structure InsertsTax (newId receiptId : UUID) (tax : TaxLine) (row : TaxRecord) : Prop where
  id_eq : row.id = newId
  receiptId_eq : row.receiptId = receiptId
  name : varchar 100 tax.name = .ok row.name
  rate : nullable rateColumn tax.rate = .ok row.rate
  amount : amountColumn tax.amount = .ok row.amount

omit [CaseFolding] in
theorem taxRecord_spec {newId receiptId : UUID} {tax : TaxLine} {row : TaxRecord}
    (h : taxRecord newId receiptId tax = .ok row) : InsertsTax newId receiptId tax row := by
  unfold taxRecord at h
  obtain ⟨name, hname, h⟩ := bind_eq_ok.mp h
  obtain ⟨rate, hrate, h⟩ := bind_eq_ok.mp h
  obtain ⟨amount, hamount, h⟩ := bind_eq_ok.mp h
  obtain rfl := Except.ok.inj h
  exact ⟨rfl, rfl, hname, hrate, hamount⟩

/-- The rows of line items that are inserted together. -/
def StoresItems (fresh : ℕ → UUID) (receiptId : UUID) (index : ℕ)
    (l : List (LineItem × ItemCategoryDecision)) (rows : List LineItemRecord) : Prop :=
  List.Forall₂ (fun p row => lineItemRecord (fresh p.2) receiptId p.2 p.1.1 p.1.2 = .ok row)
    (l.zipIdx index) rows

/-- The rows of taxes that are inserted together. -/
def StoresTaxes (fresh : ℕ → UUID) (receiptId : UUID) (index : ℕ) (l : List TaxLine)
    (rows : List TaxRecord) : Prop :=
  List.Forall₂ (fun p row => taxRecord (fresh p.2) receiptId p.1 = .ok row) (l.zipIdx index) rows

namespace Db

theorem insertLineItems_spec {db db' : Db} {fresh : ℕ → UUID} {receiptId : UUID} {index : ℕ}
    {l : List (LineItem × ItemCategoryDecision)}
    (h : db.insertLineItems fresh receiptId index l = .ok db') :
    ∃ rows, StoresItems fresh receiptId index l rows
      ∧ db'.lineItems.rows = db.lineItems.rows ++ rows
      ∧ db' = { db with lineItems := db'.lineItems } := by
  induction l generalizing db index with
  | nil =>
    obtain rfl := Except.ok.inj h
    exact ⟨[], .nil, (List.append_nil _).symm, rfl⟩
  | cons p l ih =>
    obtain ⟨row, hrow, h⟩ := bind_eq_ok.mp h
    obtain ⟨-, -, h⟩ := bind_eq_ok.mp h
    split at h
    · next lineItems hinsert =>
      obtain ⟨-, hrows⟩ := Table.insert_eq_some_iff.mp hinsert
      obtain ⟨rows, hstores, happend, hdb⟩ := ih h
      refine ⟨row :: rows, .cons hrow hstores, ?_, hdb⟩
      rw [happend, hrows, List.append_assoc, List.singleton_append]
    · exact absurd h (by simp)

omit [CaseFolding] in
theorem insertTaxes_spec {db db' : Db} {fresh : ℕ → UUID} {receiptId : UUID} {index : ℕ}
    {l : List TaxLine} (h : db.insertTaxes fresh receiptId index l = .ok db') :
    ∃ rows, StoresTaxes fresh receiptId index l rows
      ∧ db'.taxes.rows = db.taxes.rows ++ rows ∧ db' = { db with taxes := db'.taxes } := by
  induction l generalizing db index with
  | nil =>
    obtain rfl := Except.ok.inj h
    exact ⟨[], .nil, (List.append_nil _).symm, rfl⟩
  | cons tax l ih =>
    obtain ⟨row, hrow, h⟩ := bind_eq_ok.mp h
    obtain ⟨-, -, h⟩ := bind_eq_ok.mp h
    split at h
    · next taxes hinsert =>
      obtain ⟨-, hrows⟩ := Table.insert_eq_some_iff.mp hinsert
      obtain ⟨rows, hstores, happend, hdb⟩ := ih h
      refine ⟨row :: rows, .cons hrow hstores, ?_, hdb⟩
      rw [happend, hrows, List.append_assoc, List.singleton_append]
    · exact absurd h (by simp)

/-- **Replacing the children of a receipt**: its line items and taxes are
the new ones, and nothing else changes. The rows of other receipts stay
where they are, and also the receipt's own row. -/
theorem insertChildren_spec {db db' : Db} {fresh : ℕ → UUID} {receiptId : UUID}
    {lineItems : List LineItem} {taxes : List TaxLine} {decisions : List ItemCategoryDecision}
    (h : (db.deleteChildren receiptId).insertChildren fresh receiptId lineItems taxes decisions
      = .ok db') :
    ∃ rows taxRows, StoresItems fresh receiptId 0 (lineItems.zip decisions) rows
      ∧ StoresTaxes fresh receiptId lineItems.length taxes taxRows
      ∧ db'.lineItems.rows = db.lineItems.rows.filter (fun row => row.receiptId ≠ receiptId) ++ rows
      ∧ db'.taxes.rows = db.taxes.rows.filter (fun row => row.receiptId ≠ receiptId) ++ taxRows
      ∧ db' = { db with lineItems := db'.lineItems, taxes := db'.taxes } := by
  obtain ⟨db₁, hitems, htaxes⟩ := bind_eq_ok.mp h
  obtain ⟨rows, hrows, happend, hdb₁⟩ := insertLineItems_spec hitems
  obtain ⟨taxRows, htaxRows, htaxAppend, hdb'⟩ := insertTaxes_spec htaxes
  have hsame : db'.lineItems = db₁.lineItems := by rw [hdb']
  have htaxes₁ : db₁.taxes = (db.deleteChildren receiptId).taxes := by rw [hdb₁]
  refine ⟨rows, taxRows, hrows, htaxRows, ?_, ?_, ?_⟩
  · rw [hsame, happend]
    rfl
  · rw [htaxAppend, htaxes₁]
    rfl
  · rw [hdb', hdb₁]
    rfl

omit [CaseFolding] in
/-- The line items that a listing of them returns, when they were inserted
together. They are sorted by position, in which they are stored anyway,
and sorting is stable. -/
theorem listLineItems_eq {db : Db} {receiptId : UUID} {others rows : List LineItemRecord}
    (hrows : db.lineItems.rows = others ++ rows)
    (hothers : ∀ row ∈ others, row.receiptId ≠ receiptId)
    (hown : ∀ row ∈ rows, row.receiptId = receiptId)
    (hsorted : rows.Pairwise fun a b => a.position ≤ b.position) :
    db.listLineItems receiptId = rows := by
  have hfilter : db.lineItems.rows.filter (fun row => row.receiptId = receiptId) = rows := by
    rw [hrows, List.filter_append, List.filter_eq_nil_iff.mpr, List.filter_eq_self.mpr]
    · exact List.nil_append rows
    · intro row hrow
      exact decide_eq_true (hown row hrow)
    · intro row hrow
      simpa using hothers row hrow
  unfold listLineItems orderBy
  rw [hfilter]
  exact hsorted.insertionSort_eq

end Db

/-- Stored items belong to their receipt. -/
theorem StoresItems.receiptId {fresh : ℕ → UUID} {receiptId : UUID} {index : ℕ}
    {l : List (LineItem × ItemCategoryDecision)} {rows : List LineItemRecord}
    (h : StoresItems fresh receiptId index l rows) : ∀ row ∈ rows, row.receiptId = receiptId := by
  intro row hrow
  obtain ⟨i, hi, rfl⟩ := List.mem_iff_getElem.mp hrow
  exact (lineItemRecord_spec (h.get (by rw [h.length_eq]; exact hi) hi)).receiptId_eq

/-- Stored items are in the order of their positions. -/
theorem StoresItems.sorted {fresh : ℕ → UUID} {receiptId : UUID} {index : ℕ}
    {l : List (LineItem × ItemCategoryDecision)} {rows : List LineItemRecord}
    (h : StoresItems fresh receiptId index l rows) :
    rows.Pairwise fun a b => a.position ≤ b.position := by
  rw [List.pairwise_iff_getElem]
  intro i j hi hj hij
  have hlen := h.length_eq
  have hposi := (lineItemRecord_spec (h.get (by rw [hlen]; exact hi) hi)).position_eq
  have hposj := (lineItemRecord_spec (h.get (by rw [hlen]; exact hj) hj)).position_eq
  simp only [List.get_eq_getElem, List.getElem_zipIdx] at hposi hposj
  omega

/-- The positions of stored items are consecutive. -/
theorem StoresItems.positions {fresh : ℕ → UUID} {receiptId : UUID} {index : ℕ}
    {l : List (LineItem × ItemCategoryDecision)} {rows : List LineItemRecord}
    (h : StoresItems fresh receiptId index l rows) :
    rows.map LineItemRecord.position = List.range' index l.length := by
  have hpositions : List.Forall₂ (fun n p => n = p) ((l.zipIdx index).map Prod.snd)
      (rows.map LineItemRecord.position) := by
    rw [List.forall₂_map_left_iff, List.forall₂_map_right_iff]
    exact List.Forall₂.imp (fun p row hp => (lineItemRecord_spec hp).position_eq.symm) h
  rw [← List.zipIdx_map_snd index l]
  exact (List.forall₂_eq_eq_eq ▸ hpositions : _ = _).symm

/-- What a stored item takes over from the decision about it, item by
item. -/
theorem StoresItems.decided {fresh : ℕ → UUID} {receiptId : UUID} {index : ℕ}
    {l : List (LineItem × ItemCategoryDecision)} {rows : List LineItemRecord}
    (h : StoresItems fresh receiptId index l rows) :
    List.Forall₂ (fun p row => row.spendingCategory = p.2.category
      ∧ row.categorySource = p.2.source
      ∧ row.originalDescription = p.2.originalDescription) l rows := by
  rw [← List.zipIdx_map_fst index l, List.forall₂_map_left_iff]
  refine List.Forall₂.imp (fun p row hp => ?_) h
  have hinserts := lineItemRecord_spec hp
  exact ⟨hinserts.category_eq, hinserts.source_eq, hinserts.original_eq⟩

end VisionBill
