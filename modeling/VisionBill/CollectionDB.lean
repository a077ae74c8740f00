import VisionBill.ReceiptDB

/-!
# Collections in the database

The statements of `CollectionDB`, which commit one by one. Linking a
receipt and a collection does not look at their owners: that is left to
the caller.

## Scopes

A statement that changes a collection has the caller in its condition, so
a collection of somebody else is not found. A link has no owner, and the
three statements about links have no caller either. Whoever calls them has
looked at both ends before, or at one of them, or at none, and what
follows from that is said where they are called.

## One active collection

A partial index admits one active collection of a user. Making a
collection active is one statement and making the others inactive is
another, in this order or in none: the second is left out for a caller who
may see everything.
-/

namespace VisionBill

/-- A collection as the statement leaves it that makes those of a user
inactive. -/
def CollectionRecord.deactivatedFor (userId : UUID) (c : CollectionRecord) : CollectionRecord :=
  if c.userId = userId then { c with active := false } else c

theorem CollectionRecord.id_deactivatedFor (userId : UUID) (c : CollectionRecord) :
    (c.deactivatedFor userId).id = c.id := by
  unfold deactivatedFor
  split <;> rfl

/-- What the columns of a collection are written from. All of them are
written each time, also by a request that changes one. -/
structure CollectionValues where
  name : String
  color : Option String
  startDate : Option Date
  endDate : Option Date

/-- The values as their columns hold them. -/
def CollectionValues.stored (v : CollectionValues) : Except DbError CollectionValues := do
  let name ← varchar 100 v.name
  let color ← nullable (varchar 20) v.color
  return { name := name, color := color, startDate := v.startDate, endDate := v.endDate }

namespace Db

/-- The collection with an id, for a caller. -/
def collectionFor? (db : Db) (caller : Caller) (collectionId : UUID) : Option CollectionRecord :=
  (db.collections.get? collectionId).filter (fun c => caller.Scope (some c.userId))

/-- `exists`. -/
def collectionExists (db : Db) (caller : Caller) (collectionId : UUID) : Bool :=
  (db.collectionFor? caller collectionId).isSome

/-- `active_collection`: the first active collection that is found. -/
def activeCollection (db : Db) (caller : Caller) : Option CollectionRecord :=
  db.collections.rows.find? (fun c => c.active ∧ caller.Scope (some c.userId))

/-- `ACTIVATE_DEACTIVATE_SIBLINGS_SQL`. -/
def deactivateSiblings (db : Db) (userId : UUID) : Db :=
  let write := CollectionRecord.deactivatedFor userId
  { db with collections := db.collections.modify write (CollectionRecord.id_deactivatedFor userId) }

/-- Whether the index `ux_collections_one_active_per_user` admits another
active collection of a user. The collection itself may be active
already. -/
def MayActivate (db : Db) (userId collectionId : UUID) : Prop :=
  ∀ c ∈ db.collections.rows, c.active = true → c.userId = userId → c.id = collectionId

instance (db : Db) (userId collectionId : UUID) : Decidable (db.MayActivate userId collectionId) :=
  inferInstanceAs (Decidable (∀ _ ∈ _, _))

/-- `CREATE_COLLECTION_SQL`. A value that is too long for its column, and
a second active collection of the same user, are both errors of the
statement. -/
def insertCollection (db : Db) (now : Timestamp) (newId userId : UUID) (v : CollectionValues)
    (active : Bool) : Except DbError (Db × CollectionRecord) := do
  let v ← v.stored
  let row : CollectionRecord := {
    id := newId
    userId := userId
    name := v.name
    color := v.color
    startDate := v.startDate
    endDate := v.endDate
    active := active
    createdAt := now }
  if active ∧ ¬ db.MayActivate userId newId then throw .uniqueViolation
  match db.collections.insert row with
  | some collections => return ({ db with collections := collections }, row)
  | none => throw .uniqueViolation

/-- A collection with new values. -/
def revalued (v : CollectionValues) (c : CollectionRecord) : CollectionRecord :=
  { c with name := v.name, color := v.color, startDate := v.startDate, endDate := v.endDate }

/-- `UPDATE_COLLECTION_SQL`, scoped to the caller. It sets all four
values, whatever they have been when the caller read them. -/
def updateCollection (db : Db) (caller : Caller) (collectionId : UUID) (v : CollectionValues) :
    Except DbError (Option (Db × CollectionRecord)) := do
  let v ← v.stored
  return (db.collectionFor? caller collectionId).map fun old =>
    ({ db with collections := db.collections.update collectionId (revalued v) fun _ => rfl },
      revalued v old)

/-- `SET_ACTIVE_SQL` and `SET_INACTIVE_SQL`, scoped to the caller. The
index is checked for the owner of the row, who need not be the caller. -/
def setActive (db : Db) (caller : Caller) (collectionId : UUID) (active : Bool) :
    Except DbError (Option (Db × CollectionRecord)) :=
  match db.collectionFor? caller collectionId with
  | none => .ok none
  | some old =>
    let write := fun c : CollectionRecord => { c with active := active }
    if active ∧ ¬ db.MayActivate old.userId collectionId then .error .uniqueViolation
    else .ok (some ({ db with
      collections := db.collections.update collectionId write fun _ => rfl }, write old))

/-- `DELETE_COLLECTION_SQL`, scoped to the caller; its links go with
it. -/
def deleteCollection (db : Db) (caller : Caller) (collectionId : UUID) : Option Db :=
  (db.collectionFor? caller collectionId).map fun _ =>
    { db with
      collections := db.collections.filter (fun c => c.id ≠ collectionId)
      links := db.links.filter (fun l => l.collectionId ≠ collectionId) }

/-- `ASSIGN_SQL`; a link that is there already is left alone. Both ends
have to exist, and nothing is asked of whom they belong to. -/
def assign (db : Db) (collectionId receiptId : UUID) : Except DbError Db :=
  match db.links.insert ⟨receiptId, collectionId⟩ with
  | none => .ok db
  | some links =>
    if (db.receipts.get? receiptId).isNone ∨ (db.collections.get? collectionId).isNone then
      .error .foreignKeyViolation
    else .ok { db with links := links }

/-- Only the links are written by `assign`. -/
theorem assign_frame {db db' : Db} {collectionId receiptId : UUID}
    (h : db.assign collectionId receiptId = .ok db') : db' = { db with links := db'.links } := by
  unfold assign at h
  split at h
  · rw [← Except.ok.inj h]
  · split at h
    · exact absurd h (by simp)
    · rw [← Except.ok.inj h]

/-- `UNASSIGN_SQL`. -/
def unassign (db : Db) (collectionId receiptId : UUID) : Db :=
  { db with links := db.links.filter (fun l => l ≠ ⟨receiptId, collectionId⟩) }

/-- `DELETE_RECEIPT_COLLECTIONS_SQL`. -/
def deleteReceiptCollections (db : Db) (receiptId : UUID) : Db :=
  { db with links := db.links.filter (fun l => l.receiptId ≠ receiptId) }

/-- `LIST_COLLECTION_IDS_FOR_RECEIPT_SQL`. It has no `ORDER BY`, so the
order is that of the rows. -/
def collectionIdsForReceipt (db : Db) (receiptId : UUID) : List UUID :=
  (db.links.rows.filter (fun l => l.receiptId = receiptId)).map Link.collectionId

/-- `INSERT_TAG_SQL`, which says whether the tag is new. -/
def createTag (db : Db) (name : String) : Except DbError (Db × Bool) := do
  let name ← varchar 100 name
  if name ∈ db.tags then return (db, false)
  else return ({ db with tags := db.tags ++ [name] }, true)

end Db

end VisionBill
