import VisionBill.CollectionDB

/-!
# Queries

What the program reads from the database for its users. Most queries are
restricted to the rows of the caller, each by a condition of its own; here
is the one that shows a receipt with its children. The caller is looked at
once, when the row of the receipt is read, and the children are those of
that row.
-/

namespace VisionBill

/-- `ReceiptWithDetails`. The floats of quantities and rates are printed
as the numbers that are stored, which have at most ten digits. -/
structure ReceiptWithDetails where
  receipt : ReceiptRecord
  lineItems : List LineItemRecord
  taxes : List TaxRecord
  imagePath : Option String
  collectionIds : List UUID

namespace Db

/-- `LIST_TAXES_SQL`. -/
def listTaxes (db : Db) (receiptId : UUID) : List TaxRecord :=
  orderBy (fun a b => a.id ≤ b.id) (db.taxes.rows.filter (fun row => row.receiptId = receiptId))

/-- `get_receipt_with_details`. The receipt is scoped to the caller, and
all that is read afterwards goes by its id. -/
def getReceiptWithDetails (db : Db) (caller : Caller) (receiptId : UUID) :
    Option ReceiptWithDetails :=
  (db.receiptFor? caller receiptId).map fun row =>
    { receipt := row
      lineItems := db.listLineItems receiptId
      taxes := db.listTaxes receiptId
      imagePath := (row.imageId.bind db.images.get?).bind ImageRecord.imagePath
      collectionIds := db.collectionIdsForReceipt receiptId }

end Db

end VisionBill
