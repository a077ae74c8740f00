import VisionBill.Links

/-!
# What an operation does to the database

Whatever it returns, an operation leaves the rows of receipts, their
children, the collections and the links as they were, or it is one of
seven and has gone through. An invariant of the database looks at these
and at nothing else.

There are some thirty operations, and most of them read, or write to an
image or to a file. Without this module each invariant would go through
all of them, with the same argument for most. So the cases are made once
(`Changes`), each with the call that has succeeded, and the lemma about
that call does the rest.
-/

namespace VisionBill

variable [CaseFolding]

/-- The database after an operation, by what it was before. A case names
the operation with its arguments, and has the equation of the call. -/
inductive Changes (c : Choice) (db db' : Db) : Op → Prop
  /-- Only rows of images are written, or nothing is. -/
  | images {op : Op} (hframe : db' = { db with images := db'.images }) : Changes c db db' op
  | persistReceipt {receipt : Receipt} {imageId : Option UUID} {status : ReceiptStatus}
      {verified : Bool} {userId : Option UUID} {row : ReceiptRecord}
      (hok : db.persistReceipt c.now c.ids receipt imageId status verified userId
        = .ok (db', row)) : Changes c db db' (.persistReceipt receipt imageId status verified userId)
  | updateReceipt {caller : Caller} {receiptId : UUID} {receipt : ReceiptUpdate}
      {row : ReceiptRecord}
      (hok : db.updateReceipt c.ids receiptId receipt caller = .ok (some (db', row))) :
      Changes c db db' (.updateReceipt caller receiptId receipt)
  | verifyReceipt {caller : Caller} {receiptId : UUID} {row : ReceiptRecord}
      (hok : db.verifyReceipt receiptId caller = some (db', row)) :
      Changes c db db' (.verifyReceipt caller receiptId)
  | deleteReceipt {caller : Caller} {receiptId : UUID} {row : ReceiptRecord}
      (hok : db.deleteReceipt c.benchmarked receiptId caller = .ok (some (db', row))) :
      Changes c db db' (.deleteReceipt caller receiptId)
  | deleteImage {imageId : UUID} (hdb : db' = db.deleteImage imageId) :
      Changes c db db' (.deleteImage imageId)
  | assign {collectionId receiptId : UUID} (hok : db.assign collectionId receiptId = .ok db') :
      Changes c db db' (.assign collectionId receiptId)
  | deleteReceiptCollections {receiptId : UUID}
      (hdb : db' = db.deleteReceiptCollections receiptId) :
      Changes c db db' (.deleteReceiptCollections receiptId)

namespace World

variable {settings : Settings} {w w' : World} {op : Op} {c : Choice}

/-- A statement that writes to an image, if it does anything. -/
theorem changes_write {result : Except DbError Db} {r : Except Exn Unit}
    (hwrite : w.write result = (w', r))
    (hdb : result = .ok w'.db → ∃ imageId f, WritesImage w.db imageId f w'.db) :
    Changes c w.db w'.db op := by
  obtain ⟨hok, -⟩ | ⟨rfl, -⟩ := write_eq hwrite
  · obtain ⟨imageId, f, himage⟩ := hdb hok
    exact .images himage.frame
  · exact .images rfl

/-- What an operation that does not fail leaves. One case for each
operation; of one that writes images only, this is what is said. -/
theorem changes_perform {r : Except Exn op.Ret} (hperform : w.perform settings c op = (w', r)) :
    Changes c w.db w'.db op := by
  cases op
  case persistReceipt receipt imageId status verified owner =>
    obtain ⟨row, hok, -⟩ | ⟨rfl, -⟩ := writeRow_eq hperform
    · exact .persistReceipt hok
    · exact .images rfl
  case updateReceipt caller receiptId receipt =>
    obtain ⟨row, hok, -⟩ | ⟨rfl, -⟩ := writeRow?_eq hperform
    · exact .updateReceipt hok
    · exact .images rfl
  case verifyReceipt caller receiptId =>
    obtain ⟨row, hok, -⟩ | ⟨rfl, -⟩ := writeRow?_eq hperform
    · exact .verifyReceipt (Except.ok.inj hok)
    · exact .images rfl
  case deleteReceipt caller receiptId =>
    obtain ⟨row, hok, -⟩ | ⟨rfl, -⟩ := writeRow?_eq hperform
    · exact .deleteReceipt hok
    · exact .images rfl
  case deleteImage imageId =>
    exact .deleteImage (congrArg (fun p => p.1.db) hperform).symm
  case assign collectionId receiptId =>
    obtain ⟨hok, -⟩ | ⟨rfl, -⟩ := write_eq hperform
    · exact .assign hok
    · exact .images rfl
  case deleteReceiptCollections receiptId =>
    exact .deleteReceiptCollections (congrArg (fun p => p.1.db) hperform).symm
  case storeImage new =>
    obtain ⟨row, hok, -⟩ | ⟨rfl, -⟩ := writeRow_eq hperform
    · obtain ⟨-, -, -, -, hframe, -⟩ := Db.storeImage_spec hok
      exact .images hframe
    · exact .images rfl
  case claimForAnalysis imageId =>
    obtain ⟨image, hok, -⟩ | ⟨rfl, -⟩ := writeRow?_eq hperform
    · obtain ⟨old, -, -, -, hwrite⟩ := Db.claimForAnalysis_spec (Except.ok.inj hok)
      exact .images hwrite.frame
    · exact .images rfl
  case markAnalyzed imageId receiptId =>
    exact changes_write hperform fun hok => ⟨_, _, (Db.markAnalyzed_spec hok).2⟩
  case markFailed imageId error =>
    exact changes_write hperform fun hok => ⟨_, _, Db.markFailed_spec hok⟩
  case markTerminal imageId status error =>
    exact changes_write hperform fun hok => ⟨_, _, (Db.markTerminal_spec hok).2⟩
  case updateImagePath imageId path =>
    exact changes_write hperform fun hok => ⟨_, _, Db.updateImagePath_spec hok⟩
  case updateImageThumbnailPath imageId path =>
    exact changes_write hperform fun hok => ⟨_, _, Db.updateImageThumbnailPath_spec hok⟩
  case updateAdditionalImages imageId parts =>
    exact changes_write hperform fun hok => ⟨_, _, Db.updateAdditionalImages_spec hok⟩
  case storePermImage path receiptId => exact .images (by rw [db_of_storePermImage hperform])
  case deleteFile path => exact .images (by rw [db_of_deleteFile hperform])
  all_goals
    -- it only reads
    have hdb : w'.db = w.db := (congrArg (fun p => p.1.db) hperform).symm
    exact .images (by rw [hdb])

/-- **What an operation does**, also when it fails. The modules above this
one split on `Changes` and never unfold `World.exec`, so that a statement
which changes in the program changes one case here. -/
theorem changes_exec {r : Except Exn op.Ret} (hexec : w.exec settings op c = some (w', r)) :
    Changes c w.db w'.db op := by
  obtain ⟨-, ⟨rfl, -⟩ | ⟨-, hperform⟩⟩ := exec_eq hexec
  · exact .images rfl
  · exact changes_perform (w := w.started c) hperform

end World

end VisionBill
