import VisionBill.ReceiptDB

/-!
# Images in the database

The statements of `ImageDB`. An image is a job of the analysis queue: it
is pending until somebody claims it, and a claim is a lease of fifteen
minutes that a status write ends. No status write asks whose claim it is.

## The life of an image

An image is stored as `pending`. Claiming it makes it `processing` and
writes down when, and a claim that is older than the lease counts as given
up, so the image can be claimed again. From there it becomes `analyzed`,
with its receipt, or one of three statuses that say what went wrong. A
failed image can be claimed again, the other two are final.

The statements of this module name an image by its identifier alone. That
is enough as long as there is one worker for an image, and it is why a
worker whose lease has run out can still write: nothing in the statement
tells it from the one that has the image now.

## What is said of them

Each statement rewrites one row, if it is there, and nothing else
(`WritesImage`). So there is one lemma for each that names the function
applied to the row, and callers never look at a statement again. A
statement whose image does not exist does nothing and raises nothing.
-/

namespace VisionBill

variable [CaseFolding]

/-- The lease of a claim: `INTERVAL '15 minutes'`. It is long compared
with an analysis, and nobody is stopped when it ends. -/
def leaseTime : ℤ := seconds 900

/-- What `store_image` is given. The photos have been stored by then, and
these are their paths. -/
structure NewImage where
  imagePath : String
  originalFilename : Option String
  mediaType : Option String
  sizeBytes : Option ℕ
  userId : Option UUID
  bypassReview : Bool
  thumbnailPath : Option String
  additionalImages : List ImagePart
  modelId : Option String

/-- The condition of `CLAIM_IMAGE_SQL` and `LIST_PENDING_IMAGES_SQL`:
pending, failed, or claimed longer ago than the lease. -/
def ImageRecord.Claimable (now : Timestamp) (image : ImageRecord) : Prop :=
  (image.status = .pending ∨ image.status = .failed)
    ∨ (image.status = .processing ∧ ∀ t ∈ image.processingAt, t < now - leaseTime)

instance (now : Timestamp) : DecidablePred (ImageRecord.Claimable now) := fun _ =>
  inferInstanceAs (Decidable (_ ∨ _))

/-- A part in a `JSONB` column, which holds no NUL character either. A
text with one is refused before the row is written. -/
def jsonPart (part : ImagePart) : Except DbError ImagePart := do
  let imagePath ← text part.imagePath
  let thumbnailPath ← nullable text part.thumbnailPath
  let originalFilename ← nullable text part.originalFilename
  let mediaType ← nullable text part.mediaType
  return {
    imagePath := imagePath
    thumbnailPath := thumbnailPath
    originalFilename := originalFilename
    mediaType := mediaType
    sizeBytes := part.sizeBytes }

omit [CaseFolding] in
theorem eq_of_jsonPart {part part' : ImagePart} (h : jsonPart part = .ok part') : part' = part := by
  unfold jsonPart at h
  obtain ⟨imagePath, h₁, h⟩ := bind_eq_ok.mp h
  obtain ⟨thumbnailPath, h₂, h⟩ := bind_eq_ok.mp h
  obtain ⟨originalFilename, h₃, h⟩ := bind_eq_ok.mp h
  obtain ⟨mediaType, h₄, h⟩ := bind_eq_ok.mp h
  rw [← Except.ok.inj h, eq_of_text h₁, eq_of_nullable_text h₂, eq_of_nullable_text h₃,
    eq_of_nullable_text h₄]

/-- `parts()`: the primary image followed by the additional ones. So a
submission with one photo has one part. -/
def ImageRecord.parts (image : ImageRecord) : List ImagePart :=
  { imagePath := image.imagePath.getD ""
    thumbnailPath := image.thumbnailPath
    originalFilename := image.originalFilename
    mediaType := image.mediaType
    sizeBytes := image.sizeBytes } :: image.additionalImages

namespace Db

/-- `INSERT_IMAGE_SQL`, with the status `pending`. Each text has to fit
its column, and the list of additional photos is stored as JSON. -/
def storeImage (db : Db) (now : Timestamp) (newId : UUID) (new : NewImage) :
    Except DbError (Db × ImageRecord) := do
  let originalFilename ← nullable (varchar 255) new.originalFilename
  let mediaType ← nullable (varchar 100) new.mediaType
  let imagePath ← text new.imagePath
  let thumbnailPath ← nullable text new.thumbnailPath
  let additionalImages ← new.additionalImages.mapM jsonPart
  let modelId ← nullable text new.modelId
  let row : ImageRecord := {
    id := newId
    originalFilename := originalFilename
    mediaType := mediaType
    sizeBytes := new.sizeBytes
    imagePath := some imagePath
    thumbnailPath := thumbnailPath
    status := .pending
    error := none
    receiptId := none
    bypassReview := new.bypassReview
    userId := new.userId
    createdAt := now
    analyzedAt := none
    processingAt := none
    additionalImages := additionalImages
    modelId := modelId }
  match db.images.insert row with
  | some images => return ({ db with images := images }, row)
  | none => throw .uniqueViolation

/-- `get_image_by_id`, scoped to its owner. -/
def imageFor? (db : Db) (caller : Caller) (imageId : UUID) : Option ImageRecord :=
  (db.images.get? imageId).filter (fun i => caller.Scope i.userId)

/-- `LIST_PENDING_IMAGES_SQL`. -/
def listPendingImages (db : Db) (now : Timestamp) : List ImageRecord :=
  orderBy (fun a b => a.createdAt < b.createdAt ∨ (a.createdAt = b.createdAt ∧ a.id ≤ b.id))
    (db.images.rows.filter (fun i => i.Claimable now))

omit [CaseFolding] in
theorem mem_listPendingImages {db : Db} {now : Timestamp} {image : ImageRecord} :
    image ∈ db.listPendingImages now ↔ image ∈ db.images.rows ∧ image.Claimable now := by
  unfold listPendingImages
  rw [mem_orderBy, List.mem_filter, decide_eq_true_eq]

/-- An image row as `CLAIM_IMAGE_SQL` leaves it. -/
def claimed (now : Timestamp) (image : ImageRecord) : ImageRecord :=
  { image with status := .processing, processingAt := some now, error := none }

/-- `CLAIM_IMAGE_SQL`. The condition is part of the statement, so of
several workers that have listed an image only one gets it. -/
def claimForAnalysis (db : Db) (now : Timestamp) (imageId : UUID) : Option (Db × ImageRecord) :=
  ((db.images.get? imageId).filter (fun i => i.Claimable now)).map fun old =>
    ({ db with images := db.images.update imageId (claimed now) fun _ => rfl }, claimed now old)

/-- An image row as `MARK_ANALYZED_SQL` leaves it. It does not matter what
the status was before. -/
def analyzed (now : Timestamp) (receiptId : UUID) (image : ImageRecord) : ImageRecord :=
  { image with
    status := .analyzed
    receiptId := some receiptId
    error := none
    analyzedAt := some now
    processingAt := none }

/-- `MARK_ANALYZED_SQL`. Without a row nothing is checked. -/
def markAnalyzed (db : Db) (now : Timestamp) (imageId receiptId : UUID) : Except DbError Db :=
  if (db.images.get? imageId).isSome ∧ (db.receipts.get? receiptId).isNone then
    .error .foreignKeyViolation
  else .ok { db with images := db.images.update imageId (analyzed now receiptId) fun _ => rfl }

/-- An image row as `MARK_FAILED_SQL` or `mark_terminal` leaves it. -/
def stopped (status : ImageStatus) (error : String) (image : ImageRecord) : ImageRecord :=
  { image with status := status, error := some error, processingAt := none }

/-- `MARK_FAILED_SQL`. -/
def markFailed (db : Db) (imageId : UUID) (error : String) : Except DbError Db := do
  let error ← text error
  return { db with images := db.images.update imageId (stopped .failed error) fun _ => rfl }

/-- `mark_terminal`, of which only two statuses are supported. Any other
is refused before anything is sent. -/
def markTerminal (db : Db) (imageId : UUID) (status : ImageStatus) (error : String) :
    Except DbError Db :=
  if status = .timedOut ∨ status = .unreadable then do
    let error ← text error
    return { db with images := db.images.update imageId (stopped status error) fun _ => rfl }
  else .error (.valueError "Unsupported terminal analysis status")

/-- `UPDATE_IMAGE_PATH_SQL`. -/
def updateImagePath (db : Db) (imageId : UUID) (path : String) : Except DbError Db := do
  let path ← text path
  let write := fun i : ImageRecord => { i with imagePath := some path }
  return { db with images := db.images.update imageId write fun _ => rfl }

/-- `UPDATE_IMAGE_THUMB_PATH_SQL`. -/
def updateImageThumbnailPath (db : Db) (imageId : UUID) (path : String) : Except DbError Db := do
  let path ← text path
  let write := fun i : ImageRecord => { i with thumbnailPath := some path }
  return { db with images := db.images.update imageId write fun _ => rfl }

/-- `update_additional_images`. -/
def updateAdditionalImages (db : Db) (imageId : UUID) (parts : List ImagePart) :
    Except DbError Db := do
  let parts ← parts.mapM jsonPart
  let write := fun i : ImageRecord => { i with additionalImages := parts }
  return { db with images := db.images.update imageId write fun _ => rfl }

/-- `DELETE_IMAGE_SQL`; a receipt of the image forgets it. -/
def deleteImage (db : Db) (imageId : UUID) : Db :=
  let forget := fun r : ReceiptRecord => { r with imageId := r.imageId.filter (· ≠ imageId) }
  { db with
    images := db.images.filter (fun i => i.id ≠ imageId)
    receipts := db.receipts.modify forget fun _ => rfl }

end Db

/-! ## What the statements do

Each statement changes one row or none, and says by its answer which of
the two. Claiming is the only one whose condition depends on the time. -/

/-- The row of an image is rewritten, if there is one, and nothing else:
no other image, and no other table. -/
structure WritesImage (db : Db) (imageId : UUID) (f : ImageRecord → ImageRecord) (db' : Db) :
    Prop where
  get : ∀ i, db'.images.get? i = if i = imageId then (db.images.get? imageId).map f
    else db.images.get? i
  frame : db' = { db with images := db'.images }

namespace Db

omit [CaseFolding] in
theorem writesImage_update {db : Db} {imageId : UUID} {f : ImageRecord → ImageRecord}
    {hf : ∀ i, (f i).id = i.id} :
    WritesImage db imageId f { db with images := db.images.update imageId f hf } :=
  ⟨Table.get?_update db.images imageId f hf, rfl⟩

omit [CaseFolding] in
theorem claimForAnalysis_spec {db db' : Db} {now : Timestamp} {imageId : UUID}
    {image : ImageRecord} (h : db.claimForAnalysis now imageId = some (db', image)) :
    ∃ old, db.images.get? imageId = some old ∧ old.Claimable now ∧ image = claimed now old
      ∧ WritesImage db imageId (claimed now) db' := by
  obtain ⟨old, hold, heq⟩ := Option.map_eq_some_iff.mp h
  obtain ⟨rfl, rfl⟩ := Prod.mk.inj heq
  obtain ⟨hget, hclaimable⟩ := Option.filter_eq_some_iff.mp hold
  exact ⟨old, hget, of_decide_eq_true hclaimable, rfl, writesImage_update⟩

omit [CaseFolding] in
theorem claimForAnalysis_of_claimable {db : Db} {now : Timestamp} {image : ImageRecord}
    {imageId : UUID} (himage : db.images.get? imageId = some image)
    (hclaimable : image.Claimable now) :
    ∃ db', db.claimForAnalysis now imageId = some (db', claimed now image) :=
  ⟨_, congrArg (Option.map _)
    (Option.filter_eq_some_iff.mpr ⟨himage, decide_eq_true hclaimable⟩)⟩

omit [CaseFolding] in
theorem markAnalyzed_spec {db db' : Db} {now : Timestamp} {imageId receiptId : UUID}
    (h : db.markAnalyzed now imageId receiptId = .ok db') :
    (db.images.get? imageId ≠ none → db.receipts.get? receiptId ≠ none)
      ∧ WritesImage db imageId (analyzed now receiptId) db' := by
  unfold markAnalyzed at h
  split at h
  · exact absurd h (by simp)
  · next hfk =>
    obtain rfl := Except.ok.inj h
    refine ⟨fun himage hreceipt => hfk ⟨?_, ?_⟩, writesImage_update⟩
    · exact Option.isSome_iff_ne_none.mpr himage
    · exact Option.isNone_iff_eq_none.mpr hreceipt

omit [CaseFolding] in
theorem markFailed_spec {db db' : Db} {imageId : UUID} {error : String}
    (h : db.markFailed imageId error = .ok db') :
    WritesImage db imageId (stopped .failed error) db' := by
  obtain ⟨error', herror, h⟩ := bind_eq_ok.mp h
  obtain rfl := Except.ok.inj h
  obtain rfl := eq_of_text herror
  exact writesImage_update

omit [CaseFolding] in
theorem markTerminal_spec {db db' : Db} {imageId : UUID} {status : ImageStatus} {error : String}
    (h : db.markTerminal imageId status error = .ok db') :
    (status = .timedOut ∨ status = .unreadable)
      ∧ WritesImage db imageId (stopped status error) db' := by
  unfold markTerminal at h
  split at h
  · next hstatus =>
    obtain ⟨error', herror, h⟩ := bind_eq_ok.mp h
    obtain rfl := Except.ok.inj h
    obtain rfl := eq_of_text herror
    exact ⟨hstatus, writesImage_update⟩
  · exact absurd h (by simp)

omit [CaseFolding] in
theorem updateImagePath_spec {db db' : Db} {imageId : UUID} {path : String}
    (h : db.updateImagePath imageId path = .ok db') :
    WritesImage db imageId (fun i => { i with imagePath := some path }) db' := by
  obtain ⟨path', hpath, h⟩ := bind_eq_ok.mp h
  obtain rfl := Except.ok.inj h
  obtain rfl := eq_of_text hpath
  exact writesImage_update

omit [CaseFolding] in
theorem updateImageThumbnailPath_spec {db db' : Db} {imageId : UUID} {path : String}
    (h : db.updateImageThumbnailPath imageId path = .ok db') :
    WritesImage db imageId (fun i => { i with thumbnailPath := some path }) db' := by
  obtain ⟨path', hpath, h⟩ := bind_eq_ok.mp h
  obtain rfl := Except.ok.inj h
  obtain rfl := eq_of_text hpath
  exact writesImage_update

omit [CaseFolding] in
theorem updateAdditionalImages_spec {db db' : Db} {imageId : UUID} {parts : List ImagePart}
    (h : db.updateAdditionalImages imageId parts = .ok db') :
    WritesImage db imageId (fun i => { i with additionalImages := parts }) db' := by
  obtain ⟨parts', hparts, h⟩ := bind_eq_ok.mp h
  obtain rfl := Except.ok.inj h
  obtain rfl := eq_of_mapM eq_of_jsonPart hparts
  exact writesImage_update

omit [CaseFolding] in
/-- A new image is pending, no receipt is known for it, and it belongs to
the user that has uploaded it. -/
theorem storeImage_spec {db db' : Db} {now : Timestamp} {newId : UUID} {new : NewImage}
    {row : ImageRecord} (h : db.storeImage now newId new = .ok (db', row)) :
    row.id = newId ∧ row.status = .pending ∧ row.receiptId = none
      ∧ (∀ i, db'.images.get? i = if i = newId then some row else db.images.get? i)
      ∧ db' = { db with images := db'.images } ∧ row.userId = new.userId := by
  obtain ⟨originalFilename, -, h₁⟩ := bind_eq_ok.mp h
  obtain ⟨mediaType, -, h₂⟩ := bind_eq_ok.mp h₁
  obtain ⟨imagePath, -, h₃⟩ := bind_eq_ok.mp h₂
  obtain ⟨thumbnailPath, -, h₄⟩ := bind_eq_ok.mp h₃
  obtain ⟨additionalImages, -, h₅⟩ := bind_eq_ok.mp h₄
  obtain ⟨modelId, -, h₆⟩ := bind_eq_ok.mp h₅
  dsimp only at h₆
  split at h₆
  · next images hinsert =>
    obtain ⟨rfl, rfl⟩ := Prod.mk.inj (Except.ok.inj h₆)
    refine ⟨rfl, rfl, rfl, fun i => ?_, rfl, rfl⟩
    rw [Table.get?_insert hinsert]
    exact if_congr eq_comm rfl rfl
  · exact absurd h₆ (by simp)

omit [CaseFolding] in
/-- The image goes, the receipt that was made of it stays and forgets it,
as its foreign key says. -/
theorem deleteImage_spec (db : Db) (imageId : UUID) :
    (∀ i, (db.deleteImage imageId).images.get? i
        = if i = imageId then none else db.images.get? i)
      ∧ ∀ r, (db.deleteImage imageId).receipts.get? r = (db.receipts.get? r).map
        (fun r => { r with imageId := r.imageId.filter (· ≠ imageId) }) := by
  refine ⟨Table.get?_filter_ne db.images imageId, fun r => ?_⟩
  dsimp only [deleteImage]
  rw [Table.get?_modify]

end Db

end VisionBill
