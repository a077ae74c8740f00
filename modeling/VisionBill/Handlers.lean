import VisionBill.World

/-!
# Request handlers and the analysis scheduler

The programs that run against the database and the files: uploading a
photo, one cycle of the analysis worker, and the requests that change a
receipt or delete something. What the upload request and the worker do
with a claimed image is written twice in the source, and so it is here
(`uploadClaimed`, `analyzeOne`).

An upload starts when its photos have been stored as files; what a request
returns to the client beyond its status is left out.

## Exceptions

A handler of the source is a handler here, with the class of what it
catches. Three kinds of them occur. Some swallow everything, such as the
one around capturing a new receipt into the active collection: the receipt
is stored, and what becomes of the collection does not matter. Some
translate an exception of the database into an answer to the client. And
the worker has one that turns what is raised about an image into the
status of that image, so that one image does not stop the others.

## What belongs to the analysis

Five operations claim an image or end its analysis (`Op.IsAnalysis`); all
the others leave the queue alone. Most requests call none of the five,
which is shown for each of them in the same way, by going through its text
(`Apart`). So statements about the queue are about two programs only, and
everything else is a step that does not matter.
-/

namespace VisionBill

section Handlers

variable [CaseFolding]

namespace Handler

/-- A single operation. -/
abbrev perform (op : Op) : Handler op.Ret := Program.perform op

/-- `try … except Exception as e`, with the exception as a value. What
follows looks at it, as the body of a handler does. -/
def attempt {α : Type} (p : Handler α) : Handler (Except Exn α) :=
  tryCatch (do return .ok (← p)) fun e => return .error e

/-! ## Shared services

Several requests persist a receipt, put it into the active collection and
move its photos. These parts catch what goes wrong at different places,
and how far they catch is kept as it is in the source. -/

/-- `_capture_to_active`: whatever goes wrong is swallowed. The receipt is
stored by then, and is only missing in the collection. -/
def captureToActive (receiptId : UUID) : Option UUID → Handler Unit
  | none => pure ()
  | some userId => do
    let _ ← attempt do
      let active : Option CollectionRecord ← perform (.activeCollection ⟨userId, false⟩)
      match active with
      | some collection => perform (.assign collection.id receiptId)
      | none => pure ()
    pure ()

/-- `ReceiptService.persist_receipt`. -/
def persistReceipt (receipt : Receipt) (imageId : Option UUID) (status : ReceiptStatus)
    (verified : Bool) (userId : Option UUID) : Handler ReceiptRecord := do
  let row : ReceiptRecord ← perform (.persistReceipt receipt imageId status verified userId)
  captureToActive row.id userId
  return row

/-- The primary photo is moved, and its new paths are written. Between the
two the row names a file that is not there. -/
def movePrimary (imageId : UUID) (path : FilePath) (receiptId : UUID) : Handler Unit := do
  let paths : Option FilePath × Option FilePath ← perform (.storePermImage path receiptId)
  match paths.1 with
  | some newPath => perform (.updateImagePath imageId newPath)
  | none => pure ()
  match paths.2 with
  | some newThumb => perform (.updateImageThumbnailPath imageId newThumb)
  | none => pure ()

/-- A part with the new paths of its files. -/
def movedPart (paths : Option FilePath × Option FilePath) (part : ImagePart) : ImagePart :=
  { part with
    imagePath := paths.1.getD part.imagePath
    thumbnailPath := paths.2.or part.thumbnailPath }

/-- `move_additional_images`, from a part on: the whole list is written
once for each part, whether it was moved or not. -/
def moveAdditionalImages (imageId receiptId : UUID) (moved : List ImagePart) :
    List ImagePart → Handler Unit
  | [] => pure ()
  | part :: parts => do
    let paths : Option FilePath × Option FilePath ←
      perform (.storePermImage part.imagePath receiptId)
    let part := movedPart paths part
    perform (.updateAdditionalImages imageId (moved ++ part :: parts))
    moveAdditionalImages imageId receiptId (moved ++ [part]) parts

/-! ## The worker

A cycle lists the queue and takes one image after the other. Each is
claimed, analysed, and written down with whatever has come of it; an
exception of one image is not one of the cycle. -/

/-- `PendingImageResult`. It is the report of one image, also where its
analysis has failed. -/
structure PendingImageResult where
  imageId : UUID
  status : ImageStatus
  receiptId : Option UUID := none
  error : Option String := none

/-- A path that is given and not empty. -/
def givenPath (path : Option FilePath) : Option FilePath := path.filter (· ≠ "")

/-- The end of `_analyze_one`: the receipt is stored and linked, and
photos that need no review are moved. A photo that cannot be moved stays
where it is, and the image is analysed all the same. -/
def storeAnalysis (image : ImageRecord) (path : FilePath) (receipt : Receipt) :
    Handler PendingImageResult := do
  let bypass := image.bypassReview
  let stored ← attempt do
    let row ← persistReceipt receipt (some image.id)
      (if bypass then .verified else .unverified) bypass image.userId
    perform (.markAnalyzed image.id row.id)
    return row
  match stored with
  | .error e => do
    let error := "Failed to persist receipt: " ++ e.str
    perform (.markFailed image.id error)
    return { imageId := image.id, status := .failed, error := some error }
  | .ok row => do
    if bypass then
      let _ ← attempt do
        movePrimary image.id path row.id
        if image.additionalImages ≠ [] then
          moveAdditionalImages image.id row.id [] image.additionalImages
    return { imageId := image.id, status := .analyzed, receiptId := some row.id }

/-- The middle of `_analyze_one`: the photos are analysed. Three kinds of
exceptions are told apart, and each leaves the image in another status. -/
def analyzeFile (image : ImageRecord) (path : FilePath) (modelId : String) :
    Handler PendingImageResult := do
  let paths := if image.additionalImages ≠ [] then image.parts.map ImagePart.imagePath else [path]
  let analysis : Except Exn Receipt ← attempt (perform (.analyse modelId paths))
  match analysis with
  | .ok receipt => storeAnalysis image path receipt
  | .error (.analysisTimeout message) => do
    perform (.markTerminal image.id .timedOut message)
    return { imageId := image.id, status := .timedOut, error := some message }
  | .error (.unreadableReceipt message) => do
    perform (.markTerminal image.id .unreadable message)
    return { imageId := image.id, status := .unreadable, error := some message }
  | .error e => do
    perform (.markFailed image.id e.str)
    return { imageId := image.id, status := .failed, error := some e.str }

/-- `_analyze_one`. An image that has a receipt already is marked without
asking a model, and one whose file is missing is marked as failed. -/
def analyzeOne (image : ImageRecord) (modelId : String) : Handler PendingImageResult :=
  match image.receiptId with
  | some receiptId => do
    perform (.markAnalyzed image.id receiptId)
    return { imageId := image.id, status := .analyzed, receiptId := some receiptId }
  | none => do
    let existing : Option ReceiptRecord ← perform (.getReceiptByImageId image.id)
    match existing with
    | some existing => do
      perform (.markAnalyzed image.id existing.id)
      return { imageId := image.id, status := .analyzed, receiptId := some existing.id }
    | none => do
      let missing := do
        let error := "Image file missing: " ++ image.imagePath.getD "None"
        perform (.markFailed image.id error)
        return { imageId := image.id, status := .failed, error := some error }
      match givenPath image.imagePath with
      | none => missing
      | some path => do
        let found : Bool ← perform (.fileExists path)
        if found then analyzeFile image path modelId else missing

/-- `_select_model`: the configured model, or the first one. -/
def selectModel (settings : Settings) (first : String) (models : List String) : String :=
  if settings.modelName ∈ first :: models then settings.modelName else first

/-- The model for a claimed image: the one it asks for, if that is
there. -/
def chosenModel (image : ImageRecord) (models : List String) (modelId : String) : String :=
  match image.modelId with
  | some requested => if requested ∈ models then requested else modelId
  | none => modelId

/-- The loop of `_process_pending_unlocked`. An image that somebody else
has claimed since it was listed is left out. -/
def processImages (models : List String) (modelId : String) :
    List ImageRecord → Handler (List PendingImageResult)
  | [] => return []
  | image :: images => do
    let claimed : Option ImageRecord ← perform (.claimForAnalysis image.id)
    match claimed with
    | none => processImages models modelId images
    | some claimed => do
      let result ← analyzeOne claimed (chosenModel claimed models modelId)
      let results ← processImages models modelId images
      return result :: results

/-- `_process_pending_unlocked`. The models are asked for first, and
without one nothing is claimed. -/
def processPending (settings : Settings) : Handler (List PendingImageResult) := do
  let models : Except Exn (List String) ← attempt (perform .getAvailableModels)
  match models with
  | .error _ => return []
  | .ok [] => return []
  | .ok (first :: models) => do
    let pending : List ImageRecord ← perform .listPendingImages
    processImages (first :: models) (selectModel settings first models) pending

/-! ## Uploading

An upload stores its photos first. What follows depends on whether a model
can be chosen at once: if so the request claims the image and analyses it
itself, and otherwise the worker will. -/

/-- How an upload ends, if it does not raise. In all three cases the photo
is stored and its row as well. -/
inductive UploadResponse
  /-- 202: the image is left to the worker. -/
  | queued
  /-- 504 or 422: the analysis has ended without a receipt. -/
  | stopped (status : ImageStatus)
  /-- 201. -/
  | created (receiptId : UUID)

/-- The model that `upload_image` chooses; an empty request counts as
none. A model that is asked for and not there is passed over without a
word. -/
def uploadModel (settings : Settings) (requested : Option String) (first : String)
    (models : List String) : String :=
  match requested.filter (fun r => r ≠ "" ∧ r ∈ first :: models) with
  | some requested => requested
  | none => if settings.modelName ∈ first :: models then settings.modelName else first

/-- `upload_image` after a successful claim, with the models that are
there. The request waits for the analysis, which only happens for a single
photo. -/
def uploadClaimed (settings : Settings) (new : NewImage) (first : String) (models : List String)
    (image : ImageRecord) : Handler UploadResponse := do
  let chosen := uploadModel settings new.modelId first models
  let analysis : Except Exn Receipt ← attempt (perform (.analyse chosen [new.imagePath]))
  match analysis with
  | .error (.analysisTimeout message) => do
    perform (.markTerminal image.id .timedOut message)
    return .stopped .timedOut
  | .error (.unreadableReceipt message) => do
    perform (.markTerminal image.id .unreadable message)
    return .stopped .unreadable
  | .error e => do
    perform (.markFailed image.id e.str)
    throw e
  | .ok receipt => do
    let bypass := new.bypassReview
    let row ← persistReceipt receipt (some image.id)
      (if bypass then .verified else .unverified) bypass new.userId
    perform (.markAnalyzed image.id row.id)
    if bypass then
      let _ ← attempt (movePrimary image.id new.imagePath row.id)
    return .created row.id

/-- The models that are there, for a single photo; no failure matters.
Without models the photo is left to the worker. -/
def discoverModels (new : NewImage) : Handler (List String) := do
  if new.additionalImages = [] then
    let models ← attempt do
      let connected : Bool ← perform .checkConnection
      if connected then perform .getAvailableModels else return []
    match models with
    | .ok models => return models
    | .error _ => return []
  else return []

/-- The files of an upload are removed. -/
def deleteFiles : List FilePath → Handler Unit
  | [] => pure ()
  | path :: paths => do
    if path ≠ "" then perform (.deleteFile path)
    deleteFiles paths

/-- `upload_image`, once the photos are stored as files. Several photos
are left to the worker; a single one is analysed here if it can be
claimed. -/
def uploadImage (settings : Settings) (new : NewImage) : Handler UploadResponse := do
  let models ← discoverModels new
  let image : ImageRecord ← tryCatch (perform (.storeImage new)) fun e => do
    deleteFiles (new.imagePath :: new.additionalImages.map ImagePart.imagePath)
    throw e
  if new.additionalImages ≠ [] then return .queued
  match models with
  | [] => return .queued
  | first :: models => do
    let claimed : Option ImageRecord ← perform (.claimForAnalysis image.id)
    match claimed with
    | none => return .queued
    | some image => uploadClaimed settings new first models image

/-! ## Receipts

A PUT writes the receipt in one transaction and its links after it.
Verifying moves the photos before it sets the status, and deleting a
receipt takes its children along. -/

/-- `CollectionDB.set_receipt_collections` after its `DELETE`. -/
def assignAll (receiptId : UUID) : List UUID → Handler Unit
  | [] => pure ()
  | collectionId :: collectionIds => do
    perform (.assign collectionId receiptId)
    assignAll receiptId collectionIds

/-- Every collection must be there for the caller. They are checked one by
one before any link is written, and the first that is missing ends the
request. -/
def checkCollections (caller : Caller) : List UUID → Handler Unit
  | [] => pure ()
  | collectionId :: collectionIds => do
    let found : Bool ← perform (.collectionExists caller collectionId)
    if found then checkCollections caller collectionIds
    else throw (.notFound "Collection not found")

/-- `CollectionService.set_receipt_collections`. The old links are deleted
before the new ones are written, and no transaction holds the statements
together. -/
def setReceiptCollections (caller : Caller) (receiptId : UUID) (collectionIds : List UUID) :
    Handler Unit := do
  let receipt : Option ReceiptRecord ← perform (.getReceipt caller receiptId)
  match receipt with
  | none => throw (.notFound "Receipt not found")
  | some _ => do
    checkCollections caller collectionIds
    perform (.deleteReceiptCollections receiptId)
    assignAll receiptId collectionIds

/-- `except ValueError` of `PUT /receipts/{id}`. -/
def asUnprocessable {α : Type} : Exn → Handler α
  | .db e => if e.IsValueError then throw (.http 422 e.str) else throw (.db e)
  | e => throw e

/-- `except NotFoundError` of `PUT /receipts/{id}`. -/
def asNotFound {α : Type} : Exn → Handler α
  | .notFound _ => throw (.http 404 "Collection not found")
  | e => throw e

/-- `PUT /receipts/{id}`. The receipt is updated in one transaction, and
its collections are set afterwards, in another one. -/
def updateReceipt (caller : Caller) (receiptId : UUID) (receipt : ReceiptUpdate) :
    Handler ReceiptRecord := do
  let row : Option ReceiptRecord ←
    tryCatch (perform (.updateReceipt caller receiptId receipt)) asUnprocessable
  match row with
  | none => throw (.http 404 "Receipt not found")
  | some row => do
    match receipt.collectionIds with
    | some collectionIds =>
      tryCatch (setReceiptCollections caller receiptId collectionIds) asNotFound
    | none => pure ()
    return row

/-- The files of a receipt that is being verified are moved. The row of
the image is read once, and what was read is used until the end. -/
def moveImage (caller : Caller) (imageId receiptId : UUID) : Handler Unit := do
  let image : Option ImageRecord ← perform (.getImage caller imageId)
  match image with
  | none => pure ()
  | some image =>
    match givenPath image.imagePath with
    | none => pure ()
    | some path => do
      movePrimary imageId path receiptId
      if image.additionalImages ≠ [] then
        moveAdditionalImages image.id receiptId [] image.additionalImages

/-- `POST /receipts/{id}/verify`. The photos of the receipt become
permanent, which is why they are moved here. -/
def verifyReceipt (caller : Caller) (receiptId : UUID) : Handler ReceiptRecord := do
  let row : Option ReceiptRecord ← perform (.getReceipt caller receiptId)
  match row with
  | none => throw (.http 404 "Receipt not found")
  | some row => do
    if row.status = .verified then throw (.http 409 "Receipt already verified")
    match row.imageId with
    | some imageId => moveImage caller imageId receiptId
    | none => pure ()
    let verified : Option ReceiptRecord ← perform (.verifyReceipt caller receiptId)
    match verified with
    | none => throw (.http 404 "Receipt not found")
    | some row => return row

/-- A reference by a benchmark is a conflict. -/
def asReferenced {α : Type} : Exn → Handler α
  | .db .foreignKeyViolation =>
    throw (.http 409 "Receipt is referenced by a benchmark run and cannot be deleted")
  | e => throw e

/-- `DELETE /receipts/{id}`. A receipt that a benchmark refers to is not
deleted, and the client is told so. -/
def deleteReceipt (caller : Caller) (receiptId : UUID) : Handler Unit := do
  let row : Option ReceiptRecord ←
    tryCatch (perform (.deleteReceipt caller receiptId)) asReferenced
  match row with
  | none => throw (.http 404 "Receipt not found")
  | some row =>
    match row.imageId with
    | none => pure ()
    | some imageId => do
      let image : Option ImageRecord ← perform (.getImage caller imageId)
      match image with
      | none => pure ()
      | some image => do
        perform (.deleteImage image.id)
        deleteFiles (image.parts.map ImagePart.imagePath)

/-- The statuses in which an image may be deleted. -/
def deletable : ImageStatus → Bool
  | .pending | .failed | .timedOut | .unreadable => true
  | .processing | .analyzed => false

/-- `DELETE /images/{id}`. The status is looked at when the row is read,
and the row is deleted in a statement of its own. -/
def deleteImage (caller : Caller) (imageId : UUID) : Handler Unit := do
  let image : Option ImageRecord ← perform (.getImage caller imageId)
  match image with
  | none => throw (.http 404 "Image not found")
  | some image => do
    if deletable image.status then
      perform (.deleteImage imageId)
      deleteFiles (image.parts.map ImagePart.imagePath)
    else throw (.http 409 "Cannot delete an active or analyzed submission")

end Handler

/-! ## Requests -/

/-- What starts a task: a request, or a cycle of the scheduler. The system
of tasks may start any of these at any time. -/
inductive Request
  | upload (new : NewImage)
  | processPending
  | updateReceipt (caller : Caller) (receiptId : UUID) (receipt : ReceiptUpdate)
  | verifyReceipt (caller : Caller) (receiptId : UUID)
  | deleteReceipt (caller : Caller) (receiptId : UUID)
  | deleteImage (caller : Caller) (imageId : UUID)

/-- The program of a request. What it answers does not matter for what is
stored, and is dropped. -/
def Request.handler (settings : Settings) : Request → Handler Unit
  | .upload new => do let _ ← Handler.uploadImage settings new
  | .processPending => do let _ ← Handler.processPending settings
  | .updateReceipt caller receiptId receipt => do
    let _ ← Handler.updateReceipt caller receiptId receipt
  | .verifyReceipt caller receiptId => do let _ ← Handler.verifyReceipt caller receiptId
  | .deleteReceipt caller receiptId => Handler.deleteReceipt caller receiptId
  | .deleteImage caller imageId => Handler.deleteImage caller imageId

/-! ## What the handlers call

Most results are about every request, and each asks of the operations that
a program calls to satisfy something. So it is said once which operations
a handler calls at most, by walking through its text. -/

/-- The operations by which the analysis of an image is claimed and
ended. -/
def Op.IsAnalysis : Op → Prop
  | .claimForAnalysis _ | .markAnalyzed _ _ | .markFailed _ _ | .markTerminal _ _ _
  | .persistReceipt _ _ _ _ _ => True
  | _ => False

namespace Handler

/-- A handler that has no part in the analysis of an image. -/
abbrev Apart {α : Type} (p : Handler α) : Prop := p.Calls fun op => ¬ op.IsAnalysis

theorem apart_perform {op : Op} (h : ¬ op.IsAnalysis) : Apart (perform op) :=
  Program.calls_perform h

theorem calls_attempt {α : Type} {P : Op → Prop} {p : Handler α} (h : p.Calls P) :
    (attempt p).Calls P :=
  Program.calls_handle (Program.calls_bind h fun _ => trivial) fun _ => trivial

theorem apart_attempt {α : Type} {p : Handler α} (h : Apart p) : Apart (attempt p) :=
  calls_attempt h

theorem calls_captureToActive {P : Op → Prop} {receiptId : UUID} {userId : Option UUID}
    (hactive : ∀ caller, P (.activeCollection caller))
    (hassign : ∀ collectionId, P (.assign collectionId receiptId)) :
    (captureToActive receiptId userId).Calls P := by
  cases userId with
  | none => trivial
  | some userId =>
    refine Program.calls_bind (calls_attempt (Program.calls_bind
      (Program.calls_perform (hactive _)) ?_)) fun _ => trivial
    intro active
    cases active with
    | none => trivial
    | some collection => exact Program.calls_perform (hassign _)

theorem apart_captureToActive (receiptId : UUID) (userId : Option UUID) :
    Apart (captureToActive receiptId userId) :=
  calls_captureToActive (fun _ => id) fun _ => id

theorem calls_movePrimary {P : Op → Prop} {imageId : UUID} {path : FilePath} {receiptId : UUID}
    (hstore : P (.storePermImage path receiptId)) (hpath : ∀ new, P (.updateImagePath imageId new))
    (hthumb : ∀ new, P (.updateImageThumbnailPath imageId new)) :
    (movePrimary imageId path receiptId).Calls P := by
  refine Program.calls_bind (Program.calls_perform hstore) fun paths => ?_
  have hrest : Program.Calls P (match paths.2 with
      | some newThumb => perform (.updateImageThumbnailPath imageId newThumb)
      | none => pure ()) := by
    split
    · exact Program.calls_perform (hthumb _)
    · trivial
  dsimp only
  split
  · exact Program.calls_bind (Program.calls_perform (hpath _)) fun _ => hrest
  · exact hrest

theorem apart_movePrimary (imageId : UUID) (path : FilePath) (receiptId : UUID) :
    Apart (movePrimary imageId path receiptId) :=
  calls_movePrimary id (fun _ => id) fun _ => id

theorem calls_moveAdditionalImages {P : Op → Prop} {imageId receiptId : UUID}
    (hstore : ∀ path, P (.storePermImage path receiptId))
    (hupdate : ∀ parts, P (.updateAdditionalImages imageId parts)) (moved parts : List ImagePart) :
    (moveAdditionalImages imageId receiptId moved parts).Calls P := by
  induction parts generalizing moved with
  | nil => trivial
  | cons part parts ih =>
    exact Program.calls_bind (Program.calls_perform (hstore _)) fun _ =>
      Program.calls_bind (Program.calls_perform (hupdate _)) fun _ => ih _

theorem apart_moveAdditionalImages (imageId receiptId : UUID) (moved parts : List ImagePart) :
    Apart (moveAdditionalImages imageId receiptId moved parts) :=
  calls_moveAdditionalImages (fun _ => id) (fun _ => id) moved parts

theorem apart_moveAll (imageId receiptId : UUID) (path : FilePath) (parts : List ImagePart) :
    Apart (do
      movePrimary imageId path receiptId
      if parts ≠ [] then moveAdditionalImages imageId receiptId [] parts) := by
  refine Program.calls_bind (apart_movePrimary imageId path receiptId) fun _ => ?_
  split
  · exact apart_moveAdditionalImages imageId receiptId [] parts
  · trivial

theorem apart_discoverModels (new : NewImage) : Apart (discoverModels new) := by
  unfold discoverModels
  split
  · refine Program.calls_bind (apart_attempt (Program.calls_bind (apart_perform id) ?_)) ?_
    · intro connected
      cases connected with
      | false => trivial
      | true => exact apart_perform id
    · intro models
      cases models <;> trivial
  · trivial

theorem apart_deleteFiles (paths : List FilePath) : Apart (deleteFiles paths) := by
  induction paths with
  | nil => trivial
  | cons path paths ih =>
    unfold deleteFiles
    split
    · exact Program.calls_bind (apart_perform id) fun _ => ih
    · exact ih

theorem apart_assignAll (receiptId : UUID) (collectionIds : List UUID) :
    Apart (assignAll receiptId collectionIds) := by
  induction collectionIds with
  | nil => trivial
  | cons collectionId collectionIds ih => exact Program.calls_bind (apart_perform id) fun _ => ih

theorem apart_checkCollections (caller : Caller) (collectionIds : List UUID) :
    Apart (checkCollections caller collectionIds) := by
  induction collectionIds with
  | nil => trivial
  | cons collectionId collectionIds ih =>
    refine Program.calls_bind (apart_perform id) fun found => ?_
    cases found with
    | false => trivial
    | true => exact ih

theorem apart_setReceiptCollections (caller : Caller) (receiptId : UUID)
    (collectionIds : List UUID) : Apart (setReceiptCollections caller receiptId collectionIds) := by
  refine Program.calls_bind (apart_perform id) fun receipt => ?_
  cases receipt with
  | none => trivial
  | some receipt =>
    exact Program.calls_bind (apart_checkCollections caller collectionIds) fun _ =>
      Program.calls_bind (apart_perform id) fun _ => apart_assignAll receiptId collectionIds

theorem apart_asUnprocessable {α : Type} (e : Exn) : Apart (asUnprocessable e : Handler α) := by
  cases e with
  | db e =>
    show Apart (if e.IsValueError then _ else _)
    split <;> trivial
  | _ => trivial

theorem apart_asNotFound {α : Type} (e : Exn) : Apart (asNotFound e : Handler α) := by
  cases e <;> trivial

theorem apart_updateReceipt (caller : Caller) (receiptId : UUID) (receipt : ReceiptUpdate) :
    Apart (updateReceipt caller receiptId receipt) := by
  refine Program.calls_bind (Program.calls_handle (apart_perform id) apart_asUnprocessable) ?_
  intro row
  cases row with
  | none => trivial
  | some row =>
    dsimp only
    split
    · exact Program.calls_bind (Program.calls_handle
        (apart_setReceiptCollections caller receiptId _) apart_asNotFound) fun _ => trivial
    · trivial

theorem apart_moveImage (caller : Caller) (imageId receiptId : UUID) :
    Apart (moveImage caller imageId receiptId) := by
  refine Program.calls_bind (apart_perform id) fun image => ?_
  cases image with
  | none => trivial
  | some image =>
    dsimp only
    split
    · trivial
    · refine Program.calls_bind (apart_movePrimary imageId _ receiptId) fun _ => ?_
      split
      · exact apart_moveAdditionalImages image.id receiptId [] image.additionalImages
      · trivial

theorem apart_verifyReceipt (caller : Caller) (receiptId : UUID) :
    Apart (verifyReceipt caller receiptId) := by
  refine Program.calls_bind (apart_perform id) fun row => ?_
  cases row with
  | none => trivial
  | some row =>
    have hverify : Apart (do
        let verified : Option ReceiptRecord ← perform (.verifyReceipt caller receiptId)
        match verified with
        | none => throw (.http 404 "Receipt not found")
        | some row => return row) :=
      Program.calls_bind (apart_perform id) fun verified => by cases verified <;> trivial
    dsimp only
    split
    · trivial
    · split
      · exact Program.calls_bind (apart_moveImage caller _ receiptId) fun _ => hverify
      · exact hverify

theorem apart_deleteReceipt (caller : Caller) (receiptId : UUID) :
    Apart (deleteReceipt caller receiptId) := by
  refine Program.calls_bind (Program.calls_handle (apart_perform id) ?_) fun row => ?_
  · intro e
    unfold asReferenced
    split <;> trivial
  · cases row with
    | none => trivial
    | some row =>
      dsimp only
      split
      · trivial
      · refine Program.calls_bind (apart_perform id) fun image => ?_
        cases image with
        | none => trivial
        | some image =>
          exact Program.calls_bind (apart_perform id) fun _ => apart_deleteFiles _

theorem apart_deleteImage (caller : Caller) (imageId : UUID) :
    Apart (deleteImage caller imageId) := by
  refine Program.calls_bind (apart_perform id) fun image => ?_
  cases image with
  | none => trivial
  | some image =>
    dsimp only
    split
    · exact Program.calls_bind (apart_perform id) fun _ => apart_deleteFiles _
    · trivial

end Handler

end Handlers

/-! ## A photo, and what may happen to it -/

/-- A receipt without contents. -/
def emptyReceipt [CaseFolding] : Receipt := { emptyFields with lineItems := [] }

/-- A photo of a user. -/
def photo : NewImage where
  imagePath := "/data/tmp/a.png"
  originalFilename := some "a.png"
  mediaType := some "image/png"
  sizeBytes := some 1
  userId := some 1
  bypassReview := false
  thumbnailPath := none
  additionalImages := []
  modelId := none

/-- A configuration. -/
def plainSettings : Settings := ⟨"llava", "/data/save"⟩

/-- A store with one file. -/
def photoFiles : Files := fun path => if path = "/data/tmp/a.png" then some [1] else none

/-- All goes well at a time, with these identifiers. -/
def smoothly [CaseFolding] (now : Timestamp) (fresh : List UUID) : Choice where
  now := now
  fresh := fresh
  hex := "a1"
  connected := true
  models := ["llava"]
  analysis := .ok emptyReceipt
  benchmarked := false
  failure := none

end VisionBill
