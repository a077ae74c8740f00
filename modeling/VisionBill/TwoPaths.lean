import VisionBill.Handlers
import VisionBill.ReceiptEffects

/-!
# The upload request and the worker

What happens to a claimed photo is written twice: `uploadClaimed` in the
request that has stored the photo, and `analyzeOne` in the worker. The two
agree as long as what has come of the analysis can be written down. If
storing the receipt or linking it raises, the worker marks the image as
failed, and the request leaves it in `processing`. They also choose the
same model, except for an empty request that is the name of a model.

Both are run alone, and with the same choices where they do the same.

## How two programs are compared

The request and the worker do not call the same operations. The worker
reads the image's file and row first, and answers with a result instead of
a response. So both are brought to a form in which what follows the
analysis is one program (`completing`): store the receipt, link it, move
the photo if it needs no review. The request runs this and lets it raise;
the worker runs it and has a handler around it. They agree where it does
not raise, and where it does, the handler is the difference.

The times differ, since the worker comes later, and so do the identifiers
that have been issued. An operation looks at neither of these
(`World.SameData`), so runs with the same choices from the same tables and
files do the same.

## What agreement means

The image has the same status in the end, which is not `processing`, the
same receipt and the same paths. The receipts are then the same too,
because they come out of the same operation with the same choice. The two
examples differ in one choice, the one of the operation that stores the
receipt.
-/

namespace VisionBill

section TwoPaths

variable [CaseFolding]

/-! ## The photo -/

/-- A single photo as an upload has stored and claimed it: its row, its
file, and that no receipt knows of it. From here the request goes on, or
the worker would if it had claimed the image instead; the row does not
tell the two apart. -/
structure ClaimedPhoto (w : World) (new : NewImage) (image : ImageRecord) : Prop where
  row : w.db.images.get? image.id = some image
  processing : image.status = .processing
  path : image.imagePath = some new.imagePath
  path_ne : new.imagePath ≠ ""
  file : w.files.exists? new.imagePath = true
  single : image.additionalImages = []
  modelId : image.modelId = new.modelId
  bypassReview : image.bypassReview = new.bypassReview
  userId : image.userId = new.userId
  unlinked : image.receiptId = none
  unread : w.db.receiptOfImage? image.id = none

omit [CaseFolding] in
/-- So it is when it has been stored under an id that no receipt knows. -/
theorem claimedPhoto_of_stored {w : World} {db db₁ : Db} {now now' : Timestamp} {newId : UUID}
    {new : NewImage} {stored image : ImageRecord}
    (hstore : db.storeImage now newId new = .ok (db₁, stored))
    (hclaim : db₁.claimForAnalysis now' stored.id = some (w.db, image))
    (hsingle : new.additionalImages = []) (hpath : new.imagePath ≠ "")
    (hfile : w.files.exists? new.imagePath = true)
    (hfresh : ∀ r ∈ db.receipts.rows, r.imageId ≠ some newId) : ClaimedPhoto w new image := by
  obtain ⟨old, hold, -, himage, hwrites⟩ := Db.claimForAnalysis_spec hclaim
  obtain ⟨hid, -, -, hget, hframe, -⟩ := Db.storeImage_spec hstore
  obtain ⟨originalFilename, -, h₁⟩ := bind_eq_ok.mp hstore
  obtain ⟨mediaType, -, h₂⟩ := bind_eq_ok.mp h₁
  obtain ⟨imagePath, himagePath, h₃⟩ := bind_eq_ok.mp h₂
  obtain ⟨thumbnailPath, -, h₄⟩ := bind_eq_ok.mp h₃
  obtain ⟨additionalImages, hadditional, h₅⟩ := bind_eq_ok.mp h₄
  obtain ⟨modelId, hmodelId, h₆⟩ := bind_eq_ok.mp h₅
  dsimp only at h₆
  rw [hsingle] at hadditional
  obtain rfl := Except.ok.inj hadditional
  obtain rfl := eq_of_text himagePath
  obtain rfl := eq_of_nullable_text hmodelId
  have hstored : old = stored := by
    rw [hget, if_pos hid] at hold
    exact (Option.some.inj hold).symm
  split at h₆
  · obtain ⟨-, hrow⟩ := Prod.mk.inj (Except.ok.inj h₆)
    subst hstored
    subst himage
    refine ⟨?_, rfl, ?_, hpath, hfile, ?_, ?_, ?_, ?_, ?_, ?_⟩
    · show w.db.images.get? old.id = _
      rw [hwrites.get, if_pos rfl, hold]
      rfl
    all_goals try (rw [← hrow]; rfl)
    show w.db.receiptOfImage? old.id = none
    -- the id is new, so no receipt is that of the image
    have hreceipts : w.db.receipts = db.receipts := by rw [hwrites.frame, hframe]
    unfold Db.receiptOfImage? orderBy
    rw [hreceipts, hid, List.filter_eq_nil_iff.mpr fun r hr => by simpa using hfresh r hr]
    rfl
  · exact absurd h₆ (by simp [throw, throwThe, MonadExceptOf.throw])

/-! ## The model -/

/-- The model that the worker chooses for an image: the one that was asked
for, if it is available, and else the configured one or the first. -/
def workerModel (settings : Settings) (image : ImageRecord) (first : String)
    (models : List String) : String :=
  Handler.chosenModel image (first :: models) (Handler.selectModel settings first models)

omit [CaseFolding] in
/-- The models are the same, unless the request is an empty text and that
is the name of a model. One of the two tests whether a text was given, the
other whether it is empty. -/
theorem uploadModel_eq_iff {settings : Settings} {new : NewImage} {image : ImageRecord}
    {first : String} {models : List String} (himage : image.modelId = new.modelId) :
    Handler.uploadModel settings new.modelId first models
        = workerModel settings image first models
      ↔ (new.modelId = some "" → "" ∈ first :: models →
        Handler.selectModel settings first models = "") := by
  unfold workerModel Handler.uploadModel Handler.chosenModel
  rw [himage]
  cases new.modelId with
  | none =>
    refine ⟨fun _ h => absurd h (by simp), fun _ => ?_⟩
    rfl
  | some requested =>
    by_cases hmem : requested ∈ first :: models
    · by_cases hempty : requested = ""
      · subst hempty
        rw [Option.filter_some_neg (by simp)]
        dsimp only
        rw [if_pos hmem]
        exact ⟨fun h _ _ => h, fun h => h rfl hmem⟩
      · rw [Option.filter_some_pos (by simp [hmem, hempty])]
        dsimp only
        rw [if_pos hmem]
        exact ⟨fun _ h => absurd (Option.some.inj h) hempty, fun _ => rfl⟩
    · rw [Option.filter_some_neg (by simp [hmem])]
      dsimp only
      rw [if_neg hmem]
      refine ⟨fun _ h hmem' => ?_, fun _ => rfl⟩
      exact absurd (Option.some.inj h ▸ hmem') hmem

/-! ## What both write -/

/-- The receipt of an image is stored and linked. -/
def storing (image : ImageRecord) (receipt : Receipt) : Handler ReceiptRecord := do
  let row ← Handler.persistReceipt receipt (some image.id)
    (if image.bypassReview then .verified else .unverified) image.bypassReview image.userId
  Handler.perform (.markAnalyzed image.id row.id)
  return row

/-- What has come of an analysis is written down. It is the part that the
request and the worker have in common. -/
def recording (image : ImageRecord) : Except Exn Receipt → Handler Unit
  | .ok receipt => do let _ ← storing image receipt
  | .error (.analysisTimeout message) =>
    Handler.perform (.markTerminal image.id .timedOut message)
  | .error (.unreadableReceipt message) =>
    Handler.perform (.markTerminal image.id .unreadable message)
  | .error e => Handler.perform (.markFailed image.id e.str)

/-- What comes of the analysis: an answer of the provider, or the
exception by which it ends. -/
def Choice.outcome (c : Choice) : Except Exn Receipt :=
  match c.failure with
  | some e => .error e
  | none => c.analysis

/-- What has come of the analysis can be written down: storing and linking
the receipt succeed, or marking the image does if there is none. It is a
condition on the choices and the state before, and speaks of neither
path. -/
def Recorded (settings : Settings) (w : World) (image : ImageRecord) (cs : List Choice) : Prop :=
  ∃ c cs₁ cs₂ w', cs = c :: (cs₁ ++ cs₂)
    ∧ (recording image c.outcome).run (World.exec settings) cs₁ (w.started c) = some (w', .ok ())

/-! ## Runs that are alike

The two paths read the clock a different number of times before they meet.
Operations do not depend on that, so their runs can be compared from there
on. -/

variable {settings : Settings} {w w' v v' : World} {cs cs' : List Choice}

/-- Worlds with the same database and the same files. -/
def World.SameData (w v : World) : Prop := w.db = v.db ∧ w.files = v.files

/-- An operation does not look at the clock or at the identifiers issued.
So the two paths may be compared although one of them has read more often
before. -/
theorem World.SameData.perform (h : w.SameData v) (c : Choice) (op : Op) :
    (w.perform settings c op).1.SameData (v.perform settings c op).1
      ∧ (w.perform settings c op).2 = (v.perform settings c op).2 := by
  obtain ⟨db, files, clock, issued⟩ := w
  obtain ⟨db', files', clock', issued'⟩ := v
  obtain ⟨rfl, rfl⟩ : db = db' ∧ files = files' := h
  have hwrite : ∀ result : Except DbError Db,
      (World.write ⟨db, files, clock, issued⟩ result).1.SameData
          (World.write ⟨db, files, clock', issued'⟩ result).1
        ∧ (World.write ⟨db, files, clock, issued⟩ result).2
          = (World.write ⟨db, files, clock', issued'⟩ result).2 := by
    intro result
    cases result <;> exact ⟨⟨rfl, rfl⟩, rfl⟩
  have hwriteRow : ∀ {α : Type} (result : Except DbError (Db × α)),
      (World.writeRow ⟨db, files, clock, issued⟩ result).1.SameData
          (World.writeRow ⟨db, files, clock', issued'⟩ result).1
        ∧ (World.writeRow ⟨db, files, clock, issued⟩ result).2
          = (World.writeRow ⟨db, files, clock', issued'⟩ result).2 := by
    intro α result
    cases result <;> exact ⟨⟨rfl, rfl⟩, rfl⟩
  have hwriteRow? : ∀ {α : Type} (result : Except DbError (Option (Db × α))),
      (World.writeRow? ⟨db, files, clock, issued⟩ result).1.SameData
          (World.writeRow? ⟨db, files, clock', issued'⟩ result).1
        ∧ (World.writeRow? ⟨db, files, clock, issued⟩ result).2
          = (World.writeRow? ⟨db, files, clock', issued'⟩ result).2 := by
    intro α result
    rcases result with e | _ | out <;> exact ⟨⟨rfl, rfl⟩, rfl⟩
  have hstore : ∀ (path : FilePath) (receiptId : UUID),
      (World.storePermImage settings ⟨db, files, clock, issued⟩ c path receiptId).1.SameData
          (World.storePermImage settings ⟨db, files, clock', issued'⟩ c path receiptId).1
        ∧ (World.storePermImage settings ⟨db, files, clock, issued⟩ c path receiptId).2
          = (World.storePermImage settings ⟨db, files, clock', issued'⟩ c path receiptId).2 := by
    intro path receiptId
    unfold World.storePermImage
    dsimp only
    cases c.thumbnailFailure <;> cases files.exists? path <;> exact ⟨⟨rfl, rfl⟩, rfl⟩
  have hdelete : ∀ path : FilePath,
      (World.deleteFile ⟨db, files, clock, issued⟩ c path).1.SameData
          (World.deleteFile ⟨db, files, clock', issued'⟩ c path).1
        ∧ (World.deleteFile ⟨db, files, clock, issued⟩ c path).2
          = (World.deleteFile ⟨db, files, clock', issued'⟩ c path).2 := by
    intro path
    unfold World.deleteFile
    dsimp only
    cases c.thumbnailFailure <;> cases files.exists? path <;> exact ⟨⟨rfl, rfl⟩, rfl⟩
  -- what an operation does is one of these, or nothing
  cases op
  case storePermImage path receiptId => exact hstore path receiptId
  case deleteFile path => exact hdelete path
  all_goals first
    | exact ⟨⟨rfl, rfl⟩, rfl⟩
    | exact hwrite _
    | exact hwriteRow _
    | exact hwriteRow? _

theorem World.SameData.exec {op : Op} {c : Choice} {r r' : Except Exn op.Ret}
    (h : w.SameData v) (hw : w.exec settings op c = some (w', r))
    (hv : v.exec settings op c = some (v', r')) : w'.SameData v' ∧ r = r' := by
  rcases World.exec_cases hw with ⟨e, hfailure, rfl, rfl⟩ | ⟨hfailure, hperform⟩
  · rcases World.exec_cases hv with ⟨e', hfailure', rfl, rfl⟩ | ⟨hnone, -⟩
    · obtain rfl := Option.some.inj (hfailure.symm.trans hfailure')
      exact ⟨h, rfl⟩
    · rw [hfailure] at hnone
      exact absurd hnone (by simp)
  · rcases World.exec_cases hv with ⟨e', hfailure', -, -⟩ | ⟨-, hperform'⟩
    · rw [hfailure] at hfailure'
      exact absurd hfailure' (by simp)
    · have hstarted : (w.started c).SameData (v.started c) := h
      have hsame : ((w.started c).perform settings c op).1.SameData
            ((v.started c).perform settings c op).1
          ∧ ((w.started c).perform settings c op).2 = ((v.started c).perform settings c op).2 :=
        hstarted.perform c op
      rw [hperform, hperform'] at hsame
      exact hsame

/-- A program does the same in both. -/
theorem World.SameData.run {α : Type} {p : Handler α} {rest rest' : List Choice}
    {r r' : Except Exn α} (h : w.SameData v)
    (hw : p.run (World.exec settings) cs w = some (w', r))
    (hv : p.run (World.exec settings) cs' v = some (v', r')) (hcs : cs ++ rest = cs' ++ rest') :
    cs = cs' ∧ w'.SameData v' ∧ r = r' :=
  Program.run_sim (fun _ _ _ _ _ _ _ _ h hw hv => h.exec hw hv) h hw hv hcs

/-! ## What the request does -/

/-- A photo that needs no review is moved, if that succeeds. -/
def moving (image : ImageRecord) (path : FilePath) (receiptId : UUID) : Handler Unit := do
  if image.bypassReview then
    let _ ← Handler.attempt (Handler.movePrimary image.id path receiptId)

/-- What follows the analysis on both paths, as long as nothing raises. It
is not a function of the source, but the part that the source has
twice. -/
def completing (image : ImageRecord) (path : FilePath) : Except Exn Receipt → Handler Unit
  | .ok receipt => do
    let row ← storing image receipt
    moving image path row.id
  | .error e => recording image (.error e)

/-- A handler that is attempted does not raise. What it would have raised
is returned, for the caller to look at. -/
theorem run_attempt {α : Type} {p : Handler α} {r : Except Exn (Except Exn α)}
    (h : (Handler.attempt p).run (World.exec settings) cs w = some (w', r)) :
    ∃ r₀, p.run (World.exec settings) cs w = some (w', r₀) ∧ r = .ok r₀ := by
  rcases Program.run_handle h with ⟨a, hbody, rfl⟩ | ⟨cs₁, cs₂, w₁, e, rfl, hbody, hhandler⟩
  · rcases Program.run_bind hbody with ⟨cs₁, cs₂, w₁, b, rfl, hp, hreturn⟩ | ⟨e, -, he⟩
    · obtain ⟨rfl, rfl, heq⟩ := Program.run_pure hreturn
      rw [List.append_nil]
      exact ⟨.ok b, hp, heq⟩
    · exact absurd he (by simp)
  · obtain ⟨rfl, rfl, rfl⟩ := Program.run_pure hhandler
    rw [List.append_nil]
    rcases Program.run_bind hbody with ⟨cs₃, cs₄, w₂, b, rfl, -, hreturn⟩ | ⟨e', hp, heq⟩
    · obtain ⟨-, -, heq⟩ := Program.run_pure hreturn
      exact absurd heq (by simp)
    · obtain rfl := Except.error.inj heq
      exact ⟨.error e, hp, rfl⟩

/-- The analysis changes nothing, and its outcome is that of its choice.
What the model answers is not up to the program. -/
theorem run_analyse {modelId : String} {paths : List FilePath} {r : Except Exn (Except Exn Receipt)}
    (h : (Handler.attempt (Handler.perform (.analyse modelId paths))).run (World.exec settings) cs w
      = some (w', r)) :
    ∃ c, cs = [c] ∧ w' = w.started c ∧ r = .ok c.outcome := by
  obtain ⟨r₀, hperform, rfl⟩ := run_attempt h
  obtain ⟨c, rfl, hexec⟩ := Program.run_perform hperform
  refine ⟨c, rfl, ?_⟩
  unfold Choice.outcome
  rcases World.exec_cases hexec with ⟨e, hfailure, rfl, rfl⟩ | ⟨hfailure, hresult⟩
  · rw [hfailure]
    exact ⟨rfl, rfl⟩
  · obtain ⟨rfl, rfl⟩ := Prod.mk.inj hresult
    rw [hfailure]
    exact ⟨rfl, rfl⟩

variable {new : NewImage} {image : ImageRecord} {first : String} {models : List String}

/-- What follows the receipt that is stored and linked. -/
theorem storing_bind {α : Type} (image : ImageRecord) (receipt : Receipt)
    (f : ReceiptRecord → Handler α) :
    (storing image receipt >>= f) = (do
      let row ← Handler.persistReceipt receipt (some image.id)
        (if image.bypassReview then .verified else .unverified) image.bypassReview image.userId
      Handler.perform (.markAnalyzed image.id row.id)
      f row) :=
  (Program.bind_assoc _ _ _).trans (congrArg (Program.bind _) (funext fun row =>
    Program.bind_assoc (Handler.perform (.markAnalyzed image.id row.id)) (fun _ => pure row) f))

/-- What follows a photo that is moved if it needs no review. -/
theorem moving_bind {α : Type} (image : ImageRecord) (path : FilePath) (receiptId : UUID)
    (p : Handler α) :
    (moving image path receiptId >>= fun _ => p) = (if image.bypassReview then do
      let _ ← Handler.attempt (Handler.movePrimary image.id path receiptId)
      p
    else p) := by
  unfold moving
  split
  · exact Program.bind_assoc _ _ _
  · rfl

/-- The request completes the analysis. What that raises is what the
request raises, where the worker catches it and marks the image. -/
theorem run_uploadClaimed {r : Except Exn Handler.UploadResponse}
    (hbypass : image.bypassReview = new.bypassReview) (huser : image.userId = new.userId)
    (h : (Handler.uploadClaimed settings new first models image).run (World.exec settings) cs w
      = some (w', r)) :
    ∃ c rest r₀, cs = c :: rest
      ∧ (completing image new.imagePath c.outcome).run (World.exec settings) rest (w.started c)
        = some (w', r₀) := by
  rcases Program.run_bind h with ⟨cs₁, rest, w₁, a, rfl, hanalyse, hrest⟩ | ⟨e, hanalyse, -⟩
  · obtain ⟨c, rfl, rfl, heq⟩ := run_analyse hanalyse
    obtain rfl := Except.ok.inj heq
    refine ⟨c, rest, ?_⟩
    -- both paths store, move and mark alike; what follows differs
    cases hout : c.outcome with
    | ok receipt =>
      rw [hout] at hrest
      dsimp only at hrest
      rw [← hbypass, ← huser] at hrest
      simp only [← moving_bind] at hrest
      rw [← storing_bind] at hrest
      rcases Program.run_bind hrest with ⟨cs₁, cs₂, w₁, row, rfl, hstore, hmove⟩ | ⟨e, hstore, -⟩
      · obtain ⟨r₀, hmove⟩ := Program.run_bind_end (fun _ _ _ _ _ => Program.pure_ends) hmove
        exact ⟨r₀, rfl, Program.run_bind_ok hstore hmove⟩
      · exact ⟨.error e, rfl, Program.run_bind_error _ hstore⟩
    | error e =>
      rw [hout] at hrest
      cases e with
      | analysisTimeout message =>
        obtain ⟨r₀, hmark⟩ := Program.run_bind_end (fun _ _ _ _ _ => Program.pure_ends) hrest
        exact ⟨r₀, rfl, hmark⟩
      | unreadableReceipt message =>
        obtain ⟨r₀, hmark⟩ := Program.run_bind_end (fun _ _ _ _ _ => Program.pure_ends) hrest
        exact ⟨r₀, rfl, hmark⟩
      | _ =>
        obtain ⟨r₀, hmark⟩ := Program.run_bind_end (fun _ _ _ _ _ => Program.throw_ends) hrest
        exact ⟨r₀, rfl, hmark⟩
  · obtain ⟨c, -, -, heq⟩ := run_analyse hanalyse
    exact absurd heq (by simp)

/-! ## What the worker does -/

/-- The worker completes the analysis as well, and marks the image as
failed if the receipt cannot be stored or linked. -/
theorem run_storeAnalysis {path : FilePath} {receipt : Receipt}
    {r : Except Exn Handler.PendingImageResult} (hsingle : image.additionalImages = [])
    (h : (Handler.storeAnalysis image path receipt).run (World.exec settings) cs w
      = some (w', r)) :
    ∃ cs₁ cs₂ v r₀, cs = cs₁ ++ cs₂
      ∧ (completing image path (.ok receipt)).run (World.exec settings) cs₁ w = some (v, r₀)
      ∧ (r₀ = .ok () → cs₂ = [] ∧ w' = v) := by
  rcases Program.run_bind h with ⟨cs₁, cs₂, w₁, a, rfl, hstore, hrest⟩ | ⟨e, hstore, -⟩
  · obtain ⟨r₁, hstore, heq⟩ := run_attempt hstore
    obtain rfl := Except.ok.inj heq
    change (storing image receipt).run _ _ _ = _ at hstore
    cases a with
    | error e =>
      exact ⟨cs₁, cs₂, w₁, .error e, rfl, Program.run_bind_error _ hstore, fun h => nomatch h⟩
    | ok row =>
      dsimp only at hrest
      rw [hsingle] at hrest
      simp only [ne_eq, not_true_eq_false, if_false] at hrest
      rw [show (do
          Handler.movePrimary image.id path row.id
          pure () : Handler Unit) = Handler.movePrimary image.id path row.id from
        Program.bind_pure _, ← moving_bind] at hrest
      obtain ⟨r₀, hmove⟩ := Program.run_bind_end (fun _ _ _ _ _ => Program.pure_ends) hrest
      refine ⟨cs₁ ++ cs₂, [], w', r₀, (List.append_nil _).symm, ?_, fun _ => ⟨rfl, rfl⟩⟩
      exact Program.run_bind_ok hstore hmove
  · obtain ⟨r₁, -, heq⟩ := run_attempt hstore
    exact absurd heq (by simp)

theorem run_analyzeFile {path : FilePath} {modelId : String}
    {r : Except Exn Handler.PendingImageResult} (hsingle : image.additionalImages = [])
    (h : (Handler.analyzeFile image path modelId).run (World.exec settings) cs w = some (w', r)) :
    ∃ c cs₁ cs₂ v r₀, cs = c :: (cs₁ ++ cs₂)
      ∧ (completing image path c.outcome).run (World.exec settings) cs₁ (w.started c) = some (v, r₀)
      ∧ (r₀ = .ok () → cs₂ = [] ∧ w' = v) := by
  rcases Program.run_bind h with ⟨cs₁, rest, w₁, a, rfl, hanalyse, hrest⟩ | ⟨e, hanalyse, -⟩
  · obtain ⟨c, rfl, rfl, heq⟩ := run_analyse hanalyse
    obtain rfl := Except.ok.inj heq
    cases hout : c.outcome with
    | ok receipt =>
      rw [hout] at hrest
      obtain ⟨cs₁, cs₂, v, r₀, rfl, hcomplete, hend⟩ := run_storeAnalysis hsingle hrest
      refine ⟨c, cs₁, cs₂, v, r₀, rfl, ?_, hend⟩
      rw [hout]
      exact hcomplete
    | error e =>
      rw [hout] at hrest
      have hmark : ∃ r₀, (recording image (.error e)).run (World.exec settings) rest (w.started c)
          = some (w', r₀) := by
        cases e with
        | _ => exact Program.run_bind_end (fun _ _ _ _ _ => Program.pure_ends) hrest
      obtain ⟨r₀, hmark⟩ := hmark
      refine ⟨c, rest, [], w', r₀, by rw [List.append_nil]; rfl, ?_, fun _ => ⟨rfl, rfl⟩⟩
      rw [hout]
      exact hmark
  · obtain ⟨c, -, -, heq⟩ := run_analyse hanalyse
    exact absurd heq (by simp)

/-- The worker reads the file and the row, completes the analysis, and
marks the image if that raises. -/
theorem run_analyzeOne {c₁ c₂ : Choice} {modelId : String}
    {r : Except Exn Handler.PendingImageResult} (hphoto : ClaimedPhoto w new image)
    (h₁ : c₁.failure = none) (h₂ : c₂.failure = none)
    (h : (Handler.analyzeOne image modelId).run (World.exec settings) (c₁ :: c₂ :: cs) w
      = some (w', r)) :
    ∃ c cs₁ cs₂ v v' r₀, cs = c :: (cs₁ ++ cs₂) ∧ (w.started c).SameData v
      ∧ (completing image new.imagePath c.outcome).run (World.exec settings) cs₁ v = some (v', r₀)
      ∧ (r₀ = .ok () → cs₂ = [] ∧ w' = v') := by
  have hgiven : Handler.givenPath image.imagePath = some new.imagePath := by
    unfold Handler.givenPath
    rw [hphoto.path]
    exact Option.filter_some_pos (by simpa using hphoto.path_ne)
  unfold Handler.analyzeOne at h
  rw [hphoto.unlinked] at h
  -- there is no receipt of the image, and its file is there
  have hread : ∀ c, (w.started c).perform settings c (.getReceiptByImageId image.id)
      = ({ w.started c with db := w.db }, .ok (w.db.receiptOfImage? image.id)) := fun _ => rfl
  obtain ⟨_, _, heq, ⟨hfailure, -⟩ | ⟨-, hrest⟩⟩ := World.run_returns hread h
  · obtain ⟨rfl, rfl⟩ := List.cons.inj heq
    exact absurd h₁ hfailure
  obtain ⟨rfl, rfl⟩ := List.cons.inj heq
  rw [hphoto.unread] at hrest
  dsimp only at hrest
  rw [hgiven] at hrest
  have hfile : ∀ c, ((w.started c₁).started c).perform settings c (.fileExists new.imagePath)
      = ({ (w.started c₁).started c with db := w.db }, .ok (w.files.exists? new.imagePath)) :=
    fun _ => rfl
  obtain ⟨_, _, heq, ⟨hfailure, -⟩ | ⟨-, hrest⟩⟩ := World.run_returns hfile hrest
  · obtain ⟨rfl, rfl⟩ := List.cons.inj heq
    exact absurd h₂ hfailure
  obtain ⟨rfl, rfl⟩ := List.cons.inj heq
  rw [if_pos hphoto.file] at hrest
  obtain ⟨c, cs₁, cs₂, v, r₀, hcs, hcomplete, hend⟩ := run_analyzeFile hphoto.single hrest
  exact ⟨c, cs₁, cs₂, ((w.started c₁).started c₂).started c, v, r₀, hcs, ⟨rfl, rfl⟩, hcomplete,
    hend⟩

/-! ## What becomes of the image

Storing a receipt and moving photos leave the status of the image alone;
marking it sets it. So the status in the end is that of the last mark. -/

/-- The operations between the analysis and the mark, which leave images
alone. -/
def Op.LeavesImages : Op → Prop
  | .persistReceipt _ _ _ _ _ | .activeCollection _ | .assign _ _ => True
  | _ => False

theorem exec_leavesImages {op : Op} {c : Choice} {r : Except Exn op.Ret} (hop : op.LeavesImages)
    (h : w.exec settings op c = some (w', r)) : w'.db.images = w.db.images := by
  rcases World.exec_cases h with ⟨e, -, rfl, -⟩ | ⟨-, hperform⟩
  · rfl
  · cases op with
    | persistReceipt receipt imageId status verified userId =>
      rcases World.writeRow_eq hperform with ⟨row, hrow, -, -⟩ | ⟨rfl, -⟩
      · exact Db.images_persistReceipt hrow
      · rfl
    | activeCollection caller =>
      obtain ⟨rfl, -⟩ := Prod.mk.inj hperform
      rfl
    | assign collectionId receiptId =>
      rcases World.write_eq hperform with ⟨hassign, -, -⟩ | ⟨rfl, -⟩
      · rw [Db.assign_frame hassign]
        rfl
      · rfl
    | _ => exact hop.elim

theorem leavesImages_persistReceipt (receipt : Receipt) (imageId : Option UUID)
    (status : ReceiptStatus) (verified : Bool) (userId : Option UUID) :
    (Handler.persistReceipt receipt imageId status verified userId).Calls Op.LeavesImages := by
  refine Program.calls_bind (Program.calls_perform trivial) fun row => ?_
  refine Program.calls_bind ?_ fun _ => trivial
  cases userId with
  | none => trivial
  | some userId =>
    refine Program.calls_bind (Program.calls_handle (Program.calls_bind ?_ fun _ => trivial)
      fun _ => trivial) fun _ => trivial
    refine Program.calls_bind (Program.calls_perform trivial) fun active => ?_
    cases active with
    | none => trivial
    | some collection => exact Program.calls_perform trivial

theorem run_storing {receipt : Receipt} {r : Except Exn ReceiptRecord}
    (hrow : w.db.images.get? image.id = some image)
    (h : (storing image receipt).run (World.exec settings) cs w = some (w', r)) :
    ((∃ e, r = .error e) ∧ w'.db.images.get? image.id = some image)
      ∨ ∃ row now, r = .ok row
        ∧ w'.db.images.get? image.id = some (Db.analyzed now row.id image) := by
  have hkeeps : ∀ {cs : List Choice} {w' : World} {r : Except Exn ReceiptRecord},
      (Handler.persistReceipt receipt (some image.id)
        (if image.bypassReview then .verified else .unverified) image.bypassReview
        image.userId).run (World.exec settings) cs w = some (w', r)
      → w'.db.images.get? image.id = some image := fun h =>
    Program.run_keeps (I := fun w => w.db.images.get? image.id = some image)
      (fun op hop s c s' r hs hexec => by rw [exec_leavesImages hop hexec]; exact hs)
      (leavesImages_persistReceipt _ _ _ _ _) hrow h
  rcases Program.run_bind h with ⟨cs₁, cs₂, w₁, row, rfl, hpersist, hrest⟩ | ⟨e, hpersist, rfl⟩
  · have hrow₁ := hkeeps hpersist
    obtain ⟨c, cs', w₂, r₁, rfl, hexec, hrest⟩ := Program.run_call hrest
    rcases World.exec_write (World.exec_cases hexec) with ⟨rfl, hmark⟩ | ⟨⟨e, rfl⟩, hdb⟩
    · obtain ⟨rfl, rfl, rfl⟩ := Program.run_pure hrest
      refine .inr ⟨row, c.now, rfl, ?_⟩
      rw [(Db.markAnalyzed_spec hmark).2.get, if_pos rfl]
      show (w₁.db.images.get? image.id).map _ = _
      rw [hrow₁]
      rfl
    · obtain ⟨rfl, rfl, rfl⟩ := Program.run_throw hrest
      exact .inl ⟨⟨e, rfl⟩, by rw [hdb]; exact hrow₁⟩
  · exact .inl ⟨⟨e, rfl⟩, hkeeps hpersist⟩

/-- The operations that move a photo, which leave the status of an
image. -/
def Op.Moves : Op → Prop
  | .storePermImage _ _ | .updateImagePath _ _ | .updateImageThumbnailPath _ _ => True
  | _ => False

theorem exec_moves {op : Op} {c : Choice} {r : Except Exn op.Ret} (hop : op.Moves)
    (h : w.exec settings op c = some (w', r)) (imageId : UUID) :
    (w'.db.images.get? imageId).map ImageRecord.status
      = (w.db.images.get? imageId).map ImageRecord.status := by
  have hwrites : ∀ {id : UUID} {f : ImageRecord → ImageRecord} {db : Db},
      WritesImage w.db id f db → (∀ i, (f i).status = i.status) →
      (db.images.get? imageId).map ImageRecord.status
        = (w.db.images.get? imageId).map ImageRecord.status := by
    intro id f db hwrites hf
    rw [hwrites.get]
    split
    · next heq =>
      rw [Option.map_map, heq]
      exact Option.map_congr fun i _ => hf i
    · rfl
  cases op with
  | storePermImage path receiptId =>
    rcases World.exec_cases h with ⟨e, -, rfl, -⟩ | ⟨-, hperform⟩
    · rfl
    · rw [World.db_of_storePermImage (w := w.started c) hperform]
      rfl
  | updateImagePath id path =>
    rcases World.exec_write (World.exec_cases h) with ⟨-, hwrite⟩ | ⟨-, hdb⟩
    · exact hwrites (Db.updateImagePath_spec hwrite) fun _ => rfl
    · rw [hdb]
  | updateImageThumbnailPath id path =>
    rcases World.exec_write (World.exec_cases h) with ⟨-, hwrite⟩ | ⟨-, hdb⟩
    · exact hwrites (Db.updateImageThumbnailPath_spec hwrite) fun _ => rfl
    · rw [hdb]
  | _ => exact hop.elim

/-- A photo that is moved, or not, does not raise and keeps its status.
The move is attempted, and a failure is only logged. -/
theorem run_moving {path : FilePath} {receiptId : UUID} {r : Except Exn Unit}
    (h : (moving image path receiptId).run (World.exec settings) cs w = some (w', r)) :
    r = .ok () ∧ (w'.db.images.get? image.id).map ImageRecord.status
      = (w.db.images.get? image.id).map ImageRecord.status := by
  unfold moving at h
  split at h
  · rcases Program.run_bind h with ⟨cs₁, cs₂, w₁, a, rfl, hmove, hrest⟩ | ⟨e, hmove, -⟩
    · obtain ⟨rfl, rfl, rfl⟩ := Program.run_pure hrest
      obtain ⟨r₀, hmove, -⟩ := run_attempt hmove
      have hcalls : (Handler.movePrimary image.id path receiptId).Calls Op.Moves :=
        Handler.calls_movePrimary trivial (fun _ => trivial) fun _ => trivial
      refine ⟨rfl, ?_⟩
      refine Program.run_keeps (I := fun v =>
        (v.db.images.get? image.id).map ImageRecord.status
          = (w.db.images.get? image.id).map ImageRecord.status) ?_
        hcalls rfl hmove
      intro op hop s c s' r hs hexec
      exact (exec_moves hop hexec image.id).trans hs
    · obtain ⟨r₀, -, heq⟩ := run_attempt hmove
      exact absurd heq (by simp)
  · obtain ⟨rfl, rfl, rfl⟩ := Program.run_pure h
    exact ⟨rfl, rfl⟩

/-- When the analysis is completed the image is processed, and it is not
if something raises. -/
theorem run_completing {path : FilePath} {outcome : Except Exn Receipt} {r : Except Exn Unit}
    (hrow : w.db.images.get? image.id = some image) (hprocessing : image.status = .processing)
    (h : (completing image path outcome).run (World.exec settings) cs w = some (w', r)) :
    ∃ i, w'.db.images.get? image.id = some i
      ∧ (r = .ok () ∧ i.status ≠ .processing ∨ (∃ e, r = .error e) ∧ i.status = .processing) := by
  have hmark : ∀ {status : ImageStatus} {error : String} {result : Except DbError Db},
      status ≠ .processing →
      (∀ db', result = .ok db' → WritesImage w.db image.id (Db.stopped status error) db') →
      ((r = .ok () ∧ result = .ok w'.db) ∨ ((∃ e, r = .error e) ∧ w'.db = w.db)) →
      ∃ i, w'.db.images.get? image.id = some i
        ∧ (r = .ok () ∧ i.status ≠ .processing
          ∨ (∃ e, r = .error e) ∧ i.status = .processing) := by
    intro status error result hstatus hwrites hend
    rcases hend with ⟨hr, hresult⟩ | ⟨hr, hdb⟩
    · refine ⟨Db.stopped status error image, ?_, .inl ⟨hr, hstatus⟩⟩
      rw [(hwrites _ hresult).get, if_pos rfl, hrow]
      rfl
    · exact ⟨image, by rw [hdb]; exact hrow, .inr ⟨hr, hprocessing⟩⟩
  -- a receipt is stored and linked, and an error is recorded
  cases outcome with
  | ok receipt =>
    rcases Program.run_bind h with ⟨cs₁, cs₂, w₁, row, rfl, hstore, hmove⟩ | ⟨e, hstore, rfl⟩
    · rcases run_storing hrow hstore with ⟨⟨e, he⟩, -⟩ | ⟨row', now, -, hstored⟩
      · exact absurd he (by simp)
      · obtain ⟨hr, hstatus⟩ := run_moving hmove
        rw [hstored] at hstatus
        obtain ⟨i, hi, hanalyzed⟩ := Option.map_eq_some_iff.mp hstatus
        refine ⟨i, hi, .inl ⟨hr, ?_⟩⟩
        rw [hanalyzed]
        exact fun heq => nomatch heq
    · rcases run_storing hrow hstore with ⟨-, hsame⟩ | ⟨row', now, heq, -⟩
      · exact ⟨image, hsame, .inr ⟨⟨e, rfl⟩, hprocessing⟩⟩
      · exact absurd heq (by simp)
  | error e =>
    change (recording image (.error e)).run _ _ _ = _ at h
    cases e with
    | analysisTimeout message =>
      obtain ⟨c, rfl, hexec⟩ := Program.run_perform h
      exact hmark (by simp) (fun _ h => (Db.markTerminal_spec h).2)
        (World.exec_write (World.exec_cases hexec))
    | unreadableReceipt message =>
      obtain ⟨c, rfl, hexec⟩ := Program.run_perform h
      exact hmark (by simp) (fun _ h => (Db.markTerminal_spec h).2)
        (World.exec_write (World.exec_cases hexec))
    | _ =>
      obtain ⟨c, rfl, hexec⟩ := Program.run_perform h
      exact hmark (by simp) (fun _ h => Db.markFailed_spec h)
        (World.exec_write (World.exec_cases hexec))

/-- The outcome is recorded if and only if completing the analysis
returns. Moving the photo cannot prevent it, because what it raises is
swallowed. -/
theorem recorded_iff {path : FilePath} {c : Choice} {r : Except Exn Unit}
    (h : (completing image path c.outcome).run (World.exec settings) cs (w.started c)
      = some (w', r)) :
    Recorded settings w image (c :: cs) ↔ r = .ok () := by
  have hsame : (w.started c).SameData (w.started c) := ⟨rfl, rfl⟩
  constructor
  · rintro ⟨c', cs₁, cs₂, v, hcs, hrecord⟩
    obtain ⟨rfl, rfl⟩ := List.cons.inj hcs
    -- the outcome determines the statements, and the same choices the same answers
    cases hout : c.outcome with
    | ok receipt =>
      rw [hout] at h hrecord
      rcases Program.run_bind h with ⟨cs₃, cs₄, w₁, row, -, -, hmove⟩ | ⟨e, hfails, rfl⟩
      · exact (run_moving hmove).1
      · rcases Program.run_bind hrecord with ⟨cs₃, cs₄, w₁, row, rfl, hstore, -⟩ | ⟨e', -, he'⟩
        · rw [List.append_assoc] at hfails
          obtain ⟨-, -, heq⟩ := hsame.run hfails hstore (List.append_nil _)
          exact absurd heq (by simp)
        · exact absurd he' (by simp)
    | error e =>
      rw [hout] at h hrecord
      exact (hsame.run h hrecord (List.append_nil _)).2.2
  · rintro rfl
    cases hout : c.outcome with
    | ok receipt =>
      rw [hout] at h
      rcases Program.run_bind h with ⟨cs₃, cs₄, w₁, row, rfl, hstore, -⟩ | ⟨e, -, he⟩
      · refine ⟨c, cs₃, cs₄, w₁, rfl, ?_⟩
        rw [hout, ← List.append_nil cs₃]
        exact Program.run_bind_ok hstore rfl
      · exact absurd he (by simp)
    | error e =>
      rw [hout] at h
      refine ⟨c, cs, [], w', by rw [List.append_nil], ?_⟩
      rw [hout]
      exact h

/-! ## The two paths -/

/-- Both paths leave the image alike: with the same status, which is not
`processing`, the same receipt and the same paths. The user does not see
which of them has analysed a photo, so there should be no difference. An
image that stays in `processing` would be neither analysed nor offered
again for a quarter of an hour. -/
def LeftAlike (db db' : Db) (imageId : UUID) : Prop :=
  ∃ i i', db.images.get? imageId = some i ∧ db'.images.get? imageId = some i'
    ∧ i.status = i'.status ∧ i.status ≠ .processing ∧ i.receiptId = i'.receiptId
    ∧ i.imagePath = i'.imagePath ∧ i.thumbnailPath = i'.thumbnailPath
    ∧ i.additionalImages = i'.additionalImages

/-- **The upload request and the worker agree** about a photo, the models
that are there and what comes of each step, exactly if what comes of the
analysis can be recorded, and no model whose name is empty is asked
for. -/
theorem upload_agrees_with_worker {w₁ w₂ : World} {c₁ c₂ : Choice} {more : List Choice}
    {r₁ : Except Exn Handler.UploadResponse} {r₂ : Except Exn Handler.PendingImageResult}
    (hphoto : ClaimedPhoto w new image)
    (hupload : (Handler.uploadClaimed settings new first models image).run (World.exec settings)
      cs w = some (w₁, r₁))
    (hreads : c₁.failure = none ∧ c₂.failure = none)
    (hworker : (Handler.analyzeOne image (workerModel settings image first models)).run
      (World.exec settings) (c₁ :: c₂ :: (cs ++ more)) w = some (w₂, r₂)) :
    (Handler.uploadModel settings new.modelId first models
        = workerModel settings image first models ∧ LeftAlike w₁.db w₂.db image.id)
      ↔ (new.modelId = some "" → "" ∈ first :: models →
          Handler.selectModel settings first models = "") ∧ Recorded settings w image cs := by
  rw [uploadModel_eq_iff hphoto.modelId]
  refine and_congr_right fun _ => ?_
  obtain ⟨c, rest, r₀, rfl, hcomplete⟩ :=
    run_uploadClaimed hphoto.bypassReview hphoto.userId hupload
  obtain ⟨c', cs₁, cs₂, v, v', r₀', hcs, hdata, hcomplete', hend⟩ :=
    run_analyzeOne hphoto hreads.1 hreads.2 hworker
  obtain ⟨rfl, hrest⟩ := List.cons.inj hcs
  -- both complete the analysis of one outcome, with the same choices from the same data
  obtain ⟨rfl, hdata', rfl⟩ := hdata.run hcomplete hcomplete' hrest
  obtain ⟨i, hi, hstatus⟩ := run_completing (w := w.started c) hphoto.row hphoto.processing hcomplete
  rw [recorded_iff hcomplete]
  rcases hstatus with ⟨rfl, hne⟩ | ⟨⟨e, rfl⟩, hprocessing⟩
  · obtain ⟨-, rfl⟩ := hend rfl
    refine ⟨fun _ => rfl, fun _ => ⟨i, i, hi, ?_, rfl, hne, rfl, rfl, rfl, rfl⟩⟩
    rw [← hdata'.1]
    exact hi
  · -- after an error the upload leaves the image in processing, and so it is not left alike
    refine ⟨fun halike => ?_, fun h => nomatch h⟩
    obtain ⟨i₁, i₂, hi₁, -, -, hne, -⟩ := halike
    obtain rfl := Option.some.inj (hi.symm.trans hi₁)
    exact absurd hprocessing hne

end TwoPaths

/-! ## A photo on both paths -/

section OnePhoto

local instance asciiFoldingOfPaths : CaseFolding := asciiFolding

/-- The photo when it has been claimed. -/
def claimedImage : ImageRecord where
  id := 1
  originalFilename := photo.originalFilename
  mediaType := photo.mediaType
  sizeBytes := photo.sizeBytes
  imagePath := some photo.imagePath
  thumbnailPath := none
  status := .processing
  error := none
  receiptId := none
  bypassReview := false
  userId := some 1
  createdAt := 1
  analyzedAt := none
  processingAt := some 2
  additionalImages := []
  modelId := none

/-- The world at that time. -/
def claimedWorld : World where
  db := { Db.empty with images := ⟨[claimedImage], List.nodup_singleton _⟩ }
  files := photoFiles
  clock := 2
  issued := [1]

/-- The photo when it has been stored. -/
def storedImage : ImageRecord := { claimedImage with status := .pending, processingAt := none }

/-- The database at that time. -/
def storedDb : Db := { Db.empty with images := ⟨[storedImage], List.nodup_singleton _⟩ }

/-- The upload has stored it and claimed it. -/
theorem claimedWorld_photo : ClaimedPhoto claimedWorld photo claimedImage := by
  have hstore : Db.empty.storeImage 1 1 photo = .ok (storedDb, storedImage) := rfl
  have hclaim : storedDb.claimForAnalysis 2 storedImage.id
      = some (claimedWorld.db, claimedImage) := rfl
  exact claimedPhoto_of_stored hstore hclaim rfl (by decide) (by decide)
    fun r hr => absurd hr List.not_mem_nil

/-- All statements succeed from the analysis on. -/
def fineChoices : List Choice := [smoothly 4 [], smoothly 5 [2], smoothly 6 [], smoothly 7 []]

/-- The receipt cannot be stored. -/
def failingChoices : List Choice :=
  [smoothly 4 [], { smoothly 5 [2] with failure := some (.db .failed) }]

/-- The request with some choices. -/
def uploadRun (cs : List Choice) : Option (World × Except Exn Handler.UploadResponse) :=
  (Handler.uploadClaimed plainSettings photo "llava" [] claimedImage).run
    (World.exec plainSettings) cs claimedWorld

/-- The worker with some choices, after its own two reads. -/
def workerRun (cs : List Choice) : Option (World × Except Exn Handler.PendingImageResult) :=
  (Handler.analyzeOne claimedImage (workerModel plainSettings claimedImage "llava" [])).run
    (World.exec plainSettings) (smoothly 3 [] :: smoothly 3 [] :: cs) claimedWorld

/-- The status of the image in the end. -/
def statusAfter {α : Type} (out : World × α) : Option ImageStatus :=
  (out.1.db.images.get? 1).map ImageRecord.status

/-- A receipt that can be stored is stored on both paths. Both are given
the same choices, so that what they make has the same names. -/
theorem photo_alike : ∃ w₁ r₁ w₂ r₂, uploadRun fineChoices = some (w₁, r₁)
    ∧ workerRun fineChoices = some (w₂, r₂) ∧ LeftAlike w₁.db w₂.db 1 := by
  obtain ⟨⟨w₁, r₁⟩, hupload, -⟩ := (Option.any_eq_true _ _).mp
    (show (uploadRun fineChoices).any (fun _ => true) = true by decide +kernel)
  obtain ⟨⟨w₂, r₂⟩, hworker, -⟩ := (Option.any_eq_true _ _).mp
    (show (workerRun fineChoices).any (fun _ => true) = true by decide +kernel)
  obtain ⟨⟨w', r⟩, hrecord, hr⟩ := (Option.any_eq_true _ _).mp
    (show ((recording claimedImage (.ok emptyReceipt)).run (World.exec plainSettings)
      fineChoices.tail (claimedWorld.started (smoothly 4 []))).any
        (fun out => out.2.isOk) = true by decide +kernel)
  refine ⟨w₁, r₁, w₂, r₂, hupload, hworker, ?_⟩
  have hworker : workerRun (fineChoices ++ []) = some (w₂, r₂) := hworker
  refine ((upload_agrees_with_worker claimedWorld_photo hupload ⟨rfl, rfl⟩ hworker).mpr
    ⟨(fun h => nomatch h), smoothly 4 [], fineChoices.tail, [], w', rfl, ?_⟩).2
  cases r with
  | error e => exact absurd hr (by simp [Except.isOk, Except.toBool])
  | ok _ => exact hrecord

/-- **A receipt that cannot be stored** leaves the image in `processing`
if it was the request that had claimed it, and the worker marks it as
failed. -/
theorem photo_notAlike : ∃ w₁ r₁ w₂ r₂, uploadRun failingChoices = some (w₁, r₁)
    ∧ workerRun (failingChoices ++ [smoothly 6 []]) = some (w₂, r₂)
    ∧ ¬ LeftAlike w₁.db w₂.db 1 := by
  obtain ⟨⟨w₁, r₁⟩, hupload, hstatus⟩ := (Option.any_eq_true _ _).mp
    (show (uploadRun failingChoices).any (fun out => statusAfter out = some .processing) = true
      by decide +kernel)
  obtain ⟨⟨w₂, r₂⟩, hworker, -⟩ := (Option.any_eq_true _ _).mp
    (show (workerRun (failingChoices ++ [smoothly 6 []])).any
      (fun out => statusAfter out = some .failed) = true by decide +kernel)
  refine ⟨w₁, r₁, w₂, r₂, hupload, hworker, fun halike => ?_⟩
  obtain ⟨i, i', hi, -, -, hne, -⟩ := halike
  have hstatus : (w₁.db.images.get? 1).map ImageRecord.status = some .processing :=
    of_decide_eq_true hstatus
  rw [hi] at hstatus
  exact hne (Option.some.inj hstatus)

end OnePhoto

end VisionBill
