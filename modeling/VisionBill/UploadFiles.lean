import VisionBill.ImageStore
import VisionBill.Lib.Program

/-!
# The files of a failed upload

`upload_image` up to the point where the row of the image is stored. The
photos are read, inspected and written to temporary files one after the
other; `parts` lists those written so far, and two `except BaseException`
remove them again.

Two failures escape the clean-up. If a write fails after `open` has made
the file, the path of that file is not in `parts` yet. And between the two
`try`, while the models of a single photo are discovered, a cancellation
is not an `Exception`, so nothing catches it (`leavesNothing_iff`).
Everything else that is raised leaves the files as they were.

## Where a request can fail

Everywhere. Each call has an event that says what becomes of it: it
returns, it raises before it has done anything, or it raises half way.
There is no limit on how many photos there are or which of them fails, and
the clean-up itself consists of calls that may raise. So the statement is
about every sequence of events, and it is an equivalence: a failed request
has left something exactly if one of the two escapes has happened.

## How it is shown

The state of a request is the files with a log of its calls. What is kept
is that the files are those from before, with the photos in `parts` and
those that have escaped (`Kept`); the second list is empty as long as
nothing that was called has escaped. Each piece of the request establishes
this for what it returns and for what it raises, in the order of the
program text, with the rules for weakest preconditions.
-/

namespace VisionBill

/-- `receipt: UploadFile`. The content is read when the request is
handled, and its type is told from it. -/
structure Upload where
  filename : Option String
  content : Bytes
  deriving DecidableEq

/-- What `upload_image` raises, or catches. A cancellation is not an
`Exception`, and so it passes some handlers and is caught by others. -/
inductive UploadExn
  /-- `HTTPException`. -/
  | http (status : ℕ) (detail : String)
  /-- `UnsupportedImageTypeError`. -/
  | unsupportedImageType (detectedType : String)
  /-- `asyncio.CancelledError`, which is no `Exception`. -/
  | cancelled
  /-- Any other exception. -/
  | other (message : String)
  deriving DecidableEq

/-- What `upload_image` calls. Those that are not awaited cannot be
cancelled, which is why the calls are told apart. -/
inductive UploadOp
  | read (upload : Upload)
  | validateAndInspect (content : Bytes)
  | storeTmpImage (content : Bytes)
  | generateThumbnail (srcPath : FilePath)
  | checkConnection
  | getAvailableModels
  | storeImage (parts : List ImagePart)
  | deleteImage (imagePath : FilePath)
  deriving DecidableEq

namespace UploadOp

/-- What a call returns. -/
def Ret : UploadOp → Type
  | read _ => Bytes
  | validateAndInspect _ => String
  | storeTmpImage _ => FilePath
  | generateThumbnail _ => Option FilePath
  | checkConnection => Bool
  | getAvailableModels => List String
  | storeImage _ => Unit
  | deleteImage _ => Bool

end UploadOp

/-- What becomes of a call. A write can fail after its file was made. -/
inductive UploadEvent
  | returns
  /-- It raises an exception before it has done anything. -/
  | fails (message : String)
  /-- The request is cancelled while it waits. -/
  | cancels
  /-- `uuid4` of `store_tmp_image`. -/
  | draws (id : UUID)
  /-- `write` raises after a number of bytes. -/
  | failsWriting (id : UUID) (written : ℕ) (message : String)
  /-- What Pillow makes of a content. -/
  | renders (render : Bytes → Option Bytes)
  | connects (connected : Bool)
  | lists (models : List String)

/-- `ALLOWED_IMAGE_TYPES`. -/
def allowedImageTypes : List String :=
  ["image/jpeg", "image/png", "image/webp", "image/heic", "image/heif", "image/gif"]

/-- The largest photo, of 20 MB. -/
def photoLimit : ℕ := 20 * 1024 * 1024

namespace UploadOp

/-- The paths of a new photo are unused. -/
def Unused (files : Files) (tmpDir : FilePath) (id : UUID) : Prop :=
  files (pathJoin tmpDir (pngName (tmpStem id))) = none
    ∧ files (thumbFor (pathJoin tmpDir (pngName (tmpStem id)))) = none

instance (files : Files) (tmpDir : FilePath) (id : UUID) : Decidable (Unused files tmpDir id) :=
  inferInstanceAs (Decidable (files (pathJoin tmpDir (pngName (tmpStem id))) = none
    ∧ files (thumbFor (pathJoin tmpDir (pngName (tmpStem id)))) = none))

/-- A call, with what becomes of it. `magic` is libmagic; a UUID is fresh.
An event that a call cannot have is none of its choices. -/
def exec (magic : Bytes → String) (settings : ImageSettings) (files : Files) :
    (op : UploadOp) → UploadEvent → Option (Files × Except UploadExn op.Ret)
  | .read upload, .returns => some (files, .ok (upload.content.take (photoLimit + 1)))
  | .read _, .fails message => some (files, .error (.other message))
  | .read _, .cancels => some (files, .error .cancelled)
  | .validateAndInspect content, .returns =>
    let mediaType := magic (content.take 4096)
    if mediaType ∈ allowedImageTypes then some (files, .ok mediaType)
    else some (files, .error (.unsupportedImageType mediaType))
  | .validateAndInspect _, .fails message => some (files, .error (.other message))
  | .storeTmpImage content, .draws id =>
    if Unused files settings.tmpDir id then
      let answer := files.storeTmpImage settings.tmpDir content id
      some (answer.1, .ok answer.2)
    else none
  | .storeTmpImage _, .fails message => some (files, .error (.other message))
  | .storeTmpImage content, .failsWriting id written message =>
    if Unused files settings.tmpDir id then
      let answer := files.storeTmpImage settings.tmpDir (content.take written) id
      some (answer.1, .error (.other message))
    else none
  | .generateThumbnail srcPath, .renders render =>
    let answer := files.generateThumbnail render srcPath
    some (answer.1, .ok answer.2)
  | .checkConnection, .connects connected => some (files, .ok connected)
  | .checkConnection, .fails message => some (files, .error (.other message))
  | .checkConnection, .cancels => some (files, .error .cancelled)
  | .getAvailableModels, .lists models => some (files, .ok models)
  | .getAvailableModels, .fails message => some (files, .error (.other message))
  | .getAvailableModels, .cancels => some (files, .error .cancelled)
  | .storeImage _, .returns => some (files, .ok ())
  | .storeImage _, .fails message => some (files, .error (.other message))
  | .storeImage _, .cancels => some (files, .error .cancelled)
  | .deleteImage imagePath, .returns =>
    some (files.deleteImage imagePath, .ok (files.exists? imagePath))
  | _, _ => none

end UploadOp

/-! ## The request -/

namespace Upload

/-- A program over these calls. -/
abbrev Request := Program UploadOp.Ret UploadExn

/-- A single call. -/
abbrev perform (op : UploadOp) : Request op.Ret := Program.perform op

/-- One turn of the loop, as far as it may raise. The path is known only
once the call that writes the file has returned. -/
def storePhoto (upload : Upload) : Request ImagePart := do
  let content : Bytes ← perform (.read upload)
  if photoLimit < content.length then throw (.http 413 "Each photo must be at most 20 MB")
  let mediaType : String ← tryCatch (perform (.validateAndInspect content)) fun
    | .unsupportedImageType _ => throw (.http 415 "Unsupported image type")
    | e => throw e
  let path : FilePath ← perform (.storeTmpImage content)
  return {
    imagePath := path
    originalFilename := upload.filename
    mediaType := some mediaType
    sizeBytes := some content.length }

/-- The loop over the photos: the parts so far, and what was raised. The
clean-up needs both. -/
def storePhotos (parts : List ImagePart) :
    List Upload → Request (List ImagePart × Except UploadExn Unit)
  | [] => return (parts, .ok ())
  | upload :: uploads => do
    let stored : Except UploadExn ImagePart ←
      tryCatch (do return .ok (← storePhoto upload)) fun e => return .error e
    match stored with
    | .error e => return (parts, .error e)
    | .ok part => do
      let thumb : Option FilePath ← perform (.generateThumbnail part.imagePath)
      storePhotos (parts ++ [{ part with thumbnailPath := thumb }]) uploads

/-- `for part in parts: image_service.delete_image(…)`. -/
def cleanUp : List ImagePart → Request Unit
  | [] => pure ()
  | part :: parts => do
    let _ ← perform (.deleteImage part.imagePath)
    cleanUp parts

/-- The models for a single photo; `except Exception`. A cancellation is
no `Exception` and is not caught. -/
def discoverModels (parts : List ImagePart) : Request (List String) :=
  if parts.length = 1 then
    tryCatch (do
      let connected : Bool ← perform .checkConnection
      if connected then perform .getAvailableModels else return []) fun
      | .cancelled => throw .cancelled
      | _ => return []
  else return []

/-- `upload_image`, until the row is stored. From then on the files belong
to the row, and the clean-up of the request is over. -/
def uploadUntilStored (dbReady : Bool) (receipt : List Upload) : Request (List String) := do
  if ¬ dbReady then throw (.http 503 "Database not available")
  if ¬ (1 ≤ receipt.length ∧ receipt.length ≤ 10) then
    throw (.http 422 "Upload between 1 and 10 photos of one receipt")
  let outcome : List ImagePart × Except UploadExn Unit ← storePhotos [] receipt
  match outcome with
  | (parts, .error e) => do
    cleanUp parts
    throw e
  | (parts, .ok ()) => do
    let models ← discoverModels parts
    tryCatch (perform (.storeImage parts)) fun e => do
      cleanUp parts
      throw e
    return models

end Upload

/-! ## What is left behind

A photo escapes if its file was made and no list has its path: the write
was cut short, or the request was cancelled where only an `Exception` is
caught. -/

/-- What escapes the clean-up: a write that fails half way, and a
cancellation of the discovery. It is read off the events and not off the
files. -/
def escapes : UploadOp → UploadEvent → Bool
  | .storeTmpImage _, .failsWriting _ _ _ => true
  | .checkConnection, .cancels => true
  | .getAvailableModels, .cancels => true
  | _, _ => false

/-- The files of `paths` and their thumbnails have been added to the
files. -/
def Stored (before : Files) (paths : List FilePath) (files : Files) : Prop :=
  ∃ originals, imageLayout.Holds before originals files
    ∧ (originals.map Layout.Entry.main).Perm paths

namespace Stored

variable {before files : Files} {paths : List FilePath} {path : FilePath}

theorem of_eq : Stored before [] before := ⟨[], Layout.holds_nil_iff.mpr rfl, List.Perm.refl _⟩

theorem eq_iff (h : Stored before paths files) : files = before ↔ paths = [] := by
  obtain ⟨originals, hholds, hperm⟩ := h
  rw [hholds.eq_base_iff]
  constructor
  · rintro rfl
    exact List.nil_perm.mp hperm
  · rintro rfl
    exact List.map_eq_nil_iff.mp (List.perm_nil.mp hperm)

/-- A new photo is added to the others. Its name is made from a new
identifier, so that no file is in its place. -/
theorem put (h : Stored before paths files) {settings : ImageSettings} {id : UUID}
    (hunused : UploadOp.Unused files settings.tmpDir id) (content : Bytes) :
    Stored before (paths ++ [pathJoin settings.tmpDir (pngName (tmpStem id))])
      (files.storeTmpImage settings.tmpDir content id).1 := by
  obtain ⟨originals, hholds, hperm⟩ := h
  have hnamed : IsNamed settings [id] (pathJoin settings.tmpDir (pngName (tmpStem id))) :=
    IsNamed.tmp id List.mem_cons_self
  have hput := hholds.put hnamed.isOriginal hunused.1 hunused.2 content none
  rw [Files.storeTmpImage_eq]
  rw [Function.update_eq_self_iff.mpr] at hput
  · exact ⟨_, hput, (hperm.cons _).trans (List.perm_append_singleton _ _).symm⟩
  · rw [Function.update_of_ne (Layout.side_ne_main hnamed.isOriginal)]
    exact hunused.2.symm

/-- A photo gets a thumbnail, or none. It belongs to its photo, and is
deleted with it. -/
theorem attach (h : Stored before paths files) (hpath : path ∈ paths)
    (render : Bytes → Option Bytes) :
    Stored before paths (files.generateThumbnail render path).1 := by
  obtain ⟨originals, hholds, hperm⟩ := h
  obtain ⟨original, hmem, rfl⟩ := List.mem_map.mp (hperm.mem_iff.mpr hpath)
  cases himg : (files original.main).bind render with
  | none =>
    rw [Files.generateThumbnail_of_none himg]
    exact ⟨originals, hholds, hperm⟩
  | some img =>
    rw [Files.generateThumbnail_of_some himg]
    have hattach := hholds.attach hmem (some img)
    rw [side_imageLayout] at hattach
    refine ⟨_, hattach, ?_⟩
    rw [Layout.Holds.map_main_attached]
    exact hperm

/-- A photo and its thumbnail are removed. What remains are the others,
and the files there were before. -/
theorem delete (h : Stored before (path :: paths) files) :
    Stored before paths (files.deleteImage path) := by
  obtain ⟨originals, hholds, hperm⟩ := h
  obtain ⟨original, hmem, rfl⟩ := List.mem_map.mp (hperm.mem_iff.mpr List.mem_cons_self)
  have hexists : files.exists? original.main = true := by
    rw [Files.exists?, hholds.content original hmem]
    rfl
  have hremove := hholds.remove hmem
  rw [side_imageLayout] at hremove
  rw [Files.deleteImage_eq hexists]
  refine ⟨_, hremove, ?_⟩
  have hnodup := List.nodup_cons.mp (hperm.nodup_iff.mp hholds.nodup)
  have hfilter : paths.filter (fun p => p ≠ original.main) = paths :=
    List.filter_eq_self.mpr fun p hp => decide_eq_true fun heq => hnodup.1 (heq ▸ hp)
  have hperm' := hperm.filter fun p => decide (p ≠ original.main)
  rw [List.filter_cons_of_neg (by simp), hfilter, List.filter_map] at hperm'
  exact hperm'

end Stored

/-- The calls of a request. -/
abbrev Calls := List (UploadOp × UploadEvent)

/-- Nothing that was called escapes the clean-up. It is a condition on the
calls and what became of them, and not on what is left in the
directories. -/
def Calls.Caught (calls : Calls) : Prop := ∀ call ∈ calls, escapes call.1 call.2 = false

instance (calls : Calls) : Decidable calls.Caught :=
  List.decidableBAll (fun call : UploadOp × UploadEvent => escapes call.1 call.2 = false) calls

theorem caught_concat {calls : Calls} {op : UploadOp} {event : UploadEvent} :
    Calls.Caught (calls ++ [(op, event)]) ↔ calls.Caught ∧ escapes op event = false := by
  unfold Calls.Caught
  rw [List.forall_mem_append, List.forall_mem_singleton]

/-- Besides the photos in `parts` there are those that escaped, if any.
This is the invariant of the request. -/
def Kept (before : Files) (parts : List ImagePart) (escaped : List FilePath) (s : Files × Calls) :
    Prop :=
  Stored before (parts.map ImagePart.imagePath ++ escaped) s.1 ∧ (escaped = [] ↔ s.2.Caught)

section Calls

variable {magic : Bytes → String} {settings : ImageSettings} {before files files' : Files}
  {op : UploadOp} {event : UploadEvent} {r : Except UploadExn op.Ret} {s s' : Files × Calls}
  {parts : List ImagePart} {escaped : List FilePath}

/-- Calls that have nothing to do with files. -/
def UploadOp.IsQuiet : UploadOp → Prop
  | .read _ | .validateAndInspect _ | .storeImage _ => True
  | _ => False

theorem exec_quiet (hop : op.IsQuiet) (h : op.exec magic settings files event = some (files', r)) :
    files' = files ∧ escapes op event = false := by
  cases op with
  | read upload =>
    cases event
    all_goals first
      | exact ⟨(Prod.mk.inj (Option.some.inj h)).1.symm, rfl⟩
      | exact absurd h (by simp [UploadOp.exec])
  | validateAndInspect content =>
    cases event
    case returns =>
      refine ⟨?_, rfl⟩
      simp only [UploadOp.exec] at h
      split at h
      · exact (Prod.mk.inj (Option.some.inj h)).1.symm
      · exact (Prod.mk.inj (Option.some.inj h)).1.symm
    all_goals first
      | exact ⟨(Prod.mk.inj (Option.some.inj h)).1.symm, rfl⟩
      | exact absurd h (by simp [UploadOp.exec])
  | storeImage parts =>
    cases event
    all_goals first
      | exact ⟨(Prod.mk.inj (Option.some.inj h)).1.symm, rfl⟩
      | exact absurd h (by simp [UploadOp.exec])
  | storeTmpImage content => exact hop.elim
  | generateThumbnail srcPath => exact hop.elim
  | checkConnection => exact hop.elim
  | getAvailableModels => exact hop.elim
  | deleteImage imagePath => exact hop.elim

/-- A discovery that raises is noticed only if it was cancelled. -/
theorem exec_discovery (hop : op = .checkConnection ∨ op = .getAvailableModels)
    (h : op.exec magic settings files event = some (files', r)) :
    files' = files ∧ (escapes op event = true ↔ r = .error .cancelled) := by
  obtain rfl | rfl := hop
  all_goals
    cases event
    all_goals first
      | (obtain ⟨rfl, rfl⟩ := Prod.mk.inj (Option.some.inj h)
         exact ⟨rfl, by simp [escapes]⟩)
      | exact absurd h (by simp [UploadOp.exec])

theorem exec_deleteImage {path : FilePath} {r : Except UploadExn Bool}
    (h : (UploadOp.deleteImage path).exec magic settings files event = some (files', r)) :
    files' = files.deleteImage path ∧ escapes (.deleteImage path) event = false
      ∧ ∃ removed, r = .ok removed := by
  cases event
  case returns =>
    obtain ⟨rfl, rfl⟩ := Prod.mk.inj (Option.some.inj h)
    exact ⟨rfl, rfl, _, rfl⟩
  all_goals exact absurd h (by simp [UploadOp.exec])

theorem exec_generateThumbnail {path : FilePath} {r : Except UploadExn (Option FilePath)}
    (h : (UploadOp.generateThumbnail path).exec magic settings files event = some (files', r)) :
    (∃ render, files' = (files.generateThumbnail render path).1)
      ∧ escapes (.generateThumbnail path) event = false ∧ ∃ thumb, r = .ok thumb := by
  cases event
  case renders render =>
    obtain ⟨rfl, rfl⟩ := Prod.mk.inj (Option.some.inj h)
    exact ⟨⟨render, rfl⟩, rfl, _, rfl⟩
  all_goals exact absurd h (by simp [UploadOp.exec])

/-- `store_tmp_image` writes a photo under an unused path, or raises
before or after it has made the file. -/
theorem exec_storeTmpImage {content : Bytes} {r : Except UploadExn FilePath}
    (h : (UploadOp.storeTmpImage content).exec magic settings files event = some (files', r)) :
    (∃ id, UploadOp.Unused files settings.tmpDir id
        ∧ files' = (files.storeTmpImage settings.tmpDir content id).1
        ∧ r = .ok (pathJoin settings.tmpDir (pngName (tmpStem id)))
        ∧ escapes (.storeTmpImage content) event = false)
      ∨ (∃ e, files' = files ∧ r = .error e ∧ escapes (.storeTmpImage content) event = false)
      ∨ ∃ id written e, UploadOp.Unused files settings.tmpDir id
        ∧ files' = (files.storeTmpImage settings.tmpDir written id).1 ∧ r = .error e
        ∧ escapes (.storeTmpImage content) event = true := by
  cases event
  case draws id =>
    simp only [UploadOp.exec] at h
    split at h
    · next hunused =>
      obtain ⟨rfl, rfl⟩ := Prod.mk.inj (Option.some.inj h)
      exact Or.inl ⟨id, hunused, rfl, rfl, rfl⟩
    · exact absurd h (by simp)
  case fails message =>
    obtain ⟨rfl, rfl⟩ := Prod.mk.inj (Option.some.inj h)
    exact Or.inr (Or.inl ⟨_, rfl, rfl, rfl⟩)
  case failsWriting id written message =>
    simp only [UploadOp.exec] at h
    split at h
    · next hunused =>
      obtain ⟨rfl, rfl⟩ := Prod.mk.inj (Option.some.inj h)
      exact Or.inr (Or.inr ⟨id, _, _, hunused, rfl, rfl, rfl⟩)
    · exact absurd h (by simp)
  all_goals exact absurd h (by simp [UploadOp.exec])

/-! ## The request and its clean-up

The clean-up deletes the photos that the list has. So what is left are
those that have escaped, and there are none if no call is of the two
kinds. -/

/-- What a program establishes, with a log of its calls. -/
abbrev Establishes (magic : Bytes → String) (settings : ImageSettings) {α : Type}
    (p : Upload.Request α) (Q : α → Files × Calls → Prop) (R : UploadExn → Files × Calls → Prop)
    (s : Files × Calls) : Prop :=
  Program.wlp (Program.traced (UploadOp.exec magic settings)) p Q R s

namespace Kept

/-- A call that leaves the files alone and escapes nothing. -/
theorem quiet (h : Kept before parts escaped s) (hfiles : s'.1 = s.1)
    (hlog : s'.2 = s.2 ++ [(op, event)]) (hcaught : escapes op event = false) :
    Kept before parts escaped s' := by
  refine ⟨hfiles ▸ h.1, ?_⟩
  rw [hlog, caught_concat, h.2]
  exact (and_iff_left hcaught).symm

end Kept

namespace Upload

theorem establishes_quiet (hop : op.IsQuiet) (h : Kept before parts escaped s) :
    Establishes magic settings (perform op) (fun _ => Kept before parts escaped)
      (fun _ => Kept before parts escaped) s := by
  refine Program.wlp_perform fun event s' r hstep => ?_
  obtain ⟨hexec, hlog⟩ := Program.traced_eq_some hstep
  obtain ⟨hfiles, hcaught⟩ := exec_quiet hop hexec
  exact ⟨fun _ _ => h.quiet hfiles hlog hcaught, fun _ _ => h.quiet hfiles hlog hcaught⟩

/-- The photos in `parts` are removed. What escaped before is not in the
list, and stays. -/
theorem establishes_cleanUp (h : Kept before parts escaped s) :
    Establishes magic settings (cleanUp parts) (fun _ => Kept before [] escaped)
      (fun _ _ => False) s := by
  induction parts generalizing s with
  | nil => exact h
  | cons part parts ih =>
    refine Program.wlp_bind.mpr (Program.wlp_perform fun event s' r hstep => ?_)
    obtain ⟨hexec, hlog⟩ := Program.traced_eq_some hstep
    obtain ⟨hfiles, hcaught, removed, rfl⟩ := exec_deleteImage hexec
    refine ⟨fun _ _ => ih ⟨?_, ?_⟩, fun e he => absurd he (by simp)⟩
    · rw [hfiles]
      exact h.1.delete
    · rw [hlog, caught_concat, h.2]
      exact (and_iff_left hcaught).symm

/-- One more photo is there, or an exception is raised before its path is
known; then it is there if the write has failed half way. -/
theorem establishes_storePhoto (h : Kept before parts [] s) (upload : Upload) :
    Establishes magic settings (storePhoto upload)
      (fun part => Kept before (parts ++ [part]) [])
      (fun _ s' => ∃ escaped, Kept before parts escaped s') s := by
  have hraised : ∀ (e : UploadExn) s', Kept before parts [] s' →
      ∃ escaped, Kept before parts escaped s' := fun _ _ hs' => ⟨[], hs'⟩
  unfold storePhoto
  refine Program.wlp_bind.mpr (Program.wlp_mono (establishes_quiet trivial h) ?_ hraised)
  intro content s₁ h₁
  dsimp only
  split
  · exact ⟨[], h₁⟩
  · refine Program.wlp_bind.mpr (Program.wlp_handle.mpr ?_)
    refine Program.wlp_mono (establishes_quiet trivial h₁) (fun mediaType s₂ h₂ => ?_)
      fun e s₂ h₂ => ?_
    · refine Program.wlp_bind.mpr (Program.wlp_perform fun event s₃ r hstep => ?_)
      obtain ⟨hexec, hlog⟩ := Program.traced_eq_some hstep
      -- it is stored, it is not, or it is there though the write has raised
      obtain ⟨id, hunused, hfiles, rfl, hcaught⟩ | ⟨e, hfiles, rfl, hcaught⟩
        | ⟨id, written, e, hunused, hfiles, rfl, hescapes⟩ := exec_storeTmpImage hexec
      · refine ⟨fun path hpath => ?_, fun e he => absurd he (by simp)⟩
        obtain rfl := Except.ok.inj hpath
        refine ⟨?_, ?_⟩
        · have hput := h₂.1.put hunused content
          rw [hfiles, List.append_nil, List.map_append]
          rw [List.append_nil] at hput
          exact hput
        · rw [hlog, caught_concat, ← h₂.2]
          exact (and_iff_left hcaught).symm
      · exact ⟨fun _ hpath => absurd hpath (by simp),
          fun _ _ => ⟨[], h₂.quiet hfiles hlog hcaught⟩⟩
      · refine ⟨fun _ hpath => absurd hpath (by simp),
          fun _ _ => ⟨[pathJoin settings.tmpDir (pngName (tmpStem id))], ?_, ?_⟩⟩
        · have hput := h₂.1.put hunused written
          rw [hfiles]
          rw [List.append_nil] at hput
          exact hput
        · rw [hlog, caught_concat, hescapes]
          simp
    · split
      · exact ⟨[], h₂⟩
      · exact ⟨[], h₂⟩

/-- The loop: all photos are there, or those so far and one that escaped.
The induction is on the uploads that are left, with the photos stored so
far as its invariant. -/
theorem establishes_storePhotos (h : Kept before parts [] s) (uploads : List Upload) :
    Establishes magic settings (storePhotos parts uploads)
      (fun out s' => (out.2 = .ok () ∧ Kept before out.1 [] s')
        ∨ ((∃ e, out.2 = .error e) ∧ ∃ escaped, Kept before out.1 escaped s'))
      (fun _ _ => False) s := by
  induction uploads generalizing parts s with
  | nil => exact Or.inl ⟨rfl, h⟩
  | cons upload uploads ih =>
    unfold storePhotos
    refine Program.wlp_bind.mpr (Program.wlp_handle.mpr (Program.wlp_bind.mpr ?_))
    refine Program.wlp_mono (establishes_storePhoto h upload) (fun part s₁ h₁ => ?_)
      fun e s₁ h₁ => Or.inr ⟨⟨e, rfl⟩, h₁⟩
    refine Program.wlp_bind.mpr (Program.wlp_perform fun event s₂ r hstep => ?_)
    obtain ⟨hexec, hlog⟩ := Program.traced_eq_some hstep
    obtain ⟨⟨render, hfiles⟩, hcaught, thumb, rfl⟩ := exec_generateThumbnail hexec
    refine ⟨fun _ _ => ih ⟨?_, ?_⟩, fun e he => absurd he (by simp)⟩
    · have hmem : part.imagePath ∈ (parts ++ [part]).map ImagePart.imagePath ++ [] := by simp
      have hattach := h₁.1.attach hmem render
      rw [hfiles]
      rw [List.map_append] at hattach ⊢
      exact hattach
    · rw [hlog, caught_concat, h₁.2]
      exact (and_iff_left hcaught).symm

/-- What a call of the discovery has raised: if it was cancelled, the
photos have escaped. -/
def Undiscovered (before : Files) (parts : List ImagePart) (e : UploadExn) (s : Files × Calls) :
    Prop :=
  (e = .cancelled ∧ ∃ escaped, Kept before [] escaped s) ∨ (e ≠ .cancelled ∧ Kept before parts [] s)

theorem establishes_discovery (hop : op = .checkConnection ∨ op = .getAvailableModels)
    (hne : parts ≠ []) (h : Kept before parts [] s) :
    Establishes magic settings (perform op) (fun _ => Kept before parts [])
      (Undiscovered before parts) s := by
  refine Program.wlp_perform fun event s' r hstep => ?_
  obtain ⟨hexec, hlog⟩ := Program.traced_eq_some hstep
  obtain ⟨hfiles, hescapes⟩ := exec_discovery hop hexec
  have hquiet : r ≠ .error .cancelled → Kept before parts [] s' := fun hr =>
    h.quiet hfiles hlog (Bool.eq_false_iff.mpr fun htrue => hr (hescapes.mp htrue))
  refine ⟨fun a ha => hquiet (ha ▸ by simp), fun e he => ?_⟩
  by_cases hcancelled : e = .cancelled
  · refine Or.inl ⟨hcancelled, parts.map ImagePart.imagePath, ?_, ?_⟩
    · rw [hfiles]
      have hstored := h.1
      rwa [List.append_nil] at hstored
    · rw [hlog, caught_concat, hescapes.mpr (hcancelled ▸ he), List.map_eq_nil_iff]
      simp [hne]
  · exact Or.inr ⟨hcancelled, hquiet (he ▸ by simpa using hcancelled)⟩

/-- The models are discovered; of what is raised only a cancellation is
left. An exception of the provider counts as no model. -/
theorem establishes_discoverModels (h : Kept before parts [] s) :
    Establishes magic settings (discoverModels parts) (fun _ => Kept before parts [])
      (fun _ s' => ∃ escaped, Kept before [] escaped s') s := by
  unfold discoverModels
  split
  · next hone =>
    have hne : parts ≠ [] := fun hnil => absurd (hnil ▸ hone) (by simp)
    refine Program.wlp_handle.mpr (Program.wlp_mono (Q := fun _ => Kept before parts [])
      (R := Undiscovered before parts) (Program.wlp_bind.mpr ?_) (fun _ _ hs => hs)
      fun e s' hs' => ?_)
    · refine Program.wlp_mono (establishes_discovery (Or.inl rfl) hne h)
        (fun connected s₁ h₁ => ?_) fun _ _ hs => hs
      cases connected with
      | true => exact establishes_discovery (Or.inr rfl) hne h₁
      | false => exact h₁
    · obtain ⟨rfl, hescaped⟩ | ⟨hother, hkept⟩ := hs'
      · exact hescaped
      · cases e with
        | cancelled => exact absurd rfl hother
        | http status detail => exact hkept
        | unsupportedImageType detectedType => exact hkept
        | other message => exact hkept
  · exact h

/-- An exception leaves what has escaped. The other photos have been
deleted by then, by the handler of the exception. -/
theorem establishes_uploadUntilStored (dbReady : Bool) (receipt : List Upload) :
    Establishes magic settings (uploadUntilStored dbReady receipt) (fun _ _ => True)
      (fun _ s' => ∃ escaped, Kept before [] escaped s') (before, []) := by
  have hstart : Kept before [] [] (before, []) :=
    ⟨Stored.of_eq, iff_of_true rfl fun _ h => absurd h List.not_mem_nil⟩
  unfold uploadUntilStored
  dsimp only
  split
  · exact ⟨[], hstart⟩
  · split
    · exact ⟨[], hstart⟩
    · refine Program.wlp_bind.mpr (Program.wlp_mono (establishes_storePhotos hstart receipt) ?_
        fun _ _ h => h.elim)
      rintro ⟨parts, raised⟩ s₁ (⟨rfl, h₁⟩ | ⟨⟨e, rfl⟩, escaped, h₁⟩)
      · refine Program.wlp_bind.mpr (Program.wlp_mono (establishes_discoverModels h₁)
          (fun models s₂ h₂ => ?_) fun _ _ h => h)
        refine Program.wlp_bind.mpr (Program.wlp_handle.mpr (Program.wlp_mono
          (establishes_quiet trivial h₂) (fun _ _ _ => trivial) fun e s₃ h₃ => ?_))
        refine Program.wlp_bind.mpr (Program.wlp_mono (establishes_cleanUp h₃) (fun _ s₄ h₄ => ?_)
          fun _ _ h => h.elim)
        exact ⟨[], h₄⟩
      · refine Program.wlp_bind.mpr (Program.wlp_mono (establishes_cleanUp h₁) (fun _ s₂ h₂ => ?_)
          fun _ _ h => h.elim)
        exact ⟨escaped, h₂⟩

/-- **What a failed upload leaves behind.** When the request raises, the
files are what they were before, unless a write failed after its file was
made, or the request was cancelled while it discovered the models. Either
of these does leave something. -/
theorem leavesNothing_iff {dbReady : Bool} {receipt : List Upload} {events : List UploadEvent}
    {e : UploadExn}
    (h : (uploadUntilStored dbReady receipt).run (UploadOp.exec magic settings) events files
      = some (files', .error e)) :
    files' = files ↔ Calls.Caught
      ((uploadUntilStored dbReady receipt).trace (UploadOp.exec magic settings) events files) := by
  obtain ⟨_, hok, -⟩ | ⟨e', -, escaped, hstored, hescaped⟩ :=
    Program.wlp_trace (establishes_uploadUntilStored dbReady receipt) h
  · exact absurd hok (by simp)
  · exact hstored.eq_iff.trans hescaped

open ImageStore (appSettings newPhoto)

/-- Only one content is a photo. -/
def onlyPng (content : Bytes) : String := if content = [1] then "image/png" else "text/plain"

/-- The second photo is of an unsupported type, and the first one is
removed again. -/
theorem leavesNothing_unsupported : ∃ files',
    (uploadUntilStored true [⟨none, [1]⟩, ⟨none, [2]⟩]).run (UploadOp.exec onlyPng appSettings)
        [.returns, .returns, .draws 1, .renders fun _ => some [11], .returns, .returns, .returns]
        (fun _ => none)
      = some (files', .error (.http 415 "Unsupported image type"))
      ∧ files' = fun _ => none := by
  obtain ⟨⟨files', r⟩, hrun, hr⟩ := (Option.any_eq_true _ _).mp
    (show ((uploadUntilStored true [⟨none, [1]⟩, ⟨none, [2]⟩]).run
        (UploadOp.exec onlyPng appSettings)
        [.returns, .returns, .draws 1, .renders fun _ => some [11], .returns, .returns, .returns]
        (fun _ => none)).any
      (fun out => out.2 = .error (.http 415 "Unsupported image type")) = true by decide +kernel)
  obtain rfl : r = _ := of_decide_eq_true hr
  exact ⟨files', hrun, (leavesNothing_iff hrun).mpr (by decide +kernel)⟩

/-- A full disk leaves an empty file, and a cancellation of the discovery
a photo with its thumbnail. -/
theorem failed_upload_leaves_files :
    (∃ files' e, (uploadUntilStored true [⟨none, [1]⟩]).run (UploadOp.exec onlyPng appSettings)
        [.returns, .returns, .failsWriting 1 0 "No space left on device"] (fun _ => none)
      = some (files', .error e) ∧ files' (newPhoto 1) = some [])
    ∧ ∃ files' e, (uploadUntilStored true [⟨none, [1]⟩]).run (UploadOp.exec onlyPng appSettings)
        [.returns, .returns, .draws 1, .renders fun _ => some [11], .cancels] (fun _ => none)
      = some (files', .error e) ∧ files' (newPhoto 1) = some [1]
        ∧ files' (thumbFor (newPhoto 1)) = some [11] := by
  constructor
  · obtain ⟨⟨files', r⟩, hrun, hr⟩ := (Option.any_eq_true _ _).mp
      (show ((uploadUntilStored true [⟨none, [1]⟩]).run (UploadOp.exec onlyPng appSettings)
          [.returns, .returns, .failsWriting 1 0 "No space left on device"] (fun _ => none)).any
        (fun out => out.2 = .error (.other "No space left on device")
          ∧ out.1 (newPhoto 1) = some []) = true by decide +kernel)
    obtain ⟨rfl, hfile⟩ := of_decide_eq_true hr
    exact ⟨files', _, hrun, hfile⟩
  · obtain ⟨⟨files', r⟩, hrun, hr⟩ := (Option.any_eq_true _ _).mp
      (show ((uploadUntilStored true [⟨none, [1]⟩]).run (UploadOp.exec onlyPng appSettings)
          [.returns, .returns, .draws 1, .renders fun _ => some [11], .cancels]
          (fun _ => none)).any
        (fun out => out.2 = .error .cancelled ∧ out.1 (newPhoto 1) = some [1]
          ∧ out.1 (thumbFor (newPhoto 1)) = some [11]) = true by decide +kernel)
    obtain ⟨rfl, hfile⟩ := of_decide_eq_true hr
    exact ⟨files', _, hrun, hfile⟩

end Upload

end Calls

end VisionBill
