import VisionBill.Lib.Register
import VisionBill.Handlers
import VisionBill.ImageStore
import VisionBill.ReceiptEffects

/-!
# Photos of a receipt that is being verified

A request that verifies a receipt reads the image row, and then moves one
photo after the other to its permanent place. After each one it writes:
the path of the first photo, or the list of all additional ones, as it was
read and with what has been moved since. Several such requests may run at
the same time, each with a list of its own.

## What goes wrong

A request that finds nothing to move, because another one has been there,
still writes back the list that it has read, and the new paths of the
other one are lost (`verifyTwice_loses`). A request may also raise between
moving a photo and writing its path, at the thumbnail or in the statement;
then nobody knows where the photo is. And a name that has been freed may
be given to another photo, for which a request then looks under the path
of its own.

## What is proved

The row is a register of places in the sense of `Register`: photos are
moved first and entered later. Moves that have not been entered yet are
kept in the notes of the request that has made them (`PhotoNotes`), and as
long as each step minds the paths (`MindsPaths`) the row and the notes
together account for every photo (`PhotosInv`). So when all requests have
ended, and have nothing left to enter, each photo is under its path
(`photosKept_of_run`), although the requests move photos from under each
other and names are used again.
-/

namespace VisionBill

/-! ## Paths of photos

Photos and thumbnails have names of different forms, and a photo that is
moved gets a name with the receipt in it. So a thumbnail is never taken
for a photo. -/

/-- A path with the suffix that uploaded photos get. -/
def IsPng (path : FilePath) : Prop := pathSuffix path = ".png"

theorem isPng_of_toList {path : FilePath} {l : List Char} {c : Char} (hc : c ≠ '/')
    (h : path.toList = l ++ c :: ".png".toList) : IsPng path := by
  have hname : pathName path = ((l.rtakeWhile (· ≠ '/') ++ [c]) ++ ['.']) ++ ['p', 'n', 'g'] := by
    unfold pathName
    rw [h]
    simp [List.rtakeWhile, hc]
  have hextension : (pathName path).rtakeWhile (· ≠ '.') = ['p', 'n', 'g'] := by
    rw [hname]
    exact rtakeWhile_append (fun _ => by simp) (by simp)
  unfold IsPng pathSuffix
  dsimp only
  rw [hextension]
  refine if_neg ?_
  rw [hname]
  simp

/-- What a photo is called in the end has its suffix. The name is made of
the identifier of the receipt, with some characters in front if that name
is taken. -/
theorem isPng_permDestination {files : Files} {saveDir : FilePath} {hex : String}
    {path : FilePath} {receiptId : UUID} (h : IsPng path) :
    IsPng (files.permDestination saveDir hex path receiptId) := by
  have hne : (uuidText receiptId).toList ≠ [] := fun hnil => by
    rw [toList_uuidText] at hnil
    simp at hnil
  -- the UUID is in front of the suffix in both names
  have hname : ∀ front : String,
      IsPng (pathJoin saveDir (front ++ ("receipt_" ++ uuidText receiptId ++ ".png"))) := by
    intro front
    have hc : (uuidText receiptId).toList.getLast hne ≠ '/' := fun heq =>
      slash_not_mem_uuidText receiptId (heq ▸ List.getLast_mem hne)
    refine isPng_of_toList (l := dirPrefix saveDir ++ front.toList ++ "receipt_".toList
      ++ (uuidText receiptId).toList.dropLast) hc ?_
    simp only [toList_pathJoin, String.toList_append, List.append_assoc]
    rw [← List.singleton_append, ← List.append_assoc (List.dropLast _),
      List.dropLast_append_getLast hne]
  unfold Files.permDestination
  rw [show pathSuffix path = ".png" from h]
  dsimp only
  split
  · exact hname (hex ++ "_")
  · have hplain := hname ""
    rwa [String.empty_append] at hplain

theorem suffix_of_isPng {path : FilePath} (h : IsPng path) :
    ['p', 'n', 'g'] <:+ path.toList := by
  unfold IsPng pathSuffix at h
  dsimp only at h
  split at h
  · exact absurd h (by decide)
  · have hextension := congrArg String.toList h
    rw [String.toList_ofList] at hextension
    have htail : (pathName path).rtakeWhile (· ≠ '.') = ['p', 'n', 'g'] := by
      injection hextension
    rw [← htail]
    exact (List.rtakeWhile_suffix _ _).trans (List.rtakeWhile_suffix _ _)

/-- A thumbnail is not called like a photo. -/
theorem not_isPng_thumbFor (path : FilePath) : ¬ IsPng (thumbFor path) := by
  intro h
  obtain ⟨l, hl⟩ := suffix_of_isPng h
  have hlast := congrArg List.getLast? hl
  unfold thumbFor at hlast
  rw [toList_pathJoin, String.toList_append] at hlast
  simp at hlast

/-- **What happens to photos** when one is looked for: nothing if it is
not there, and otherwise that it is moved. Thumbnails are files as well,
but no photo is called like one. -/
theorem Files.storePermImage_photos (files : Files) (saveDir : FilePath) (hex : String)
    (path : FilePath) (receiptId : UUID) :
    (files path = none
        ∧ files.storePermImage saveDir hex path receiptId = (files, (none, none)))
      ∨ ∃ bytes thumb, files path = some bytes
        ∧ (files.storePermImage saveDir hex path receiptId).2
          = (some (files.permDestination saveDir hex path receiptId), thumb)
        ∧ ∀ p, IsPng p → (files.storePermImage saveDir hex path receiptId).1 p
          = if p = files.permDestination saveDir hex path receiptId then some bytes
            else if p = path then none else files p := by
  unfold Files.storePermImage Files.exists?
  cases hfile : files path with
  | none => exact .inl ⟨rfl, rfl⟩
  | some bytes =>
    refine .inr ?_
    rw [Option.isSome_some, if_pos rfl]
    dsimp only
    generalize files.permDestination saveDir hex path receiptId = destination
    have hmove : ∀ p, files.move path destination p
        = if p = destination then some bytes else if p = path then none else files p := by
      intro p
      unfold Files.move
      rw [hfile]
    split
    · refine ⟨bytes, _, rfl, rfl, fun p hp => ?_⟩
      -- a thumbnail is moved as well, and no photo is called like one
      have hne : ∀ q, p ≠ thumbFor q := fun q heq => not_isPng_thumbFor q (heq ▸ hp)
      show (if p = thumbFor destination then _ else if p = thumbFor path then none
        else files.move path destination p) = _
      rw [if_neg (hne _), if_neg (hne _), hmove]
    · exact ⟨bytes, _, rfl, rfl, fun p _ => hmove p⟩

/-! ## What requests know of the paths

Each request has read a list of paths, and goes on with that. The notes
record what it has read, found and written, and the condition compares
them with the row. -/

/-- What is noted of requests that move photos: the paths that each of
them knows, how many it has looked for, and the moves that it has not
written yet. -/
structure PhotoNotes where
  /-- The paths that a request has itself last read or written. -/
  known : ℕ → List FilePath
  /-- How many photos it has looked for. -/
  looked : ℕ → ℕ
  /-- Photos that have been moved, while their new paths are not
  written. -/
  moves : List (Register.Move ℕ FilePath Bytes)

namespace PhotoNotes

/-- Nothing is noted. -/
def empty : PhotoNotes := ⟨fun _ => [], fun _ => 0, []⟩

/-- The move of one photo, if it has been moved. -/
def moved (t : ℕ) (path : FilePath) (newPath : Option FilePath) (thing : Bytes) :
    List (Register.Move ℕ FilePath Bytes) :=
  newPath.toList.map fun destination => ⟨t, path, destination, thing⟩

/-- A request reads the paths. -/
def reads (n : PhotoNotes) (t : ℕ) (paths : List FilePath) : PhotoNotes :=
  { n with known := Function.update n.known t paths, looked := Function.update n.looked t 0 }

/-- It looks for a photo, and has moved it or not. -/
def looks (n : PhotoNotes) (t : ℕ) (path : FilePath) (newPath : Option FilePath)
    (thing : Bytes) : PhotoNotes :=
  { n with
    looked := Function.update n.looked t (n.looked t + 1)
    moves := moved t path newPath thing ++ n.moves }

/-- It writes paths, that of a photo it has moved among them. -/
def writes (n : PhotoNotes) (t : ℕ) (paths : List FilePath) : PhotoNotes :=
  { n with
    known := Function.update n.known t paths
    moves := n.moves.filter fun m => m.mover ≠ t }

/-- What is noted of one request. The proofs about a handler are in these
terms, and do not mention the others. -/
structure Own where
  known : List FilePath
  looked : ℕ
  moves : List (Register.Move ℕ FilePath Bytes)

/-- What is noted of one request. -/
def own (n : PhotoNotes) (t : ℕ) : Own where
  known := n.known t
  looked := n.looked t
  moves := n.moves.filter fun m => m.mover = t

variable {n : PhotoNotes} {t t' : ℕ} {path : FilePath} {newPath : Option FilePath}
  {thing : Bytes} {paths : List FilePath}

theorem mover_of_mem_moved {m : Register.Move ℕ FilePath Bytes}
    (h : m ∈ moved t path newPath thing) : m.mover = t := by
  obtain ⟨destination, -, rfl⟩ := List.mem_map.mp h
  rfl

theorem own_reads : (n.reads t paths).own t = ⟨paths, 0, (n.own t).moves⟩ := by
  simp [own, reads]

theorem own_reads_ne (h : t' ≠ t) : (n.reads t paths).own t' = n.own t' := by
  simp [own, reads, Function.update_of_ne h]

theorem own_looks : (n.looks t path newPath thing).own t
    = ⟨n.known t, n.looked t + 1, moved t path newPath thing ++ (n.own t).moves⟩ := by
  have hmoved : (moved t path newPath thing).filter (fun m => m.mover = t)
      = moved t path newPath thing :=
    List.filter_eq_self.mpr fun m hm => decide_eq_true (mover_of_mem_moved hm)
  simp [own, looks, hmoved]

theorem own_looks_ne (h : t' ≠ t) : (n.looks t path newPath thing).own t' = n.own t' := by
  have hmoved : (moved t path newPath thing).filter (fun m => m.mover = t') = [] := by
    refine List.filter_eq_nil_iff.mpr fun m hm heq => ?_
    exact h ((of_decide_eq_true heq).symm.trans (mover_of_mem_moved hm))
  simp [own, looks, hmoved, Function.update_of_ne h]

theorem own_writes : (n.writes t paths).own t = ⟨paths, n.looked t, []⟩ := by
  simp [own, writes, List.filter_filter]

theorem own_writes_ne (h : t' ≠ t) : (n.writes t paths).own t' = n.own t' := by
  have hmoves : (n.moves.filter fun m => m.mover ≠ t).filter (fun m => m.mover = t')
      = n.moves.filter fun m => m.mover = t' := by
    rw [List.filter_filter]
    refine List.filter_congr fun m _ => ?_
    by_cases hm : m.mover = t'
    · simp [hm, h]
    · simp [hm]
  simp only [own, writes, hmoves, Function.update_of_ne h]

/-- A request's own moves, and those of the others. -/
theorem moves_perm : n.moves.Perm ((n.own t).moves ++ n.moves.filter fun m => m.mover ≠ t) := by
  have hnot : (fun m : Register.Move ℕ FilePath Bytes => decide (m.mover ≠ t))
      = fun m => !decide (m.mover = t) := funext fun m => decide_not
  rw [hnot]
  exact (List.filter_append_perm _ _).symm

end PhotoNotes

section Verify

variable [CaseFolding]

/-- The columns of an image row in which paths are written. They are
written by different statements, and a stale list overwrites only its
own. -/
inductive PathColumn
  | imagePath
  | additionalImages

/-- The paths of a column. -/
def PathColumn.of : PathColumn → List FilePath → List FilePath
  | imagePath, paths => paths.take 1
  | additionalImages, paths => paths.drop 1

/-- The path under which an operation looks for a photo. -/
def Op.looksFor? : Op → Option FilePath
  | .storePermImage path _ => some path
  | _ => none

/-- The image row and the column in which an operation writes paths. -/
def Op.writesPaths? : Op → Option (UUID × PathColumn)
  | .updateImagePath imageId _ => some (imageId, .imagePath)
  | .updateAdditionalImages imageId _ => some (imageId, .additionalImages)
  | _ => none

/-- The paths that an image row holds, the primary one first. -/
def World.photoPaths (w : World) (imageId : UUID) : List FilePath :=
  (w.db.images.get? imageId).elim [] fun image => image.parts.map ImagePart.imagePath

/-- What is noted of an operation. The notes say what a request has last
read, looked for and written, and no request sees those of another. -/
def PhotoNotes.note (t : ℕ) (w : World) :
    (op : Op) → Except Exn op.Ret → PhotoNotes → PhotoNotes
  | .getImage _ _, r, n =>
    match (r : Except Exn (Option ImageRecord)) with
    | .ok (some image) => n.reads t (image.parts.map ImagePart.imagePath)
    | _ => n
  | .storePermImage path _, r, n =>
    match (r : Except Exn (Option FilePath × Option FilePath)) with
    | .ok paths => n.looks t path paths.1 ((w.files path).getD [])
    | .error _ => n
  | .updateImagePath _ path, r, n =>
    match (r : Except Exn Unit) with
    | .ok _ => n.writes t (path :: (n.known t).drop 1)
    | .error _ => n
  | .updateAdditionalImages _ parts, r, n =>
    match (r : Except Exn Unit) with
    | .ok _ => n.writes t ((n.known t).take 1 ++ parts.map ImagePart.imagePath)
    | .error _ => n
  | _, _, n => n

/-- **What is asked of the steps**: where a request looks for a photo
there is nothing or that photo, and nothing is raised at its thumbnail
once it has been moved; and paths are only written over those that the
same request has last read or written, which does not fail either. -/
def MindsPaths (settings : Settings) (photos : List Bytes) (t : ℕ) (s : Noted World PhotoNotes)
    (op : Op) (c : Choice) : Prop :=
  (∀ path ∈ op.looksFor?, c.thumbnailFailure = none
      ∧ ∀ bytes ∈ s.state.files path, photos[s.notes.looked t]? = some bytes)
    ∧ ∀ write ∈ op.writesPaths?,
      write.2.of (s.state.photoPaths write.1) = write.2.of (s.notes.known t)
        ∧ (s.state.exec settings op c).all fun result => result.2.isOk

instance (settings : Settings) (photos : List Bytes) (t : ℕ) (s : Noted World PhotoNotes)
    (op : Op) (c : Choice) : Decidable (MindsPaths settings photos t s op c) := by
  unfold MindsPaths
  infer_instance

/-- The photos are accounted for by the image row of a receipt, and by the
moves that are not written yet. -/
structure PhotosInv (receiptId imageId : UUID) (photos : List Bytes)
    (s : Noted World PhotoNotes) : Prop where
  receipt : ∀ r, s.state.db.receipts.get? receiptId = some r → r.imageId = some imageId
  length : (s.state.photoPaths imageId).length = photos.length
  png : ∀ path ∈ s.state.photoPaths imageId, IsPng path
  balanced : Register.Balanced IsPng s.state.files (s.state.photoPaths imageId) photos
    s.notes.moves

/-- What the requests have to keep. The guard is the condition on their
steps, and nobody touches the notes of another. -/
def photosDiscipline (settings : Settings) (receiptId imageId : UUID) (photos : List Bytes) :
    Discipline Op.Ret Exn (Noted World PhotoNotes) Choice where
  exec := Noted.exec (fun _ => World.exec settings) PhotoNotes.note
  guard := MindsPaths settings photos
  Inv := PhotosInv receiptId imageId photos
  Rely := fun t s s' => s'.notes.own t = s.notes.own t
  Ok := fun _ _ _ _ => True
  rely_refl := fun _ _ => rfl
  rely_trans := fun _ _ _ _ h h' => h'.trans h

/-! ## What the operations keep

The invariant says that every photo is at the path of the row, or is on
its way: moved by a request that has not written the path yet. -/

variable {settings : Settings} {receiptId imageId : UUID} {photos : List Bytes} {t : ℕ}
  {own : PhotoNotes.Own}

/-- What an operation leaves that has nothing to do with photos. It may
delete the receipt, but it does not give it another image. -/
structure World.SamePhotos (receiptId imageId : UUID) (w w' : World) : Prop where
  files : w'.files = w.files
  paths : w'.photoPaths imageId = w.photoPaths imageId
  receipt : ∀ r, w'.db.receipts.get? receiptId = some r →
    ∃ old, w.db.receipts.get? receiptId = some old ∧ old.imageId = r.imageId

omit [CaseFolding] in
theorem World.SamePhotos.of_db {w w' : World} (hfiles : w'.files = w.files) (hdb : w'.db = w.db) :
    World.SamePhotos receiptId imageId w w' where
  files := hfiles
  paths := by rw [photoPaths, hdb, photoPaths]
  receipt r hr := ⟨r, hdb ▸ hr, rfl⟩

omit [CaseFolding] in
theorem PhotosInv.of_same {s s' : Noted World PhotoNotes} (h : PhotosInv receiptId imageId photos s)
    (hsame : World.SamePhotos receiptId imageId s.state s'.state)
    (hmoves : s'.notes.moves = s.notes.moves) : PhotosInv receiptId imageId photos s' where
  receipt r hr := by
    obtain ⟨old, hold, heq⟩ := hsame.receipt r hr
    exact heq ▸ h.receipt old hold
  length := by rw [hsame.paths, h.length]
  png := by
    rw [hsame.paths]
    exact h.png
  balanced := by
    rw [hsame.files, hsame.paths, hmoves]
    exact h.balanced

omit [CaseFolding] in
/-- The paths of an image row after a statement that writes it. -/
theorem World.photoPaths_of_writes {w w' : World} {f : ImageRecord → ImageRecord}
    (h : WritesImage w.db imageId f w'.db) : w'.photoPaths imageId
      = (w.db.images.get? imageId).elim [] fun i => (f i).parts.map ImagePart.imagePath := by
  rw [photoPaths, h.get, if_pos rfl, Option.elim_map]
  rfl

omit [CaseFolding] in
/-- **Paths are written**, perhaps with a new one at one place, that of a
photo which the request has moved. -/
theorem PhotosInv.written {s : Noted World PhotoNotes} {w : World}
    (h : PhotosInv receiptId imageId photos s) (hfiles : w.files = s.state.files)
    (hreceipts : w.db.receipts = s.state.db.receipts) {before after known : List FilePath}
    {path : FilePath} {newPath : Option FilePath} {thing : Bytes}
    (hpaths : s.state.photoPaths imageId = before ++ path :: after)
    (hwritten : w.photoPaths imageId = before ++ newPath.getD path :: after)
    (hmoves : (s.notes.own t).moves = PhotoNotes.moved t path newPath thing)
    (hthing : ∀ p ∈ newPath, photos[before.length]? = some thing ∧ IsPng p) :
    PhotosInv receiptId imageId photos ⟨w, s.notes.writes t known⟩ := by
  have hlength := h.length
  have hpng := h.png
  have hbalanced := h.balanced
  have hperm := PhotoNotes.moves_perm (n := s.notes) (t := t)
  rw [hpaths] at hlength hpng hbalanced
  rw [hmoves] at hperm
  refine ⟨by rw [hreceipts]; exact h.receipt, ?_, fun p hp => ?_, ?_⟩
  · rw [← hlength, hwritten, List.length_append, List.length_append]
    rfl
  · rw [hwritten, List.mem_append, List.mem_cons] at hp
    rcases hp with hp | rfl | hp
    · exact hpng p (List.mem_append_left _ hp)
    · cases hnew : newPath with
      | none => exact hpng path (List.mem_append_right _ List.mem_cons_self)
      | some p => exact (hthing p hnew).2
    · exact hpng p (List.mem_append_right _ (List.mem_cons_of_mem path hp))
  · rw [hfiles, hwritten]
    cases newPath with
    | none =>
      -- nothing has been moved, so there is nothing to enter
      have hnone : s.notes.moves.filter (fun m => m.mover = t) = [] := hmoves
      have hsame : s.notes.moves.filter (fun m => m.mover ≠ t) = s.notes.moves :=
        List.filter_eq_self.mpr fun m hm => decide_eq_true fun heq =>
          List.filter_eq_nil_iff.mp hnone m hm (decide_eq_true heq)
      show Register.Balanced _ _ _ _ (s.notes.moves.filter fun m => m.mover ≠ t)
      rw [hsame]
      exact hbalanced
    | some p =>
      exact Register.Balanced.enter (m := ⟨t, path, p, thing⟩) hbalanced (hthing p rfl).1 hperm

/-- A part of a handler that a request runs among others, with what is
noted of the request before and after it. If it raises, no move is left to
be written. -/
def Handler.Enters (settings : Settings) (receiptId imageId : UUID) (photos : List Bytes) (t : ℕ)
    {α : Type} (p : Handler α) (own : PhotoNotes.Own) (Q : α → PhotoNotes.Own → Prop) : Prop :=
  ∀ s : Noted World PhotoNotes, s.notes.own t = own →
    (photosDiscipline settings receiptId imageId photos).wp t p
      (fun a s => Q a (s.notes.own t)) (fun _ s => (s.notes.own t).moves = []) s

namespace Handler

theorem enters_pure {α : Type} {a : α} {Q : α → PhotoNotes.Own → Prop} (h : Q a own) :
    Enters settings receiptId imageId photos t (pure a) own Q := by
  rintro s rfl
  exact h

theorem enters_throw {α : Type} {e : Exn} {Q : α → PhotoNotes.Own → Prop} (h : own.moves = []) :
    Enters settings receiptId imageId photos t (throw e : Handler α) own Q := by
  rintro s rfl
  exact h

theorem enters_bind {α β : Type} {p : Handler α} {f : α → Handler β}
    {Q : α → PhotoNotes.Own → Prop} {Q' : β → PhotoNotes.Own → Prop}
    (hp : Enters settings receiptId imageId photos t p own Q)
    (hf : ∀ a own', Q a own' → Enters settings receiptId imageId photos t (f a) own' Q') :
    Enters settings receiptId imageId photos t (p >>= f) own Q' := fun s hs =>
  Discipline.wp_bind.mpr
    (Discipline.wp_mono (hp s hs) (fun a s' ha => hf a _ ha s' rfl) fun _ _ he => he)

/-- A single operation. -/
theorem enters_perform {op : Op} {Q : op.Ret → PhotoNotes.Own → Prop}
    (h : ∀ (s : Noted World PhotoNotes) c w r, s.notes.own t = own →
      PhotosInv receiptId imageId photos s → MindsPaths settings photos t s op c →
      s.state.exec settings op c = some (w, r) →
        PhotosInv receiptId imageId photos ⟨w, PhotoNotes.note t s.state op r s.notes⟩
          ∧ (∀ t', t' ≠ t → (PhotoNotes.note t s.state op r s.notes).own t' = s.notes.own t')
          ∧ (∀ a, r = .ok a → Q a ((PhotoNotes.note t s.state op r s.notes).own t))
          ∧ ∀ e, r = .error e → ((PhotoNotes.note t s.state op r s.notes).own t).moves = []) :
    Enters settings receiptId imageId photos t (perform op) own Q := by
  intro s hs
  refine Discipline.wp_perform fun s₁ hrely hinv c r s₂ hguard hexec => ?_
  have hnoted : Noted.exec (fun _ => World.exec settings) PhotoNotes.note t s₁ op c
      = some (s₂, r) := hexec
  obtain ⟨hworld, hnotes⟩ := Noted.exec_eq hnoted
  obtain ⟨hinv', hothers, hok, herror⟩ := h s₁ c s₂.state r (hrely.trans hs) hinv hguard hworld
  rw [← hnotes] at hinv' hothers hok herror
  exact ⟨⟨hinv', trivial, hothers⟩, hok, herror⟩

/-- An operation that has nothing to do with photos. -/
theorem enters_quiet {op : Op} {Q : op.Ret → PhotoNotes.Own → Prop} (hmoves : own.moves = [])
    (hnote : ∀ w r n, PhotoNotes.note t w op r n = n)
    (heffect : ∀ (w : World) c w' r, w.exec settings op c = some (w', r) →
      World.SamePhotos receiptId imageId w w')
    (hQ : ∀ (w : World) c w' a,
      (∀ r, w.db.receipts.get? receiptId = some r → r.imageId = some imageId) →
      w.exec settings op c = some (w', .ok a) → Q a own) :
    Enters settings receiptId imageId photos t (perform op) own Q := by
  refine enters_perform fun s c w r hown hinv _ hexec => ?_
  rw [hnote]
  refine ⟨hinv.of_same (heffect _ c w r hexec) rfl, fun _ _ => rfl, fun a ha => ?_, fun _ _ => ?_⟩
  · subst ha
    rw [hown]
    exact hQ _ c w a hinv.receipt hexec
  · rw [hown]
    exact hmoves

theorem enters_performGetReceipt {caller : Caller} (hmoves : own.moves = []) :
    Enters settings receiptId imageId photos t (perform (.getReceipt caller receiptId)) own
      fun row own' => own' = own
        ∧ ∀ r : ReceiptRecord, row = some r → r.imageId = some imageId := by
  refine enters_quiet hmoves (fun _ _ _ => rfl) (fun w c w' r hexec => ?_)
    fun w c w' row hinv hexec => ⟨rfl, fun r hr => ?_⟩
  · rcases World.exec_cases hexec with ⟨e, -, rfl, -⟩ | ⟨-, hperform⟩
    · exact .of_db rfl rfl
    · obtain ⟨rfl, -⟩ := Prod.mk.inj hperform
      exact .of_db rfl rfl
  · rcases World.exec_cases hexec with ⟨e, -, -, he⟩ | ⟨-, hperform⟩
    · exact absurd he (by simp)
    · obtain ⟨-, hrow⟩ := Prod.mk.inj hperform
      exact hinv r (Option.filter_eq_some_iff.mp ((Except.ok.inj hrow).trans hr)).1

theorem enters_performVerifyReceipt {caller : Caller} (hmoves : own.moves = []) :
    Enters settings receiptId imageId photos t (perform (.verifyReceipt caller receiptId)) own
      fun _ own' => own' = own := by
  refine enters_quiet hmoves (fun _ _ _ => rfl) (fun w c w' r hexec => ?_) fun _ _ _ _ _ _ => rfl
  rcases World.exec_cases hexec with ⟨e, -, rfl, -⟩ | ⟨-, hperform⟩
  · exact .of_db rfl rfl
  · obtain ⟨row, hok, hw, -⟩ | ⟨rfl, -⟩ := World.writeRow?_eq hperform
    · have hwrite := Db.verifyReceipt_spec (Except.ok.inj hok)
      refine ⟨by rw [hw]; rfl, ?_, fun r hr => ?_⟩
      · rw [World.photoPaths, hwrite.images]
        rfl
      · rw [hwrite.get, if_pos rfl] at hr
        obtain ⟨old, hold, rfl⟩ := Option.map_eq_some_iff.mp hr
        exact ⟨old, hold, rfl⟩
    · exact .of_db rfl rfl

theorem enters_updateImageThumbnailPath {path : FilePath} (hmoves : own.moves = []) :
    Enters settings receiptId imageId photos t
      (perform (.updateImageThumbnailPath imageId path)) own fun _ own' => own' = own := by
  refine enters_quiet hmoves (fun _ _ _ => rfl) (fun w c w' r hexec => ?_) fun _ _ _ _ _ _ => rfl
  rcases World.exec_cases hexec with ⟨e, -, rfl, -⟩ | ⟨-, hperform⟩
  · exact .of_db rfl rfl
  · obtain ⟨hok, hw, -⟩ | ⟨rfl, -⟩ := World.write_eq hperform
    · have hwrite := Db.updateImageThumbnailPath_spec hok
      refine ⟨by rw [hw]; rfl, ?_, fun r hr => ⟨r, ?_, rfl⟩⟩
      · rw [World.photoPaths_of_writes hwrite]
        rfl
      · rw [hwrite.frame] at hr
        exact hr
    · exact .of_db rfl rfl

/-- The paths that a request reads are those of the row. -/
theorem enters_getImage {caller : Caller} (hmoves : own.moves = []) :
    Enters settings receiptId imageId photos t (perform (.getImage caller imageId)) own
      fun image own' => own'.moves = [] ∧ ∀ i : ImageRecord, image = some i →
        i.id = imageId ∧ own' = ⟨i.parts.map ImagePart.imagePath, 0, []⟩
          ∧ ∀ path ∈ i.parts.map ImagePart.imagePath, IsPng path := by
  refine enters_perform fun s c w r hown hinv _ hexec => ?_
  rcases World.exec_cases hexec with ⟨e, -, rfl, rfl⟩ | ⟨-, hperform⟩
  · refine ⟨hinv.of_same (.of_db rfl rfl) rfl, fun _ _ => rfl, fun a ha => absurd ha (by simp), ?_⟩
    intro e _
    rw [← hown] at hmoves
    exact hmoves
  · obtain ⟨rfl, rfl⟩ := Prod.mk.inj hperform
    have hsame : World.SamePhotos receiptId imageId s.state (s.state.started c) := .of_db rfl rfl
    generalize himage : (s.state.started c).db.imageFor? caller imageId = image
    cases image with
    | none =>
      refine ⟨hinv.of_same hsame rfl, fun _ _ => rfl, fun a ha => ⟨?_, fun i hi => ?_⟩,
        fun e he => absurd he (by simp)⟩
      · rw [← hown] at hmoves
        exact hmoves
      · exact absurd ((Except.ok.inj ha).trans hi) (by simp)
    | some image =>
      have hget : s.state.db.images.get? imageId = some image :=
        (Option.filter_eq_some_iff.mp himage).1
      have hpaths : s.state.photoPaths imageId = image.parts.map ImagePart.imagePath := by
        rw [World.photoPaths, hget]
        rfl
      refine ⟨hinv.of_same hsame rfl, fun t' ht' => PhotoNotes.own_reads_ne ht', fun a ha => ?_,
        fun e he => absurd he (by simp)⟩
      obtain rfl := Except.ok.inj ha
      have hreads : (s.notes.reads t (image.parts.map ImagePart.imagePath)).own t
          = ⟨image.parts.map ImagePart.imagePath, 0, []⟩ := by
        rw [PhotoNotes.own_reads, hown, hmoves]
      refine ⟨congrArg PhotoNotes.Own.moves hreads, fun i hi => ?_⟩
      obtain rfl := Option.some.inj hi
      exact ⟨(Table.get?_eq_some_iff.mp hget).2, hreads, hpaths ▸ hinv.png⟩

/-- **A photo is looked for**, and moved if it is there. -/
theorem enters_storePermImage {path : FilePath} {known : List FilePath} {n : ℕ}
    (hpng : IsPng path) :
    Enters settings receiptId imageId photos t (perform (.storePermImage path receiptId))
      ⟨known, n, []⟩ fun paths own' => ∃ thing, (∀ newPath ∈ (paths.1 : Option FilePath),
          photos[n]? = some thing ∧ IsPng newPath)
        ∧ own' = ⟨known, n + 1, PhotoNotes.moved t path paths.1 thing⟩ := by
  refine enters_perform fun s c w r hown hinv hguard hexec => ?_
  obtain ⟨hpossible, -⟩ := World.exec_eq hexec
  have hknown : s.notes.known t = known := congrArg PhotoNotes.Own.known hown
  have hlooked : s.notes.looked t = n := congrArg PhotoNotes.Own.looked hown
  have hmoves : (s.notes.own t).moves = [] := congrArg PhotoNotes.Own.moves hown
  rcases World.exec_cases hexec with ⟨e, -, rfl, rfl⟩ | ⟨-, hperform⟩
  · exact ⟨hinv.of_same (.of_db rfl rfl) rfl, fun _ _ => rfl, fun a ha => absurd ha (by simp),
      fun _ _ => hmoves⟩
  · have hphotos := s.state.files.storePermImage_photos settings.saveDir c.hex path receiptId
    -- nothing is raised at the thumbnail
    have hstore : (s.state.started c).storePermImage settings c path receiptId = (w, r) := hperform
    unfold World.storePermImage at hstore
    rw [(hguard.1 path rfl).1] at hstore
    have hresult : ({ s.state.started c with
        files := (s.state.files.storePermImage settings.saveDir c.hex path receiptId).1 },
        Except.ok (s.state.files.storePermImage settings.saveDir c.hex path receiptId).2)
          = (w, r) := hstore
    generalize s.state.files.storePermImage settings.saveDir c.hex path receiptId = result
      at hphotos hresult
    obtain ⟨rfl, rfl⟩ := Prod.mk.inj hresult
    have hstep : Register.Balanced IsPng result.1 (s.state.photoPaths imageId) photos
          (PhotoNotes.moved t path result.2.1 ((s.state.files path).getD []) ++ s.notes.moves)
        ∧ ∀ newPath ∈ result.2.1,
          photos[n]? = some ((s.state.files path).getD []) ∧ IsPng newPath := by
      obtain ⟨hnone, rfl⟩ | ⟨bytes, thumb, hfile, hnew, hstore⟩ := hphotos
      · exact ⟨hinv.balanced, fun newPath hnew => absurd hnew (by simp)⟩
      · rw [hnew, hfile]
        refine ⟨hinv.balanced.move hfile ?_ hstore, fun newPath hmem => ?_⟩
        · -- a file is never moved over another one
          exact Option.not_isSome_iff_eq_none.mp (Bool.not_eq_true _ ▸ hpossible.2.2.2.2)
        · obtain rfl := Option.some.inj hmem
          rw [← hlooked]
          exact ⟨(hguard.1 path rfl).2 bytes hfile, isPng_permDestination hpng⟩
    have hlooks : (s.notes.looks t path result.2.1 ((s.state.files path).getD [])).own t
        = ⟨known, n + 1, PhotoNotes.moved t path result.2.1 ((s.state.files path).getD [])⟩ := by
      rw [PhotoNotes.own_looks, hknown, hlooked, hmoves, List.append_nil]
    refine ⟨⟨hinv.receipt, hinv.length, hinv.png, hstep.1⟩,
      fun t' ht' => PhotoNotes.own_looks_ne ht', fun a ha => ?_, fun e he => absurd he (by simp)⟩
    obtain rfl := Except.ok.inj ha
    exact ⟨_, hstep.2, hlooks⟩

/-- A statement that returns nothing and does not fail has written. -/
theorem written_of_exec {s w : World} {c : Choice} {result : Except DbError Db}
    {r : Except Exn Unit} (hok : r.isOk = true)
    (h : (∃ e, c.failure = some e ∧ w = s.started c ∧ r = .error e)
      ∨ (c.failure = none ∧ (s.started c).write result = (w, r))) :
    result = .ok w.db ∧ w.files = s.files ∧ r = .ok () := by
  have hraised : ∀ e, r ≠ .error e := by
    rintro e rfl
    exact absurd hok (by simp [Except.isOk, Except.toBool])
  rcases h with ⟨e, -, -, he⟩ | ⟨-, hwrite⟩
  · exact absurd he (hraised e)
  · obtain ⟨hresult, hw, hr⟩ | ⟨-, e, he⟩ := World.write_eq hwrite
    · exact ⟨hresult, by rw [hw]; rfl, hr⟩
    · exact absurd he (hraised e)

/-- The path of the first photo is written. -/
theorem enters_updateImagePath {path newPath : FilePath} {rest : List FilePath} {n : ℕ}
    {thing : Bytes} (hthing : photos[0]? = some thing) (hpng : IsPng newPath) :
    Enters settings receiptId imageId photos t (perform (.updateImagePath imageId newPath))
      ⟨path :: rest, n, PhotoNotes.moved t path (some newPath) thing⟩
      fun _ own' => own' = ⟨newPath :: rest, n, []⟩ := by
  refine enters_perform fun s c w r hown hinv hguard hexec => ?_
  obtain ⟨hcolumn, hok⟩ := hguard.2 (imageId, .imagePath) rfl
  rw [hexec] at hok
  obtain ⟨hresult, hfiles, rfl⟩ := written_of_exec hok (World.exec_cases hexec)
  have hwrites : WritesImage s.state.db imageId (fun i => { i with imagePath := some newPath })
      w.db := Db.updateImagePath_spec hresult
  have hknown : s.notes.known t = path :: rest := congrArg PhotoNotes.Own.known hown
  have hlooked : s.notes.looked t = n := congrArg PhotoNotes.Own.looked hown
  -- the row still holds the path that the request has read
  obtain ⟨after, hafter⟩ : ∃ after, s.state.photoPaths imageId = [] ++ path :: after := by
    rw [hknown] at hcolumn
    cases hpaths : s.state.photoPaths imageId with
    | nil => exact absurd (hpaths ▸ hcolumn) (by simp [PathColumn.of])
    | cons p after =>
      rw [hpaths] at hcolumn
      obtain rfl : p = path := List.head_eq_of_cons_eq hcolumn
      exact ⟨after, rfl⟩
  have hwritten : w.photoPaths imageId = [] ++ (some newPath).getD path :: after := by
    rw [World.photoPaths_of_writes hwrites]
    unfold World.photoPaths at hafter
    cases himage : s.state.db.images.get? imageId with
    | none => exact absurd (himage ▸ hafter) (by simp)
    | some image =>
      rw [himage] at hafter
      exact congrArg (newPath :: ·) (List.tail_eq_of_cons_eq hafter)
  have hinv' : PhotosInv receiptId imageId photos
      ⟨w, s.notes.writes t (newPath :: (s.notes.known t).drop 1)⟩ := by
    refine hinv.written hfiles (by rw [hwrites.frame]) hafter hwritten
      (congrArg PhotoNotes.Own.moves hown) fun p hp => ?_
    obtain rfl := Option.some.inj hp
    exact ⟨hthing, hpng⟩
  have hown' : (s.notes.writes t (newPath :: (s.notes.known t).drop 1)).own t
      = ⟨newPath :: rest, n, []⟩ := by
    rw [PhotoNotes.own_writes, hknown, hlooked]
    rfl
  exact ⟨hinv', fun t' ht' => PhotoNotes.own_writes_ne ht', fun _ _ => hown',
    fun e he => absurd he (by simp)⟩

/-- The list of the additional photos is written, with the one that was
looked for last. -/
theorem enters_updateAdditionalImages {hd : FilePath} {before after : List ImagePart}
    {part : ImagePart} {paths : Option FilePath × Option FilePath} {n : ℕ} {thing : Bytes}
    (hthing : ∀ p ∈ paths.1, photos[before.length + 1]? = some thing ∧ IsPng p) :
    Enters settings receiptId imageId photos t
      (perform (.updateAdditionalImages imageId (before ++ movedPart paths part :: after)))
      ⟨hd :: (before ++ part :: after).map ImagePart.imagePath, n,
        PhotoNotes.moved t part.imagePath paths.1 thing⟩
      fun _ own' => own' = ⟨hd :: (before ++ movedPart paths part :: after).map
        ImagePart.imagePath, n, []⟩ := by
  refine enters_perform fun s c w r hown hinv hguard hexec => ?_
  obtain ⟨hcolumn, hok⟩ := hguard.2 (imageId, .additionalImages) rfl
  rw [hexec] at hok
  obtain ⟨hresult, hfiles, rfl⟩ := written_of_exec hok (World.exec_cases hexec)
  have hwrites : WritesImage s.state.db imageId
      (fun i => { i with additionalImages := before ++ movedPart paths part :: after }) w.db :=
    Db.updateAdditionalImages_spec hresult
  have hknown : s.notes.known t = hd :: (before ++ part :: after).map ImagePart.imagePath :=
    congrArg PhotoNotes.Own.known hown
  have hlooked : s.notes.looked t = n := congrArg PhotoNotes.Own.looked hown
  rw [hknown] at hcolumn
  -- the row still holds the list that the request knows
  obtain ⟨p, hp⟩ : ∃ p, s.state.photoPaths imageId
      = p :: (before ++ part :: after).map ImagePart.imagePath := by
    cases hpaths : s.state.photoPaths imageId with
    | nil =>
      rw [hpaths] at hcolumn
      exact absurd hcolumn (by simp [PathColumn.of])
    | cons p rest =>
      rw [hpaths] at hcolumn
      exact ⟨p, congrArg (p :: ·) hcolumn⟩
  have hwritten : w.photoPaths imageId
      = p :: (before ++ movedPart paths part :: after).map ImagePart.imagePath := by
    rw [World.photoPaths_of_writes hwrites]
    unfold World.photoPaths at hp
    cases himage : s.state.db.images.get? imageId with
    | none => exact absurd (himage ▸ hp) (by simp)
    | some image =>
      rw [himage] at hp
      exact congrArg (· :: _) (List.head_eq_of_cons_eq hp)
  have hinv' : PhotosInv receiptId imageId photos ⟨w, s.notes.writes t
      ((s.notes.known t).take 1 ++ (before ++ movedPart paths part :: after).map
        ImagePart.imagePath)⟩ := by
    rw [List.map_append, List.map_cons, ← List.cons_append] at hp hwritten
    refine hinv.written hfiles (by rw [hwrites.frame]) hp hwritten
      (congrArg PhotoNotes.Own.moves hown) fun p hp => ?_
    rw [List.length_cons, List.length_map]
    exact hthing p hp
  have hown' : (s.notes.writes t
      ((s.notes.known t).take 1 ++ (before ++ movedPart paths part :: after).map
        ImagePart.imagePath)).own t
      = ⟨hd :: (before ++ movedPart paths part :: after).map ImagePart.imagePath, n, []⟩ := by
    rw [PhotoNotes.own_writes, hknown, hlooked]
    rfl
  exact ⟨hinv', fun t' ht' => PhotoNotes.own_writes_ne ht', fun _ _ => hown',
    fun e he => absurd he (by simp)⟩

/-! ## What the requests keep

The parts of a request are followed in turn, with what it knows. The
condition on its steps is used where a file is moved and where a path is
written. -/

/-- The first photo is moved, and its path is written. -/
theorem enters_movePrimary {path : FilePath} {rest : List FilePath} (hpng : IsPng path) :
    Enters settings receiptId imageId photos t (movePrimary imageId path receiptId)
      ⟨path :: rest, 0, []⟩ fun _ own' => ∃ newPath, own' = ⟨newPath :: rest, 1, []⟩ := by
  refine enters_bind (enters_storePermImage hpng) fun paths own' hpaths => ?_
  obtain ⟨thing, hthing, rfl⟩ := hpaths
  have hthumb : ∀ newPath newThumb, Enters settings receiptId imageId photos t
      (perform (.updateImageThumbnailPath imageId newThumb)) ⟨newPath :: rest, 1, []⟩
      fun _ own' => ∃ newPath, own' = ⟨newPath :: rest, 1, []⟩ := fun newPath newThumb s hs =>
    Discipline.wp_mono (enters_updateImageThumbnailPath rfl s hs) (fun _ _ heq => ⟨newPath, heq⟩)
      fun _ _ he => he
  dsimp only
  split
  · next newPath hnew =>
    obtain ⟨hphoto, hpng'⟩ := hthing newPath hnew
    rw [hnew]
    refine enters_bind (enters_updateImagePath hphoto hpng') fun _ own' hown => ?_
    subst hown
    split
    · exact hthumb newPath _
    · exact enters_pure ⟨newPath, rfl⟩
  · next hnone =>
    rw [hnone]
    split
    · exact hthumb path _
    · exact enters_pure ⟨path, rfl⟩

/-- **The loop**: after each photo the request knows the list that it has
written, and has nothing left to write. -/
theorem enters_moveAdditionalImages (moved parts : List ImagePart) {hd : FilePath}
    (hpng : ∀ part ∈ parts, IsPng part.imagePath) :
    Enters settings receiptId imageId photos t (moveAdditionalImages imageId receiptId moved parts)
      ⟨hd :: (moved ++ parts).map ImagePart.imagePath, moved.length + 1, []⟩
      fun _ own' => own'.moves = [] := by
  induction parts generalizing moved with
  | nil => exact enters_pure rfl
  | cons part parts ih =>
    refine enters_bind (enters_storePermImage (hpng part List.mem_cons_self))
      fun paths own' hpaths => ?_
    obtain ⟨thing, hthing, rfl⟩ := hpaths
    refine enters_bind (enters_updateAdditionalImages hthing) fun _ own' hown => ?_
    subst hown
    have hnext := ih (moved ++ [movedPart paths part]) fun part' hpart' =>
      hpng part' (List.mem_cons_of_mem part hpart')
    rw [List.append_assoc, List.singleton_append, List.length_append] at hnext
    exact hnext

/-- All photos of the image are looked for. -/
theorem enters_moveImage {caller : Caller} (hmoves : own.moves = []) :
    Enters settings receiptId imageId photos t (moveImage caller imageId receiptId) own
      fun _ own' => own'.moves = [] := by
  refine enters_bind (enters_getImage hmoves) fun image own' himage => ?_
  obtain ⟨hmoves', hread⟩ := himage
  cases image with
  | none => exact enters_pure hmoves'
  | some image =>
    obtain ⟨hid, rfl, hpng⟩ := hread image rfl
    dsimp only
    cases hpath : givenPath image.imagePath with
    | none => exact enters_pure rfl
    | some path =>
      have hprimary : image.imagePath.getD "" = path := by
        rw [(Option.filter_eq_some_iff.mp hpath).1]
        rfl
      have hparts : image.parts.map ImagePart.imagePath
          = path :: image.additionalImages.map ImagePart.imagePath := congrArg (· :: _) hprimary
      rw [hparts] at hpng ⊢
      refine enters_bind (enters_movePrimary (hpng path List.mem_cons_self)) fun _ own' hown => ?_
      obtain ⟨newPath, rfl⟩ := hown
      split
      · rw [hid]
        refine enters_moveAdditionalImages [] image.additionalImages fun part hpart => ?_
        exact hpng _ (List.mem_cons_of_mem path (List.mem_map_of_mem hpart))
      · exact enters_pure rfl

/-- **A request that verifies the receipt** leaves nothing to be
written. -/
theorem enters_verifyReceipt {caller : Caller} (hmoves : own.moves = []) :
    Enters settings receiptId imageId photos t (verifyReceipt caller receiptId) own
      fun _ own' => own'.moves = [] := by
  refine enters_bind (enters_performGetReceipt hmoves) fun row own' hrow => ?_
  obtain ⟨rfl, himage⟩ := hrow
  cases row with
  | none => exact enters_throw hmoves
  | some row =>
    dsimp only
    split
    · exact enters_throw hmoves
    · split
      · next i hi =>
        obtain rfl := Option.some.inj (hi.symm.trans (himage row rfl))
        refine enters_bind (enters_moveImage hmoves) fun _ own' hmoves' => ?_
        refine enters_bind (enters_performVerifyReceipt hmoves') fun verified own'' hown => ?_
        subst hown
        cases verified with
        | none => exact enters_throw hmoves'
        | some row => exact enters_pure hmoves'
      · refine enters_bind (enters_performVerifyReceipt hmoves) fun verified own' hown => ?_
        subst hown
        cases verified with
        | none => exact enters_throw hmoves
        | some row => exact enters_pure hmoves

theorem enters_request {caller : Caller} (hmoves : own.moves = []) :
    Enters settings receiptId imageId photos t
      ((Request.verifyReceipt caller receiptId).handler settings) own
      fun _ own' => own'.moves = [] :=
  enters_bind (enters_verifyReceipt hmoves) fun _ _ hmoves' => enters_pure hmoves'

end Handler

/-! ## Every run keeps the photos -/

/-- A request has written the paths of all photos that it has moved. -/
def HasWritten (t : ℕ) (s : Noted World PhotoNotes) : Prop := (s.notes.own t).moves = []

/-- A submission whose receipt is to be verified: the image row of the
receipt, and the photos under its paths. The paths are different, and end
as the upload has named them. Where the files are does not matter, so some
may have been moved already. -/
structure World.Submitted (w : World) (receiptId imageId : UUID) (photos : List Bytes) : Prop where
  receipt : ∀ r, w.db.receipts.get? receiptId = some r → r.imageId = some imageId
  photos : List.Forall₂ (fun path bytes => w.files path = some bytes) (w.photoPaths imageId) photos
  nodup : (w.photoPaths imageId).Nodup
  png : ∀ path ∈ w.photoPaths imageId, IsPng path

/-- The photos are under the paths of the image row, in their order and at
different ones. The user sees what is found under these paths, so a photo
that is elsewhere is lost although its file may still exist. It is asked
when all requests have ended, and not while a photo is being moved. -/
def World.PhotosKept (w : World) (imageId : UUID) (photos : List Bytes) : Prop :=
  List.Forall₂ (fun path bytes => w.files path = some bytes) (w.photoPaths imageId) photos
    ∧ (w.photoPaths imageId).Nodup

/-- One step of any requests that verify a receipt at the same time. -/
abbrev VerifyStep (settings : Settings) (receiptId : UUID) :
    Threads Op.Ret Exn World → Threads.Action Caller Choice → Option (Threads Op.Ret Exn World) :=
  Threads.step (fun caller => (Request.verifyReceipt caller receiptId).handler settings)
    fun _ => World.exec settings

/-- The same with notes. -/
abbrev NotedVerifyStep (settings : Settings) (receiptId : UUID)
    (s : Threads Op.Ret Exn (Noted World PhotoNotes)) (a : Threads.Action Caller Choice) :
    Option (Threads Op.Ret Exn (Noted World PhotoNotes)) :=
  s.step (fun caller => (Request.verifyReceipt caller receiptId).handler settings)
    (Noted.exec (fun _ => World.exec settings) PhotoNotes.note) a

/-- The runs with notes are the runs. -/
theorem verifyRun_iff_noted {w : World} {s : Threads Op.Ret Exn World} :
    Transition.Reachable (VerifyStep settings receiptId) ⟨w, []⟩ s
      ↔ ∃ s', Transition.Reachable (NotedVerifyStep settings receiptId)
          ⟨⟨w, PhotoNotes.empty⟩, []⟩ s' ∧ s'.withoutNotes = s :=
  Threads.reachable_iff_noted ⟨⟨w, PhotoNotes.empty⟩, []⟩

/-- The steps of requests that mind the paths. -/
def MindfulStep (settings : Settings) (photos : List Bytes)
    (s : Threads Op.Ret Exn (Noted World PhotoNotes)) : Threads.Action Caller Choice → Prop
  | .start _ => True
  | .advance t choice => ∀ op k, s.threads[t]? = some (.call op k) →
    MindsPaths settings photos t s.shared op choice

instance (settings : Settings) (photos : List Bytes)
    (s : Threads Op.Ret Exn (Noted World PhotoNotes)) (a : Threads.Action Caller Choice) :
    Decidable (MindfulStep settings photos s a) :=
  match a with
  | .start _ => isTrue trivial
  | .advance t choice => inferInstanceAs (Decidable (∀ op k, s.threads[t]? = some (.call op k) →
    MindsPaths settings photos t s.shared op choice))

/-- The runs of any requests that verify a receipt, and all of whose steps
mind the paths. The requests are of any callers and any number, and they
are mixed in any way. The notes are beside the state, so that a condition
on a step can speak of what its request has read. -/
abbrev MindfulRun (settings : Settings) (receiptId : UUID) (photos : List Bytes) (w : World)
    (s : Threads Op.Ret Exn (Noted World PhotoNotes)) : Prop :=
  Transition.Run (NotedVerifyStep settings receiptId) (MindfulStep settings photos)
    ⟨⟨w, PhotoNotes.empty⟩, []⟩ s

/-- **No photo is lost**: when all requests have ended, whatever they were
and in whatever order they ran, the photos of the submission are under the
paths of the image row, if every step has minded the paths. -/
theorem photosKept_of_run {w : World} {s : Threads Op.Ret Exn (Noted World PhotoNotes)}
    (h : w.Submitted receiptId imageId photos)
    (run : MindfulRun settings receiptId photos w s) (hended : ∀ p ∈ s.threads, p.Ended) :
    s.shared.state.PhotosKept imageId photos := by
  have hinit : PhotosInv receiptId imageId photos ⟨w, PhotoNotes.empty⟩ :=
    ⟨h.receipt, h.photos.length_eq, h.png, .start h.photos h.nodup⟩
  have hrun : Transition.Run (NotedVerifyStep settings receiptId)
      (photosDiscipline settings receiptId imageId photos).stepGuard
      ⟨⟨w, PhotoNotes.empty⟩, []⟩ s :=
    run.mono fun s a hstep => by cases a <;> exact hstep
  have hstays : ∀ t s s', (photosDiscipline settings receiptId imageId photos).Rely t s s' →
      HasWritten t s → HasWritten t s' := fun t s s' hrely hs =>
    (congrArg PhotoNotes.Own.moves hrely).trans hs
  obtain ⟨hinv, hwritten⟩ := Discipline.idle_of_ended hstays
    (fun caller t s _ hs => Handler.enters_request hs s rfl) hinit (fun _ => rfl) hrun hended
  have hmoves : s.shared.notes.moves = [] := by
    refine List.eq_nil_iff_forall_not_mem.mpr fun m hm => ?_
    have hown : s.shared.notes.moves.filter (fun m' => m'.mover = m.mover) = [] :=
      hwritten m.mover
    exact List.filter_eq_nil_iff.mp hown m hm (decide_eq_true rfl)
  have hbalanced := hinv.balanced
  rw [hmoves] at hbalanced
  exact hbalanced.settled hinv.length hinv.png

end Verify

/-! ## Two requests -/

section VerifyTwice

local instance asciiFoldingOfVerify : CaseFolding := asciiFolding

/-- The image row of a receipt on two photos. -/
def rowOnTwoPhotos : ImageRecord where
  id := 1
  originalFilename := none
  mediaType := none
  sizeBytes := none
  imagePath := some "/data/tmp/a.png"
  thumbnailPath := none
  status := .analyzed
  error := none
  receiptId := some 2
  bypassReview := false
  userId := some 1
  createdAt := 0
  analyzedAt := some 0
  processingAt := none
  additionalImages := [{ imagePath := "/data/tmp/b.png" }]
  modelId := none

/-- A receipt on two photos that is not verified. -/
def onTwoPhotos : World where
  db := { Db.empty with
    receipts := ⟨[{ emptyRow 2 1 with imageId := some 1 }], List.nodup_singleton _⟩
    images := ⟨[rowOnTwoPhotos], List.nodup_singleton _⟩ }
  files := fun path =>
    if path = "/data/tmp/a.png" then some [1]
    else if path = "/data/tmp/b.png" then some [2]
    else none
  clock := 0
  issued := [2, 1]

theorem onTwoPhotos_submitted : onTwoPhotos.Submitted 2 1 [[1], [2]] where
  receipt r hr := by
    obtain rfl := Option.some.inj hr
    rfl
  photos := .cons rfl (.cons rfl .nil)
  nodup := by decide
  png := by
    intro path hpath
    unfold IsPng
    rcases List.mem_cons.mp hpath with rfl | hpath
    · decide
    · obtain rfl := List.mem_singleton.mp hpath
      decide

/-- Two requests of the owner, which take their steps in an order. -/
def twoRequests (order : List ℕ) : List (Threads.Action Caller Choice) :=
  [.start ⟨1, false⟩, .start ⟨1, false⟩]
    ++ order.map fun t =>
      .advance t { smoothly 1 [] with hex := if t = 0 then "a1" else "b2" }

/-- Both have read the receipt before one of them verifies it, and the
second one reads the image row when the first one has written it. -/
def oneAfterTheOther : List (Threads.Action Caller Choice) :=
  twoRequests [0, 1, 0, 0, 0, 0, 0, 1, 1, 1, 1, 1, 0, 1]

/-- **The second request moves both photos again**, one of them to where
the other one was, and both are kept. -/
theorem movedTwice_kept :
    ∃ s, MindfulRun plainSettings 2 [[1], [2]] onTwoPhotos s ∧ s.threads.length = 2
      ∧ s.shared.state.photoPaths 1 ≠ onTwoPhotos.photoPaths 1
      ∧ s.shared.state.PhotosKept 1 [[1], [2]] := by
  obtain ⟨s, run, hlength, hended, hmoved⟩ :
      ∃ s, MindfulRun plainSettings 2 [[1], [2]] onTwoPhotos s ∧ s.threads.length = 2
        ∧ (∀ p ∈ s.threads, p.Ended)
        ∧ s.shared.state.photoPaths 1 ≠ onTwoPhotos.photoPaths 1 :=
    Transition.Run.of_exec oneAfterTheOther (by decide +kernel)
  exact ⟨s, run, hlength, hmoved, photosKept_of_run onTwoPhotos_submitted run hended⟩

/-- Both requests read the image row, then the first one moves the
photos. -/
def bothAtOnce : List (Threads.Action Caller Choice) :=
  twoRequests [0, 0, 1, 1, 0, 0, 0, 0, 0, 1, 1, 1, 1]

/-- **The second request finds nothing to move**, writes the list that it
has read, and the path of the second photo is lost. -/
theorem verifyTwice_loses :
    onTwoPhotos.Submitted 2 1 [[1], [2]]
      ∧ ∃ s, Transition.Reachable (VerifyStep plainSettings 2) ⟨onTwoPhotos, []⟩ s
        ∧ (∀ p ∈ s.threads, p.Ended) ∧ ¬ s.shared.PhotosKept 1 [[1], [2]] := by
  obtain ⟨s, run, hended, hpaths, hlost⟩ :
      ∃ s, Transition.Reachable (VerifyStep plainSettings 2) ⟨onTwoPhotos, []⟩ s
        ∧ (∀ p ∈ s.threads, p.Ended) ∧ "/data/tmp/b.png" ∈ s.shared.photoPaths 1
        ∧ s.shared.files "/data/tmp/b.png" = none :=
    Transition.Run.of_exec bothAtOnce (by decide +kernel)
  refine ⟨onTwoPhotos_submitted, s, run, hended, fun hkept => ?_⟩
  obtain ⟨i, hi, hpath⟩ := List.getElem_of_mem hpaths
  have hfile := (List.forall₂_iff_get.mp hkept.1).2 i hi (hkept.1.length_eq ▸ hi)
  rw [List.get_eq_getElem, hpath, hlost] at hfile
  exact absurd hfile (by simp)

end VerifyTwice

end VisionBill
