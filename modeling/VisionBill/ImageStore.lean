import VisionBill.Numbers
import VisionBill.Lib.Sidecar
import VisionBill.Lib.Transition

/-!
# The image store

`ImageService` keeps an original and its thumbnail apart: the thumbnail
lies in a directory beside, under a name that is made of the stem of the
original's name. All originals are called `<stem>.png`, so that the
thumbnails are the companions of a `Layout`.

New names contain a fresh UUID, except that the first photo of a receipt
is moved to a plain `receipt_<id>.png`, if there is no such file. So no
call ever writes to a file of another one, whatever is stored, moved and
deleted in whatever order: what the calls have answered determines the
files (`ImageStore.consistent_of_run`).

## Names

Three kinds of names occur: `temp_<uuid>` for a new photo,
`receipt_<uuid>` for the first photo of a receipt, and a UUID before that
for the others. They begin with `t`, with `r` and with a digit of a UUID,
which is all it takes to tell them apart (`IsNamed.exists_stem`). Within
one kind the UUID tells two names apart, since the text of a UUID
determines it. Whether a file is there is checked by the program for the
second kind only.

Paths are texts, so all of this is about the characters of a text: where
its name begins, where its suffix does, and what is left when both are
taken away.

## What the calls have answered

The store is the files together with a log of what was drawn and answered.
The invariant says that the files are those of a layout whose entries are
the photos that were answered and not deleted, each with its thumbnail if
one was made. A call is on an image, never on a thumbnail: `delete_image`
would remove that, and would answer that it has deleted an image
(`deleted_thumbnail`). The routes only pass the paths of images.
-/

namespace VisionBill

/-! ## Paths

Names are taken apart and put together as texts, and it has to be known
that this can be undone: the folder and the stem of a path are those that
it was made of. -/

section Right

variable {α : Type} {p : α → Bool} {l l' : List α}

theorem rtakeWhile_append (hl : ∀ hne : l ≠ [], ¬ p (l.getLast hne)) (hl' : ∀ a ∈ l', p a = true) :
    (l ++ l').rtakeWhile p = l' := by
  induction l' using List.reverseRecOn with
  | nil =>
    rw [List.append_nil]
    exact List.rtakeWhile_eq_nil_iff.mpr hl
  | append_singleton l' x ih =>
    rw [← List.append_assoc, List.rtakeWhile_concat_pos (h := hl' x (by simp)),
      ih fun a ha => hl' a (List.mem_append_left _ ha)]

theorem rdropWhile_append (hl : ∀ hne : l ≠ [], ¬ p (l.getLast hne)) (hl' : ∀ a ∈ l', p a = true) :
    (l ++ l').rdropWhile p = l := by
  induction l' using List.reverseRecOn with
  | nil =>
    rw [List.append_nil]
    exact List.rdropWhile_eq_self_iff.mpr hl
  | append_singleton l' x ih =>
    rw [← List.append_assoc, List.rdropWhile_concat_pos (h := hl' x (by simp)),
      ih fun a ha => hl' a (List.mem_append_left _ ha)]

end Right

/-- What stands before the name of a file in a directory. -/
def dirPrefix (dir : FilePath) : List Char :=
  if dir = "." then [] else if dir = "/" then ['/'] else dir.toList ++ ['/']

theorem toList_pathJoin (dir : FilePath) (name : String) :
    (pathJoin dir name).toList = dirPrefix dir ++ name.toList := by
  unfold pathJoin dirPrefix
  split
  · rfl
  · split
    · rw [String.toList_append]
      rfl
    · rw [String.toList_append, String.toList_append]
      rfl

theorem getLast_dirPrefix (dir : FilePath) (hne : dirPrefix dir ≠ []) :
    (dirPrefix dir).getLast hne = '/' := by
  unfold dirPrefix at hne ⊢
  split
  · next h => exact absurd (if_pos h) hne
  · split <;> simp

/-- The name of a file in a directory. -/
theorem pathName_pathJoin {dir : FilePath} {name : String} (hname : '/' ∉ name.toList) :
    pathName (pathJoin dir name) = name.toList := by
  unfold pathName
  rw [toList_pathJoin]
  refine rtakeWhile_append (fun hne => ?_) fun c hc => decide_eq_true fun heq => hname (heq ▸ hc)
  rw [getLast_dirPrefix]
  simp

/-- The directory of a file in it. Paths are texts here as they are in the
database, so it has to be shown that taking them apart undoes putting them
together. -/
theorem pathParent_pathJoin {dir : FilePath} {name : String} (hdir : dir ≠ "")
    (hname : '/' ∉ name.toList) : pathParent (pathJoin dir name) = dir := by
  have hdrop : (pathJoin dir name).toList.rdropWhile (· ≠ '/') = dirPrefix dir := by
    rw [toList_pathJoin]
    refine rdropWhile_append (fun hne => ?_) fun c hc => decide_eq_true fun heq => hname (heq ▸ hc)
    rw [getLast_dirPrefix]
    simp
  unfold pathParent
  rw [hdrop]
  unfold dirPrefix
  by_cases hdot : dir = "."
  · rw [if_pos hdot, hdot]
  · by_cases hroot : dir = "/"
    · rw [if_neg hdot, if_pos hroot, hroot]
      rfl
    · rw [if_neg hdot, if_neg hroot]
      have hlist : dir.toList ≠ [] := fun h => hdir (String.toList_eq_nil_iff.mp h)
      split
      · next h => exact absurd h (by simp)
      · next h => exact absurd h (by simpa using hlist)
      · rw [List.dropLast_concat, String.ofList_toList]

/-- The name of an original with a stem. -/
def pngName (stem : String) : String := stem ++ ".png"

theorem not_mem_pngName {stem : String} (hstem : '/' ∉ stem.toList) :
    '/' ∉ (pngName stem).toList := by
  unfold pngName
  rw [String.toList_append, List.mem_append, not_or]
  exact ⟨hstem, by decide⟩

section Png

variable {dir : FilePath} {stem : String} (hne : stem ≠ "") (hstem : '/' ∉ stem.toList)

include hne hstem

theorem pathSuffix_png : pathSuffix (pathJoin dir (pngName stem)) = ".png" := by
  have hname : pathName (pathJoin dir (pngName stem))
      = (stem.toList ++ ['.']) ++ ['p', 'n', 'g'] := by
    rw [pathName_pathJoin (not_mem_pngName hstem), pngName, String.toList_append,
      List.append_assoc]
    rfl
  have hextension : ((stem.toList ++ ['.']) ++ ['p', 'n', 'g']).rtakeWhile (· ≠ '.')
      = ['p', 'n', 'g'] :=
    rtakeWhile_append (fun _ => by simp) (by simp)
  have hlen : stem.toList.length ≠ 0 := fun h =>
    hne (String.toList_eq_nil_iff.mp (List.length_eq_zero_iff.mp h))
  unfold pathSuffix
  rw [hname]
  dsimp only
  rw [hextension]
  refine if_neg ?_
  simp only [List.length_append, List.length_cons, List.length_nil]
  simp
  omega

theorem pathStem_png : pathStem (pathJoin dir (pngName stem)) = stem := by
  have hname : pathName (pathJoin dir (pngName stem)) = stem.toList ++ ".png".toList := by
    rw [pathName_pathJoin (not_mem_pngName hstem), pngName, String.toList_append]
  have hlen : (stem.toList ++ ".png".toList).length - ".png".length = stem.toList.length := by
    rw [List.length_append]
    exact Nat.add_sub_cancel _ _
  unfold pathStem
  rw [pathSuffix_png hne hstem, hname, hlen, List.take_left, String.ofList_toList]

theorem thumbFor_png (hdir : dir ≠ "") : thumbFor (pathJoin dir (pngName stem))
    = pathJoin (pathJoin dir "thumbnails") (stem ++ ".thumb.webp") := by
  unfold thumbFor
  rw [pathParent_pathJoin hdir (not_mem_pngName hstem), pathStem_png hne hstem]

end Png

/-- A path of an original: a name in a directory, with the suffix that all
originals get. The stem has no slash, so that it is the whole name. -/
def IsOriginal (path : FilePath) : Prop :=
  ∃ (dir : FilePath) (stem : String), dir ≠ "" ∧ stem ≠ "" ∧ '/' ∉ stem.toList
    ∧ path = pathJoin dir (pngName stem)

theorem not_mem_thumbName {stem : String} (hstem : '/' ∉ stem.toList) :
    '/' ∉ (stem ++ ".thumb.webp").toList := by
  rw [String.toList_append, List.mem_append, not_or]
  exact ⟨hstem, by decide⟩

theorem pathJoin_ne (dir : FilePath) : pathJoin dir "thumbnails" ≠ "" := by
  intro h
  have hlist := congrArg String.toList h
  rw [toList_pathJoin] at hlist
  exact absurd (List.append_eq_nil_iff.mp hlist).2 (by decide)

/-- Originals, and their thumbnails. Two originals in one directory that
have one thumbnail have one stem, and so are one. -/
def imageLayout : Layout FilePath where
  Main := IsOriginal
  side := thumbFor
  side_inj := by
    rintro _ _ ⟨dir, stem, hdir, hne, hstem, rfl⟩ ⟨dir', stem', hdir', hne', hstem', rfl⟩ heq
    rw [thumbFor_png hne hstem hdir, thumbFor_png hne' hstem' hdir'] at heq
    have hnames := congrArg pathName heq
    rw [pathName_pathJoin (not_mem_thumbName hstem), pathName_pathJoin (not_mem_thumbName hstem'),
      String.toList_append, String.toList_append] at hnames
    obtain rfl : stem = stem' := String.toList_inj.mp (List.append_cancel_right hnames)
    have hparents := congrArg (pathParent ∘ pathParent) heq
    rw [Function.comp_apply, Function.comp_apply,
      pathParent_pathJoin (pathJoin_ne dir) (not_mem_thumbName hstem),
      pathParent_pathJoin (pathJoin_ne dir') (not_mem_thumbName hstem),
      pathParent_pathJoin hdir (by decide), pathParent_pathJoin hdir' (by decide)] at hparents
    rw [hparents]
  side_not_main := by
    rintro _ ⟨dir, stem, hdir, hne, hstem, rfl⟩ ⟨dir', stem', -, -, hstem', heq⟩
    rw [thumbFor_png hne hstem hdir] at heq
    have hnames := congrArg pathName heq
    rw [pathName_pathJoin (not_mem_thumbName hstem), pathName_pathJoin (not_mem_pngName hstem'),
      pngName, String.toList_append, String.toList_append] at hnames
    have hlast := congrArg List.getLast? hnames
    have hwebp : ".thumb.webp".toList.getLast? = some 'p' := by decide
    have hpng : ".png".toList.getLast? = some 'g' := by decide
    rw [List.getLast?_append, List.getLast?_append, hwebp, hpng] at hlast
    exact absurd (Option.some.inj hlast) (by decide)

theorem side_imageLayout (path : FilePath) : imageLayout.side path = thumbFor path := rfl

/-! ## Names with a UUID -/

/-- `uuid.hex`. -/
def uuidHexText (id : UUID) : String := String.ofList (uuidHex id)

theorem value_uuidHex (id : UUID) : Numerals.value 16 (uuidHex id) = id := by
  unfold uuidHex
  rw [Numerals.value_replicate_zero_append, Numerals.value_toDigits (by decide) (by decide)]

theorem uuidHex_injective {id id' : UUID} (h : uuidHex id = uuidHex id') : id = id' := by
  rw [← value_uuidHex id, h, value_uuidHex]

theorem uuidText_injective {id id' : UUID} (h : uuidText id = uuidText id') : id = id' := by
  refine uuidHex_injective ?_
  rw [← filter_uuidText, h, filter_uuidText]

theorem slash_not_mem_uuidText (id : UUID) : '/' ∉ (uuidText id).toList := by
  intro hmem
  obtain h | h := mem_uuidText hmem
  · exact absurd h (by decide)
  · exact absurd h (by decide)

/-! ## The names of originals -/

/-- The stem of a new photo. -/
def tmpStem (id : UUID) : String := "temp_" ++ uuidText id

/-- The stem of the first photo of a receipt. -/
def permStem (receiptId : UUID) : String := "receipt_" ++ uuidText receiptId

/-- The stem of another photo of a receipt. -/
def otherStem (id receiptId : UUID) : String := uuidHexText id ++ "_" ++ permStem receiptId

theorem slash_not_mem_tmpStem (id : UUID) : '/' ∉ (tmpStem id).toList := by
  unfold tmpStem
  rw [String.toList_append, List.mem_append, not_or]
  exact ⟨by decide, slash_not_mem_uuidText id⟩

theorem slash_not_mem_permStem (receiptId : UUID) : '/' ∉ (permStem receiptId).toList := by
  unfold permStem
  rw [String.toList_append, List.mem_append, not_or]
  exact ⟨by decide, slash_not_mem_uuidText receiptId⟩

theorem toList_otherStem (id receiptId : UUID) :
    (otherStem id receiptId).toList = uuidHex id ++ '_' :: (permStem receiptId).toList := by
  unfold otherStem uuidHexText
  rw [String.toList_append, String.toList_append, String.toList_ofList, List.append_assoc]
  rfl

theorem slash_not_mem_otherStem (id receiptId : UUID) : '/' ∉ (otherStem id receiptId).toList := by
  rw [toList_otherStem, List.mem_append, List.mem_cons, not_or, not_or]
  refine ⟨fun h => ?_, by decide, slash_not_mem_permStem receiptId⟩
  exact absurd (isDigit_of_mem_uuidHex h) (by decide)

theorem uuidHex_ne_nil (id : UUID) : uuidHex id ≠ [] := fun h =>
  Nat.toDigits_ne_nil (List.append_eq_nil_iff.mp h).2

/-- A name that begins with a digit. -/
theorem head?_otherStem (id receiptId : UUID) :
    ∃ c, (otherStem id receiptId).toList.head? = some c ∧ Numerals.isDigit 16 c = true := by
  rw [toList_otherStem]
  cases hdigits : uuidHex id with
  | nil => exact absurd hdigits (uuidHex_ne_nil id)
  | cons c digits =>
    have hc : c ∈ uuidHex id := hdigits ▸ List.mem_cons_self
    exact ⟨c, rfl, isDigit_of_mem_uuidHex hc⟩

/-! ## The operations

The state has the files, the UUIDs that were drawn, and a record of what
should be stored. The record is what the methods were called with, and no
method reads it. -/

/-- `ImageSettings`; a `Path` never has the empty text. -/
structure ImageSettings where
  tmpDir : FilePath
  saveDir : FilePath
  tmpDir_ne : tmpDir ≠ ""
  saveDir_ne : saveDir ≠ ""

namespace Files

/-- `store_tmp_image`. -/
def storeTmpImage (files : Files) (tmpDir : FilePath) (content : Bytes) (id : UUID) :
    Files × FilePath :=
  let tmpPath := pathJoin tmpDir ("temp_" ++ uuidText id ++ ".png")
  (fun path => if path = tmpPath then some content else files path, tmpPath)

/-- `generate_thumbnail`, where `render` is what Pillow makes of a
content, `none` if it raises. An image without a thumbnail is a normal
case. -/
def generateThumbnail (files : Files) (render : Bytes → Option Bytes) (srcPath : FilePath) :
    Files × Option FilePath :=
  match (files srcPath).bind render with
  | some img =>
    (fun path => if path = thumbFor srcPath then some img else files path, some (thumbFor srcPath))
  | none => (files, none)

end Files

/-- A call of a method of `ImageService`, with the UUID that it draws. Any
sequence of calls on paths that were answered is a run. -/
inductive ImageCall
  | storeTmpImage (content : Bytes) (id : UUID)
  | generateThumbnail (srcPath : FilePath) (render : Bytes → Option Bytes)
  | storePermImage (tmpPath : FilePath) (receiptId id : UUID)
  | deleteImage (imagePath : FilePath)

/-- The files, and what the calls so far have drawn and answered. Only the
files are there in the program; the rest is what its callers know. -/
structure ImageStore where
  files : Files
  /-- The UUIDs drawn. -/
  uuids : List UUID
  /-- The paths of images that were answered. -/
  images : List FilePath
  /-- The paths of thumbnails that were answered. -/
  thumbnails : List FilePath
  /-- The live originals with the bytes they were stored with and the
  thumbnails generated for them, going by the calls and their answers. -/
  originals : List (Layout.Entry FilePath Bytes)
  /-- How many images were stored. -/
  stored : ℕ
  /-- How many times `delete_image` answered `True`. -/
  deleted : ℕ

namespace ImageStore

/-- Empty directories. -/
def empty : ImageStore := ⟨fun _ => none, [], [], [], [], 0, 0⟩

/-- A path that a call has answered. -/
def Returned (s : ImageStore) (path : FilePath) : Prop := path ∈ s.images ∨ path ∈ s.thumbnails

instance (s : ImageStore) (path : FilePath) : Decidable (s.Returned path) :=
  inferInstanceAs (Decidable (path ∈ s.images ∨ path ∈ s.thumbnails))

/-- A call with fresh UUIDs, on paths that were answered before. Other
paths are not what the methods are for, and a call with one is no step. -/
def step (settings : ImageSettings) (s : ImageStore) : ImageCall → Option ImageStore
  | .storeTmpImage content id =>
    if id ∈ s.uuids then none
    else
      let answer := s.files.storeTmpImage settings.tmpDir content id
      some { s with
        files := answer.1
        uuids := id :: s.uuids
        images := answer.2 :: s.images
        originals := ⟨answer.2, content, none⟩ :: s.originals
        stored := s.stored + 1 }
  | .generateThumbnail srcPath render =>
    if s.Returned srcPath then
      match s.files.generateThumbnail render srcPath with
      | (files, some thumb) =>
        some { s with
          files := files
          thumbnails := thumb :: s.thumbnails
          originals := s.originals.map fun original =>
            if original.main = srcPath then { original with extra := render original.content }
            else original }
      | (files, none) => some { s with files := files }
    else none
  | .storePermImage tmpPath receiptId id =>
    if s.Returned tmpPath ∧ id ∉ s.uuids then
      match s.files.storePermImage settings.saveDir (uuidHexText id) tmpPath receiptId with
      | (files, some destination, thumb) =>
        some { s with
          files := files
          uuids := id :: s.uuids
          images := destination :: s.images
          thumbnails := thumb.toList ++ s.thumbnails
          originals := s.originals.map fun original =>
            if original.main = tmpPath then { original with main := destination } else original }
      | (files, none, _) => some { s with files := files, uuids := id :: s.uuids }
    else none
  | .deleteImage imagePath =>
    if s.Returned imagePath then
      some { s with
        files := s.files.deleteImage imagePath
        originals := s.originals.filter fun original => original.main ≠ imagePath
        deleted := if s.files.exists? imagePath then s.deleted + 1 else s.deleted }
    else none

/-- A call on the path of an image, not on that of a thumbnail. The
methods are called with what they have returned for an image, or what was
stored of that. The path of a thumbnail is a path of the store as well,
and deleting it as an image would leave its image without one. -/
def OnImage (s : ImageStore) : ImageCall → Prop
  | .storeTmpImage _ _ => True
  | .generateThumbnail srcPath _ => srcPath ∈ s.images
  | .storePermImage tmpPath _ _ => tmpPath ∈ s.images
  | .deleteImage imagePath => imagePath ∈ s.images

instance (s : ImageStore) (call : ImageCall) : Decidable (s.OnImage call) :=
  match call with
  | .storeTmpImage _ _ => .isTrue trivial
  | .generateThumbnail srcPath _ => inferInstanceAs (Decidable (srcPath ∈ s.images))
  | .storePermImage tmpPath _ _ => inferInstanceAs (Decidable (tmpPath ∈ s.images))
  | .deleteImage imagePath => inferInstanceAs (Decidable (imagePath ∈ s.images))

end ImageStore

/-! ## What the operations do to the files -/

namespace Files

variable {files : Files} {path : FilePath}

theorem storeTmpImage_eq (files : Files) (tmpDir : FilePath) (content : Bytes) (id : UUID) :
    files.storeTmpImage tmpDir content id
      = (Function.update files (pathJoin tmpDir (pngName (tmpStem id))) (some content),
        pathJoin tmpDir (pngName (tmpStem id))) := by
  refine Prod.ext (funext fun p => ?_) rfl
  exact (Function.update_apply files _ (some content) p).symm

theorem generateThumbnail_of_some {render : Bytes → Option Bytes} {img : Bytes}
    (h : (files path).bind render = some img) :
    files.generateThumbnail render path
      = (Function.update files (thumbFor path) (some img), some (thumbFor path)) := by
  unfold generateThumbnail
  rw [h]
  refine Prod.ext (funext fun p => ?_) rfl
  exact (Function.update_apply files _ (some img) p).symm

theorem generateThumbnail_of_none {render : Bytes → Option Bytes}
    (h : (files path).bind render = none) :
    files.generateThumbnail render path = (files, none) := by
  unfold generateThumbnail
  rw [h]

theorem move_eq (files : Files) (source destination : FilePath) :
    files.move source destination
      = Function.update (Function.update files source none) destination (files source) := by
  funext p
  rw [Function.update_apply, Function.update_apply]
  rfl

theorem unlink_eq (files : Files) (path : FilePath) :
    files.unlink path = Function.update files path none := by
  funext p
  rw [Function.update_apply]
  rfl

/-- An original that is there is deleted with its thumbnail. -/
theorem deleteImage_eq (h : files.exists? path = true) : files.deleteImage path
    = Function.update (Function.update files path none) (thumbFor path) none := by
  unfold deleteImage
  rw [if_pos h, unlink_eq]
  dsimp only
  split
  · rw [unlink_eq]
  · next hthumb =>
    refine (Function.update_eq_self_iff.mpr ?_).symm
    exact (Option.not_isSome_iff_eq_none.mp hthumb).symm

/-- An original that is there is moved with its thumbnail. The paths have
to be different from each other, or one move would undo the other one. -/
theorem storePermImage_eq {saveDir : FilePath} {hex : String} {receiptId : UUID}
    {destination : FilePath} (hd : files.permDestination saveDir hex path receiptId = destination)
    (hexists : files.exists? path = true) (hfree : files (thumbFor destination) = none)
    (hself : thumbFor path ≠ path) (hne : thumbFor path ≠ destination)
    (hside : thumbFor destination ≠ destination) :
    (files.storePermImage saveDir hex path receiptId).1
        = Function.update (Function.update
            (Function.update (Function.update files path none) (thumbFor path) none) destination
              (files path)) (thumbFor destination) (files (thumbFor path))
      ∧ (files.storePermImage saveDir hex path receiptId).2.1 = some destination := by
  have hthumb : files.move path destination (thumbFor path) = files (thumbFor path) := by
    rw [move_eq, Function.update_of_ne hne, Function.update_of_ne hself]
  unfold storePermImage
  rw [if_pos hexists, hd]
  dsimp only
  split
  · refine ⟨?_, rfl⟩
    rw [move_eq _ (thumbFor path), hthumb, move_eq, Function.update_comm hne.symm]
  · next hno =>
    have hnone : files (thumbFor path) = none := by
      rw [← hthumb]
      exact Option.not_isSome_iff_eq_none.mp hno
    refine ⟨?_, rfl⟩
    rw [move_eq, hnone]
    have hkeep : Function.update (Function.update files path none) (thumbFor path) none
        = Function.update files path none := by
      rw [Function.update_eq_self_iff, Function.update_of_ne hself, hnone]
    rw [hkeep, eq_comm, Function.update_eq_self_iff, Function.update_of_ne hside,
      Function.update_apply, hfree, ite_self]

end Files

/-! ## The names that occur

Every original has one of three forms of name, each with a UUID in it, and
a thumbnail has the name of its original with another ending. So names of
different files are different. -/

variable {settings : ImageSettings} {uuids : List UUID} {path : FilePath} {id receiptId : UUID}

/-- A path of an original, by the UUIDs drawn so far. A name that contains
a UUID that was not drawn is new. -/
inductive IsNamed (settings : ImageSettings) (uuids : List UUID) : FilePath → Prop
  | tmp (id : UUID) (hid : id ∈ uuids) :
      IsNamed settings uuids (pathJoin settings.tmpDir (pngName (tmpStem id)))
  | perm (receiptId : UUID) :
      IsNamed settings uuids (pathJoin settings.saveDir (pngName (permStem receiptId)))
  | other (id receiptId : UUID) (hid : id ∈ uuids) :
      IsNamed settings uuids (pathJoin settings.saveDir (pngName (otherStem id receiptId)))

namespace IsNamed

theorem mono (h : IsNamed settings uuids path) (id : UUID) :
    IsNamed settings (id :: uuids) path := by
  cases h with
  | tmp i hi => exact tmp i (List.mem_cons_of_mem _ hi)
  | perm receiptId => exact perm receiptId
  | other i receiptId hi => exact other i receiptId (List.mem_cons_of_mem _ hi)

theorem stem_ne {stem : String} {c : Char} (h : stem.toList.head? = some c) : stem ≠ "" := by
  rintro rfl
  exact absurd h (by simp)

theorem head?_tmpStem (id : UUID) : (tmpStem id).toList.head? = some 't' := by
  unfold tmpStem
  rw [String.toList_append]
  rfl

theorem head?_permStem (receiptId : UUID) : (permStem receiptId).toList.head? = some 'r' := by
  unfold permStem
  rw [String.toList_append]
  rfl

/-- Every name is that of an original. -/
theorem isOriginal (h : IsNamed settings uuids path) : IsOriginal path := by
  cases h with
  | tmp id hid =>
    exact ⟨_, _, settings.tmpDir_ne, stem_ne (head?_tmpStem id), slash_not_mem_tmpStem id, rfl⟩
  | perm receiptId =>
    exact ⟨_, _, settings.saveDir_ne, stem_ne (head?_permStem receiptId),
      slash_not_mem_permStem receiptId, rfl⟩
  | other id receiptId hid =>
    obtain ⟨c, hc, -⟩ := head?_otherStem id receiptId
    exact ⟨_, _, settings.saveDir_ne, stem_ne hc, slash_not_mem_otherStem id receiptId, rfl⟩

/-- The stem of a name, which begins with `t`, with `r` or with a digit.
So names of different kinds are different, whatever UUIDs they contain. -/
theorem exists_stem (h : IsNamed settings uuids path) :
    pathStem path ∈ uuids.map tmpStem ∨ (∃ receiptId, pathStem path = permStem receiptId)
      ∨ ∃ id ∈ uuids, ∃ receiptId, pathStem path = otherStem id receiptId := by
  cases h with
  | tmp id hid =>
    rw [pathStem_png (stem_ne (head?_tmpStem id)) (slash_not_mem_tmpStem id)]
    exact Or.inl (List.mem_map_of_mem hid)
  | perm receiptId =>
    rw [pathStem_png (stem_ne (head?_permStem receiptId)) (slash_not_mem_permStem receiptId)]
    exact Or.inr (Or.inl ⟨receiptId, rfl⟩)
  | other id receiptId hid =>
    obtain ⟨c, hc, -⟩ := head?_otherStem id receiptId
    rw [pathStem_png (stem_ne hc) (slash_not_mem_otherStem id receiptId)]
    exact Or.inr (Or.inr ⟨id, hid, receiptId, rfl⟩)

theorem otherStem_ne {stem : String} {c : Char} (hc : stem.toList.head? = some c)
    (hdigit : Numerals.isDigit 16 c = false) (id receiptId : UUID) :
    otherStem id receiptId ≠ stem := by
  rintro rfl
  obtain ⟨d, hd, hd'⟩ := head?_otherStem id receiptId
  rw [hc] at hd
  obtain rfl := Option.some.inj hd
  exact absurd (hdigit.symm.trans hd') (by decide)

/-- The name of a new photo is new. A name has the identifier that it was
made with in it, and this identifier has not been used. -/
theorem not_tmp (hid : id ∉ uuids) :
    ¬ IsNamed settings uuids (pathJoin settings.tmpDir (pngName (tmpStem id))) := by
  intro h
  have hstem := h.exists_stem
  rw [pathStem_png (stem_ne (head?_tmpStem id)) (slash_not_mem_tmpStem id)] at hstem
  obtain hmem | ⟨receiptId, heq⟩ | ⟨id', -, receiptId, heq⟩ := hstem
  · obtain ⟨id', hid', heq⟩ := List.mem_map.mp hmem
    have htext := String.append_right_inj _ |>.mp heq
    exact hid (uuidText_injective htext ▸ hid')
  · have hhead := congrArg (fun s : String => s.toList.head?) heq
    simp only [head?_tmpStem, head?_permStem] at hhead
    exact absurd (Option.some.inj hhead) (by decide)
  · exact otherStem_ne (head?_tmpStem id) (by decide) id' receiptId heq.symm

/-- The name with the UUID of another photo of a receipt is new. It begins
differently from the names of first photos, and differs from others of its
kind in the identifier. -/
theorem not_other (hid : id ∉ uuids) :
    ¬ IsNamed settings uuids (pathJoin settings.saveDir (pngName (otherStem id receiptId))) := by
  intro h
  have hstem := h.exists_stem
  obtain ⟨c, hc, -⟩ := head?_otherStem id receiptId
  rw [pathStem_png (stem_ne hc) (slash_not_mem_otherStem id receiptId)] at hstem
  obtain hmem | ⟨receiptId', heq⟩ | ⟨id', hid', receiptId', heq⟩ := hstem
  · obtain ⟨id', -, heq⟩ := List.mem_map.mp hmem
    exact otherStem_ne (head?_tmpStem id') (by decide) id receiptId heq.symm
  · exact otherStem_ne (head?_permStem receiptId') (by decide) id receiptId heq
  · -- the digits before the first underscore
    have hdigits := congrArg (fun s : String => s.toList.takeWhile (· ≠ '_')) heq
    have htake : ∀ i r, (otherStem i r).toList.takeWhile (· ≠ '_') = uuidHex i := by
      intro i r
      rw [toList_otherStem, List.takeWhile_append_of_pos fun c hc => decide_eq_true ?_]
      · rw [List.takeWhile_cons_of_neg (by simp), List.append_nil]
      · rintro rfl
        exact absurd (isDigit_of_mem_uuidHex hc) (by decide)
    simp only [htake] at hdigits
    exact hid (uuidHex_injective hdigits ▸ hid')

end IsNamed

/-! ## The invariant

The files are those of the record and nothing else. It is kept by each
method, given that UUIDs are new and that paths are ones that were
answered before. -/

namespace ImageStore

variable {s s' : ImageStore} {call : ImageCall} {render : Bytes → Option Bytes} {content : Bytes}

/-- The files are the originals and their thumbnails, and everything has a
name with a UUID that was drawn. -/
structure Inv (settings : ImageSettings) (s : ImageStore) : Prop where
  holds : imageLayout.Holds (fun _ => none) s.originals s.files
  named : ∀ path ∈ s.images, IsNamed settings s.uuids path
  answered : ∀ original ∈ s.originals, original.main ∈ s.images
  count : s.originals.length + s.deleted = s.stored

theorem inv_empty : Inv settings empty :=
  ⟨Layout.holds_nil_iff.mpr rfl, fun _ h => absurd h List.not_mem_nil,
    fun _ h => absurd h List.not_mem_nil, rfl⟩

namespace Inv

/-- There is nothing under a name that is new. -/
theorem eq_none (h : Inv settings s) (hpath : IsOriginal path)
    (hnew : ¬ IsNamed settings s.uuids path) : s.files path = none := by
  by_contra hfile
  obtain ⟨original, hmem, rfl⟩ := h.holds.exists_entry hpath rfl hfile
  exact hnew (h.named _ (h.answered original hmem))

/-- The entry of an image that is there. -/
theorem exists_original (h : Inv settings s) (hpath : path ∈ s.images)
    (hfile : s.files path ≠ none) :
    ∃ original ∈ s.originals, original.main = path ∧ s.files path = some original.content
      ∧ s.files (thumbFor path) = original.extra := by
  obtain ⟨original, hmem, rfl⟩ := h.holds.exists_entry (h.named path hpath).isOriginal rfl hfile
  have hextra := h.holds.extra original hmem
  rw [side_imageLayout] at hextra
  exact ⟨original, hmem, rfl, h.holds.content original hmem, hextra⟩

/-- An image is moved to where no file is: the plain name is checked, and
the other one has a UUID that is new. -/
theorem permDestination_spec (h : Inv settings s) (hpath : path ∈ s.images)
    (hid : id ∉ s.uuids) {destination : FilePath} (receiptId : UUID)
    (hd : s.files.permDestination settings.saveDir (uuidHexText id) path receiptId
      = destination) :
    IsNamed settings (id :: s.uuids) destination ∧ s.files destination = none := by
  subst hd
  have hsuffix : pathSuffix path = ".png" := by
    obtain ⟨dir, stem, -, hne, hstem, rfl⟩ := (h.named path hpath).isOriginal
    exact pathSuffix_png hne hstem
  have hplain : pathJoin settings.saveDir ("receipt_" ++ uuidText receiptId ++ pathSuffix path)
      = pathJoin settings.saveDir (pngName (permStem receiptId)) := by
    rw [hsuffix]
    rfl
  have hother : pathJoin settings.saveDir
        (uuidHexText id ++ "_" ++ ("receipt_" ++ uuidText receiptId ++ pathSuffix path))
      = pathJoin settings.saveDir (pngName (otherStem id receiptId)) := by
    rw [hsuffix, pngName, otherStem, permStem]
    simp only [String.append_assoc]
  have hnew : IsNamed settings (id :: s.uuids)
      (pathJoin settings.saveDir (pngName (otherStem id receiptId))) :=
    IsNamed.other id receiptId List.mem_cons_self
  unfold Files.permDestination
  dsimp only
  rw [hplain, hother]
  split
  · exact ⟨hnew, h.eq_none hnew.isOriginal (IsNamed.not_other hid)⟩
  · next hfree => exact ⟨IsNamed.perm receiptId, Option.not_isSome_iff_eq_none.mp hfree⟩

end Inv

theorem inv_storeTmpImage (h : Inv settings s)
    (hstep : s.step settings (.storeTmpImage content id) = some s') : Inv settings s' := by
  simp only [step, Files.storeTmpImage_eq] at hstep
  split at hstep
  · exact absurd hstep (by simp)
  · next hid =>
    obtain rfl := Option.some.inj hstep
    have hnamed : IsNamed settings (id :: s.uuids)
        (pathJoin settings.tmpDir (pngName (tmpStem id))) := IsNamed.tmp id List.mem_cons_self
    have hfree := h.eq_none hnamed.isOriginal (IsNamed.not_tmp hid)
    have hside := h.holds.side_eq_none hnamed.isOriginal rfl hfree
    have hput := h.holds.put hnamed.isOriginal hfree hside content none
    rw [Function.update_eq_self_iff.mpr] at hput
    · exact ⟨hput, List.forall_mem_cons.mpr ⟨hnamed, fun p hp => (h.named p hp).mono id⟩,
        List.forall_mem_cons.mpr ⟨List.mem_cons_self,
          fun e he => List.mem_cons_of_mem _ (h.answered e he)⟩,
        (Nat.succ_add _ _).trans (congrArg Nat.succ h.count)⟩
    · rw [Function.update_of_ne (Layout.side_ne_main hnamed.isOriginal), hside]

/-- The answers of a call leave out nothing that the invariant speaks of.
A thumbnail lies where its original says, so it is the file beside it and
no other. -/
theorem inv_generateThumbnail (h : Inv settings s) (hpath : path ∈ s.images)
    (hstep : s.step settings (.generateThumbnail path render) = some s') : Inv settings s' := by
  simp only [step, if_pos (show s.Returned path from Or.inl hpath)] at hstep
  cases himg : (s.files path).bind render with
  | none =>
    rw [Files.generateThumbnail_of_none himg] at hstep
    obtain rfl := Option.some.inj hstep
    exact h
  | some img =>
    rw [Files.generateThumbnail_of_some himg] at hstep
    obtain rfl := Option.some.inj hstep
    have hfile : s.files path ≠ none := fun hnone => by simp [hnone] at himg
    obtain ⟨original, hmem, rfl, hcontent, -⟩ := h.exists_original hpath hfile
    have hrender : render original.content = some img := by
      rw [hcontent] at himg
      exact himg
    -- the original is the only one under its name
    have hmap : (s.originals.map fun e =>
          if e.main = original.main then { e with extra := render e.content } else e)
        = s.originals.map (Layout.Holds.attached original.main (some img)) := by
      refine List.map_congr_left fun e he => ?_
      unfold Layout.Holds.attached
      split
      · next heq => rw [h.holds.eq_of_main he hmem heq, hrender]
      · rfl
    have hattach := h.holds.attach hmem (some img)
    rw [side_imageLayout] at hattach
    rw [hmap]
    refine ⟨hattach, h.named, ?_, ?_⟩
    · rw [List.forall_mem_map]
      intro e he
      rw [Layout.Holds.main_attached]
      exact h.answered e he
    · rw [List.length_map]
      exact h.count

theorem inv_storePermImage (h : Inv settings s) (hpath : path ∈ s.images)
    (hstep : s.step settings (.storePermImage path receiptId id) = some s') :
    Inv settings s' := by
  simp only [step] at hstep
  split at hstep
  · next hcall =>
    generalize hd : s.files.permDestination settings.saveDir (uuidHexText id) path receiptId = d
    obtain ⟨hnamed, hfree⟩ := h.permDestination_spec hpath hcall.2 receiptId hd
    by_cases hfile : s.files path = none
    · have hnone : s.files.exists? path = false := by
        rw [Files.exists?, hfile]
        rfl
      have hans : s.files.storePermImage settings.saveDir (uuidHexText id) path receiptId
          = (s.files, none, none) := by
        unfold Files.storePermImage
        rw [hnone]
        rfl
      rw [hans] at hstep
      obtain rfl := Option.some.inj hstep
      exact ⟨h.holds, fun p hp => (h.named p hp).mono id, h.answered, h.count⟩
    · -- what is moved is an original with its thumbnail, to a name that is free
      obtain ⟨original, hmem, rfl, hcontent, hextra⟩ := h.exists_original hpath hfile
      have hside := h.holds.side_eq_none hnamed.isOriginal rfl hfree
      have hmain := (h.named _ hpath).isOriginal
      have hne : thumbFor original.main ≠ d := fun heq => by
        refine imageLayout.side_not_main _ hmain ?_
        rw [show imageLayout.side original.main = d from heq]
        exact hnamed.isOriginal
      obtain ⟨hfiles, hans⟩ := Files.storePermImage_eq hd (Option.isSome_iff_ne_none.mpr hfile)
        hside (Layout.side_ne_main (L := imageLayout) hmain) hne
        (Layout.side_ne_main (L := imageLayout) hnamed.isOriginal)
      rw [hcontent, hextra] at hfiles
      generalize s.files.storePermImage settings.saveDir (uuidHexText id) original.main receiptId
        = answer at hstep hfiles hans
      obtain ⟨files, dest, thumb⟩ := answer
      obtain rfl : files = _ := hfiles
      obtain rfl : dest = some d := hans
      obtain rfl := Option.some.inj hstep
      have hmove := h.holds.move hmem hnamed.isOriginal hfree hside
      rw [side_imageLayout, side_imageLayout] at hmove
      refine ⟨hmove, ?_, ?_, ?_⟩
      · exact List.forall_mem_cons.mpr ⟨hnamed, fun p hp => (h.named p hp).mono id⟩
      · rw [List.forall_mem_map]
        intro e he
        dsimp only
        split
        · exact List.mem_cons_self
        · exact List.mem_cons_of_mem _ (h.answered e he)
      · dsimp only
        rw [List.length_map]
        exact h.count
  · exact absurd hstep (by simp)

theorem inv_deleteImage (h : Inv settings s) (hpath : path ∈ s.images)
    (hstep : s.step settings (.deleteImage path) = some s') : Inv settings s' := by
  simp only [step, if_pos (show s.Returned path from Or.inl hpath)] at hstep
  obtain rfl := Option.some.inj hstep
  by_cases hfile : s.files path = none
  · have hnone : s.files.exists? path = false := by
      rw [Files.exists?, hfile]
      rfl
    have hkeep : (s.originals.filter fun e => e.main ≠ path) = s.originals :=
      List.filter_eq_self.mpr fun e he => decide_eq_true (h.holds.ne_main hfile he)
    unfold Files.deleteImage
    dsimp only
    rw [hkeep, hnone]
    exact ⟨h.holds, h.named, h.answered, h.count⟩
  · obtain ⟨original, hmem, rfl, -, -⟩ := h.exists_original hpath hfile
    have hexists : s.files.exists? original.main = true := Option.isSome_iff_ne_none.mpr hfile
    have hremove := h.holds.remove hmem
    rw [side_imageLayout] at hremove
    rw [Files.deleteImage_eq hexists, if_pos hexists]
    refine ⟨hremove, h.named,
      fun e he => h.answered e (List.mem_filter.mp he).1, ?_⟩
    have hlength := h.holds.length_remove hmem
    have hcount := h.count
    dsimp only
    omega

/-- **One call keeps the invariant.** Each of the four operations puts,
attaches, moves or removes an entry, and these are the library's. -/
theorem inv_step (h : Inv settings s) (hguard : s.OnImage call)
    (hstep : s.step settings call = some s') : Inv settings s' := by
  cases call with
  | storeTmpImage content id => exact inv_storeTmpImage h hstep
  | generateThumbnail path render => exact inv_generateThumbnail h hguard hstep
  | storePermImage path receiptId id => exact inv_storePermImage h hguard hstep
  | deleteImage path => exact inv_deleteImage h hguard hstep

/-! ## What is stored -/

/-- The files and the calls agree: what was answered and not deleted is
there, and nothing else is. A file that nobody knows of would stay for
ever, and one that is known and not there would be a photo lost. Both are
excluded, for photos and for their thumbnails. -/
structure Consistent (settings : ImageSettings) (s : ImageStore) : Prop where
  /-- No two live originals have the same path. -/
  nodup : (s.originals.map Layout.Entry.main).Nodup
  /-- A live original has its bytes. -/
  content : ∀ original ∈ s.originals, s.files original.main = some original.content
  count : s.originals.length + s.deleted = s.stored
  /-- A live original has the thumbnail generated for it, if any. -/
  thumbnail : ∀ original ∈ s.originals, s.files (thumbFor original.main) = original.extra
  /-- There is no other file. -/
  files : ∀ path, s.files path ≠ none →
    ∃ original ∈ s.originals, path = original.main ∨ path = thumbFor original.main
  /-- No thumbnail has the path of a live original. -/
  apart : ∀ original ∈ s.originals, ∀ other ∈ s.originals, thumbFor original.main ≠ other.main
  /-- An image is moved to an unused path. -/
  unused : ∀ path ∈ s.images, ∀ receiptId id destination, id ∉ s.uuids →
    (s.files.storePermImage settings.saveDir (uuidHexText id) path receiptId).2.1
      = some destination →
    s.files destination = none

theorem Inv.consistent (h : Inv settings s) : Consistent settings s := by
  refine ⟨h.holds.nodup, h.holds.content, h.count, h.holds.extra, fun path hfile => ?_,
    fun original hmem other hother => ?_, fun path hpath receiptId id destination hid hans => ?_⟩
  · by_contra hno
    refine hfile (h.holds.rest path fun original hmem => ⟨?_, ?_⟩)
    · exact fun heq => hno ⟨original, hmem, Or.inl heq⟩
    · exact fun heq => hno ⟨original, hmem, Or.inr heq⟩
  · exact (h.holds.main_ne_side hmem (h.holds.main other hother)).symm
  · have hdestination := (h.permDestination_spec hpath hid receiptId rfl).2
    unfold Files.storePermImage at hans
    split at hans
    · dsimp only at hans
      split at hans
      · exact Option.some.inj hans ▸ hdestination
      · exact Option.some.inj hans ▸ hdestination
    · exact absurd hans (by simp)

/-- **In every sequence of calls on images, no file is overwritten or left
behind.** In particular a thumbnail never survives its image. What is
asked of the calls is that they are about images and not about the files
beside them. -/
theorem consistent_of_run (run : Transition.Run (step settings) OnImage empty s) :
    Consistent settings s :=
  (run.invariant inv_empty fun _ _ _ h hguard hstep => inv_step h hguard hstep).consistent

/-- The default directories. -/
def appSettings : ImageSettings where
  tmpDir := "/app/uploads_tmp"
  saveDir := "/app/uploads"
  tmpDir_ne := by decide
  saveDir_ne := by decide

/-- The path of a new photo. -/
def newPhoto (id : UUID) : FilePath := pathJoin "/app/uploads_tmp" (pngName (tmpStem id))

/-- The path of another photo of the ninth receipt. -/
def otherPhoto (id : UUID) : FilePath := pathJoin "/app/uploads" (pngName (otherStem id 9))

/-- Two photos are moved to one receipt, the first of them twice; then the
second is deleted. -/
def twoPhotos : List ImageCall :=
  [.storeTmpImage [1] 1, .generateThumbnail (newPhoto 1) fun _ => some [11],
    .storeTmpImage [2] 2, .storePermImage (newPhoto 1) 9 3, .storePermImage (newPhoto 2) 9 4,
    .storePermImage (pathJoin "/app/uploads" (pngName (permStem 9))) 9 5,
    .deleteImage (otherPhoto 4)]

theorem consistent_of_run_twoPhotos : ∃ s, Transition.Run (step appSettings) OnImage empty s
    ∧ s.originals = [⟨otherPhoto 5, [1], some [11]⟩] ∧ Consistent appSettings s := by
  obtain ⟨s, run, horiginals⟩ : ∃ s, Transition.Run (step appSettings) OnImage empty s
      ∧ s.originals = [⟨otherPhoto 5, [1], some [11]⟩] :=
    Transition.Run.of_exec twoPhotos (by decide +kernel)
  exact ⟨s, run, horiginals, consistent_of_run run⟩

/-- If `delete_image` is called on a thumbnail, it answers `True`, and the
original is still there. No route does this, and nothing in the method
prevents it. -/
theorem deleted_thumbnail : ∃ s, Transition.Reachable (step appSettings) empty s
    ∧ (s.stored = 1 ∧ s.deleted = 1 ∧ s.files (newPhoto 1) = some [1])
    ∧ ¬ Consistent appSettings s := by
  obtain ⟨s, run, h, horiginals⟩ : ∃ s, Transition.Reachable (step appSettings) empty s
      ∧ (s.stored = 1 ∧ s.deleted = 1 ∧ s.files (newPhoto 1) = some [1])
      ∧ s.originals.length = 1 :=
    Transition.Run.of_exec [.storeTmpImage [1] 1,
      .generateThumbnail (newPhoto 1) fun _ => some [11], .deleteImage (thumbFor (newPhoto 1))]
      (by decide +kernel)
  refine ⟨s, run, h, fun hconsistent => ?_⟩
  have hcount := hconsistent.count
  rw [h.1, h.2.1, horiginals] at hcount
  exact absurd hcount (by decide)

end ImageStore

end VisionBill
