import VisionBill.Database

/-!
# Image files

The part of the file system that holds images, as a map from paths to
contents, and `store_perm_image`, which moves an image and its thumbnail.
A path is its text, in which `pathlib` finds the parent, the stem and the
suffix. Directories are not modelled.

The name of a thumbnail is computed from the name of its image and stored
nowhere, so moving an image without its thumbnail would lose the
thumbnail. The operations here are those that the source performs in one
go; which of their steps may raise in between is said where they are
called, with the rest of what may fail.
-/

namespace VisionBill

/-- A path, as `str` of a `Path`: this is what is written to the database
and read from it. -/
abbrev FilePath := String

/-- The contents of a file. -/
abbrev Bytes := List UInt8

/-- The files, by their paths. -/
abbrev Files := FilePath → Option Bytes

/-! ## Paths

Paths are texts, and of `pathlib` only what the service uses is modelled:
parents, names, suffixes and joining. -/

/-- `path.name`. -/
def pathName (path : FilePath) : List Char := path.toList.rtakeWhile (· ≠ '/')

/-- `path.parent`. -/
def pathParent (path : FilePath) : FilePath :=
  match path.toList.rdropWhile (· ≠ '/') with
  | [] => "."
  | ['/'] => "/"
  | l => String.ofList l.dropLast

/-- `parent / name`. -/
def pathJoin (parent : FilePath) (name : String) : FilePath :=
  if parent = "." then name else if parent = "/" then "/" ++ name else parent ++ "/" ++ name

/-- `path.suffix`: from the last dot of the name on, unless that is its
first or its last character. -/
def pathSuffix (path : FilePath) : String :=
  let name := pathName path
  let extension := name.rtakeWhile (· ≠ '.')
  if extension = [] ∨ name.length ≤ extension.length + 1 then ""
  else String.ofList ('.' :: extension)

/-- `path.stem`. -/
def pathStem (path : FilePath) : String :=
  String.ofList ((pathName path).take ((pathName path).length - (pathSuffix path).length))

/-- The text of a UUID. It has 32 hexadecimal digits, in groups that
hyphens separate, and no two UUIDs have the same. -/
def uuidText (id : UUID) : String :=
  let digits := Nat.toDigits 16 id
  let hex := List.replicate (32 - digits.length) '0' ++ digits
  String.ofList (hex.take 8) ++ "-" ++ String.ofList ((hex.drop 8).take 4) ++ "-"
    ++ String.ofList ((hex.drop 12).take 4) ++ "-" ++ String.ofList ((hex.drop 16).take 4) ++ "-"
    ++ String.ofList (hex.drop 20)

/-- `_thumb_for`. -/
def thumbFor (original : FilePath) : FilePath :=
  pathJoin (pathJoin (pathParent original) "thumbnails") (pathStem original ++ ".thumb.webp")

/-! ## Moving files

A file system is what is found at a path. Moving a file replaces what is
at its destination, which is why the destination is looked at first. -/

namespace Files

/-- `path.exists()`. -/
def exists? (files : Files) (path : FilePath) : Bool := (files path).isSome

/-- `shutil.move`. A file at the destination is replaced, which is why the
callers make sure that there is none. -/
def move (files : Files) (source destination : FilePath) : Files := fun path =>
  if path = destination then files source else if path = source then none else files path

/-- `path.unlink()`. -/
def unlink (files : Files) (path : FilePath) : Files := fun p => if p = path then none else files p

/-- `delete_image`: the image and its thumbnail, if they are there. -/
def deleteImage (files : Files) (path : FilePath) : Files :=
  if files.exists? path then
    let files := files.unlink path
    if files.exists? (thumbFor path) then files.unlink (thumbFor path) else files
  else files

/-- Where `store_perm_image` moves an image: under a name of its own if
the plain one is taken. -/
def permDestination (files : Files) (saveDir : FilePath) (hex : String) (path : FilePath)
    (receiptId : UUID) : FilePath :=
  let name := "receipt_" ++ uuidText receiptId ++ pathSuffix path
  let destination := pathJoin saveDir name
  if files.exists? destination then pathJoin saveDir (hex ++ "_" ++ name) else destination

/-- `store_perm_image`: the files, and the new paths of image and
thumbnail. An image that is not there is answered with no path at all. -/
def storePermImage (files : Files) (saveDir : FilePath) (hex : String) (path : FilePath)
    (receiptId : UUID) : Files × (Option FilePath × Option FilePath) :=
  if files.exists? path then
    let destination := files.permDestination saveDir hex path receiptId
    let files := files.move path destination
    let thumb := thumbFor path
    if files.exists? thumb then
      (files.move thumb (thumbFor destination), (some destination, some (thumbFor destination)))
    else (files, (some destination, none))
  else (files, (none, none))

end Files

example : thumbFor "/data/tmp/temp_1.png" = "/data/tmp/thumbnails/temp_1.thumb.webp" := by decide

end VisionBill
