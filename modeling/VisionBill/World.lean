import VisionBill.Lib.Concurrent
import VisionBill.ImageDB
import VisionBill.CollectionDB
import VisionBill.Files
import Mathlib.Data.List.GetD

/-!
# What a request can do

The atomic operations of the request handlers and of the analysis
scheduler: a statement or transaction of the database, a call of the model
provider, a synchronous piece of file handling. Between two of them other
tasks may run.

What an operation does not control comes from a choice: the time, fresh
identifiers, the answer of the provider, a failure. The clock does not go
back, and no identifier is issued twice.

## Where operations begin and end

The program is one process with an event loop, so other tasks run at
`await`s only. Everything between two of these is one step, and a
transaction of the database is another, because the tables are not seen in
the middle of it. Two statements on connections of their own are two
operations, even if one line of the source follows the other.

Several processes would have the same operations, since each statement of
the program is committed on its own: what would differ is only the lock of
the worker.

## Failures

Any operation may fail, for a reason that the program does not control,
and then it has done nothing. There are two exceptions, both about files:
an image that was moved before its thumbnail could be, and one that was
deleted before its thumbnail could be. These are choices of their own. A
statement that is refused by the database is not a failure in this sense:
whether it is refused is decided by the tables.

## What is proved here

Only what holds of each operation by itself. `exec_cases` says that an
operation fails and does nothing, or is performed, and `exec_started` what
it leaves of the clock and the identifiers; what is performed is described
where the operation is defined.
-/

namespace VisionBill

variable [CaseFolding]

/-! ## Exceptions

What a handler may raise. They are told apart by the `except` clauses of
the source, and where their text is stored it is the text that the source
makes. -/

/-- `str` of a database error; the texts of the server are its own. Only
the first two are texts that the program decides by itself. -/
def DbError.str : DbError → String
  | .valueError message => message
  | .isoformat s => "Invalid isoformat string: " ++ s
  | .dataError => "invalid input"
  | .uniqueViolation => "duplicate key value violates unique constraint"
  | .foreignKeyViolation => "violates foreign key constraint"
  | .undefinedTable => "invalid reference to FROM-clause entry"
  | .failed => "statement failed"

/-- What a handler raises. Handlers choose by the class, and some show the
text, so both are kept, and classes that nobody tells apart are one. -/
inductive Exn
  | db (e : DbError)
  /-- `AnalysisTimeoutError`. -/
  | analysisTimeout (message : String)
  /-- `UnreadableReceiptError`. -/
  | unreadableReceipt (message : String)
  /-- `NotFoundError`. -/
  | notFound (message : String)
  /-- `HTTPException`. -/
  | http (status : ℕ) (detail : String)
  /-- Any other exception. -/
  | other (message : String)
  deriving DecidableEq, Repr

/-- `str(exc)`. -/
def Exn.str : Exn → String
  | .db e => e.str
  | .analysisTimeout message | .unreadableReceipt message | .notFound message
  | .other message => message
  | .http status detail => Nat.repr status ++ ": " ++ detail

/-! ## Operations

A handler does nothing by itself: it reads and writes rows, moves files
and asks the provider. These are its operations, and between any two of
them others may act. -/

/-- The configuration. Of all settings the requests read only these
two. -/
structure Settings where
  modelName : String
  saveDir : FilePath

/-- An atomic operation. Its arguments are those of the call, so what an
operation was asked to do can be read off it. -/
inductive Op
  | storeImage (new : NewImage)
  | getImage (caller : Caller) (imageId : UUID)
  | listPendingImages
  | claimForAnalysis (imageId : UUID)
  | markAnalyzed (imageId receiptId : UUID)
  | markFailed (imageId : UUID) (error : String)
  | markTerminal (imageId : UUID) (status : ImageStatus) (error : String)
  | updateImagePath (imageId : UUID) (path : FilePath)
  | updateImageThumbnailPath (imageId : UUID) (path : FilePath)
  | updateAdditionalImages (imageId : UUID) (parts : List ImagePart)
  | deleteImage (imageId : UUID)
  | persistReceipt (receipt : Receipt) (imageId : Option UUID) (status : ReceiptStatus)
      (verified : Bool) (userId : Option UUID)
  | getReceiptByImageId (imageId : UUID)
  | getReceipt (caller : Caller) (receiptId : UUID)
  | updateReceipt (caller : Caller) (receiptId : UUID) (receipt : ReceiptUpdate)
  | verifyReceipt (caller : Caller) (receiptId : UUID)
  | deleteReceipt (caller : Caller) (receiptId : UUID)
  | activeCollection (caller : Caller)
  | collectionExists (caller : Caller) (collectionId : UUID)
  | assign (collectionId receiptId : UUID)
  | deleteReceiptCollections (receiptId : UUID)
  | checkConnection
  | getAvailableModels
  | analyse (modelId : String) (paths : List FilePath)
  | fileExists (path : FilePath)
  | storePermImage (path : FilePath) (receiptId : UUID)
  | deleteFile (path : FilePath)

/-- What an operation returns. -/
def Op.Ret : Op → Type
  | .storeImage _ => ImageRecord
  | .getImage _ _ => Option ImageRecord
  | .listPendingImages => List ImageRecord
  | .claimForAnalysis _ => Option ImageRecord
  | .markAnalyzed _ _ => Unit
  | .markFailed _ _ => Unit
  | .markTerminal _ _ _ => Unit
  | .updateImagePath _ _ => Unit
  | .updateImageThumbnailPath _ _ => Unit
  | .updateAdditionalImages _ _ => Unit
  | .deleteImage _ => Unit
  | .persistReceipt _ _ _ _ _ => ReceiptRecord
  | .getReceiptByImageId _ => Option ReceiptRecord
  | .getReceipt _ _ => Option ReceiptRecord
  | .updateReceipt _ _ _ => Option ReceiptRecord
  | .verifyReceipt _ _ => Option ReceiptRecord
  | .deleteReceipt _ _ => Option ReceiptRecord
  | .activeCollection _ => Option CollectionRecord
  | .collectionExists _ _ => Bool
  | .assign _ _ => Unit
  | .deleteReceiptCollections _ => Unit
  | .checkConnection => Bool
  | .getAvailableModels => List String
  | .analyse _ _ => Receipt
  | .fileExists _ => Bool
  | .storePermImage _ _ => Option FilePath × Option FilePath
  | .deleteFile _ => Unit

/-- A handler, or a part of one. It calls one operation after the other,
and between two of them anything else may run. -/
abbrev Handler (α : Type) := Program Op.Ret Exn α

/-- How many identifiers an operation may need. -/
def Op.newIds : Op → ℕ
  | .storeImage _ => 1
  | .persistReceipt receipt _ _ _ _ => 1 + receipt.lineItems.length + receipt.taxes.length
  | .updateReceipt _ _ receipt => receipt.lineItems.length + receipt.taxes.length
  | _ => 0

theorem Op.newIds_persistReceipt_pos (receipt : Receipt) (imageId : Option UUID)
    (status : ReceiptStatus) (verified : Bool) (userId : Option UUID) :
    0 < (Op.persistReceipt receipt imageId status verified userId).newIds := by
  show 0 < 1 + receipt.lineItems.length + receipt.taxes.length
  omega

/-! ## Performing an operation

A choice says what an operation cannot know: the time, the new
identifiers, what the provider answers, and whether it fails. So all that
may happen is a matter of choices, and a run with given choices is
determined. -/

/-- What the operations share: the database, the files, the clock and the
identifiers that have been issued. It is all the state there is; whatever
else a handler knows is in its program. The clock does not go back, and no
identifier is issued twice. -/
structure World where
  db : Db
  files : Files
  clock : Timestamp
  /-- The identifiers that have been issued. -/
  issued : List UUID

/-- What an operation does not control. One type serves for all
operations, and each uses the part that it needs. -/
structure Choice where
  now : Timestamp
  /-- The identifiers that the server makes. -/
  fresh : List UUID
  /-- The digits of a new file name. -/
  hex : String
  /-- What the provider answers. -/
  connected : Bool
  models : List String
  analysis : Except Exn Receipt
  /-- Whether a benchmark task refers to the receipt at hand. -/
  benchmarked : Bool
  /-- An exception by which the operation fails, without effect. -/
  failure : Option Exn
  /-- An exception by which moving or deleting an image ends halfway: the
  image itself has been moved or deleted, and its thumbnail has not. -/
  thumbnailFailure : Option Exn := none

/-- The identifiers of a choice, as a stream. -/
def Choice.ids (c : Choice) : ℕ → UUID := fun n => c.fresh.getD n 0

namespace World

/-- A statement that returns nothing. -/
def write (w : World) (result : Except DbError Db) : World × Except Exn Unit :=
  match result with
  | .ok db => ({ w with db := db }, .ok ())
  | .error e => (w, .error (.db e))

/-- A statement that returns something. -/
def writeRow {α : Type} (w : World) (result : Except DbError (Db × α)) : World × Except Exn α :=
  match result with
  | .ok (db, a) => ({ w with db := db }, .ok a)
  | .error e => (w, .error (.db e))

/-- A statement that may find nothing. It changes nothing then, and
answers with none. -/
def writeRow? {α : Type} (w : World) (result : Except DbError (Option (Db × α))) :
    World × Except Exn (Option α) :=
  match result with
  | .ok (some (db, a)) => ({ w with db := db }, .ok (some a))
  | .ok none => (w, .ok none)
  | .error e => (w, .error (.db e))

/-- `store_perm_image`. The image is moved before its thumbnail is looked
for, so an exception that is raised there, by `mkdir` for instance, does
not leave the files as they were. -/
def storePermImage (settings : Settings) (w : World) (c : Choice) (path : FilePath)
    (receiptId : UUID) : World × Except Exn (Option FilePath × Option FilePath) :=
  match c.thumbnailFailure, w.files.exists? path with
  | some e, true =>
    let destination := w.files.permDestination settings.saveDir c.hex path receiptId
    ({ w with files := w.files.move path destination }, .error e)
  | _, _ =>
    let (files, paths) := w.files.storePermImage settings.saveDir c.hex path receiptId
    ({ w with files := files }, .ok paths)

/-- `delete_image`, in which the thumbnail comes last as well. -/
def deleteFile (w : World) (c : Choice) (path : FilePath) : World × Except Exn Unit :=
  match c.thumbnailFailure, w.files.exists? path with
  | some e, true => ({ w with files := w.files.unlink path }, .error e)
  | _, _ => ({ w with files := w.files.deleteImage path }, .ok ())

/-- An operation that does not fail at once. -/
def perform (settings : Settings) (w : World) (c : Choice) :
    (op : Op) → World × Except Exn (Op.Ret op)
  | .storeImage new => w.writeRow (w.db.storeImage c.now (c.ids 0) new)
  | .getImage caller imageId => (w, .ok (w.db.imageFor? caller imageId))
  | .listPendingImages => (w, .ok (w.db.listPendingImages c.now))
  | .claimForAnalysis imageId => w.writeRow? (.ok (w.db.claimForAnalysis c.now imageId))
  | .markAnalyzed imageId receiptId => w.write (w.db.markAnalyzed c.now imageId receiptId)
  | .markFailed imageId error => w.write (w.db.markFailed imageId error)
  | .markTerminal imageId status error => w.write (w.db.markTerminal imageId status error)
  | .updateImagePath imageId path => w.write (w.db.updateImagePath imageId path)
  | .updateImageThumbnailPath imageId path => w.write (w.db.updateImageThumbnailPath imageId path)
  | .updateAdditionalImages imageId parts => w.write (w.db.updateAdditionalImages imageId parts)
  | .deleteImage imageId => w.write (.ok (w.db.deleteImage imageId))
  | .persistReceipt receipt imageId status verified userId =>
    w.writeRow (w.db.persistReceipt c.now c.ids receipt imageId status verified userId)
  | .getReceiptByImageId imageId => (w, .ok (w.db.receiptOfImage? imageId))
  | .getReceipt caller receiptId => (w, .ok (w.db.receiptFor? caller receiptId))
  | .updateReceipt caller receiptId receipt =>
    w.writeRow? (w.db.updateReceipt c.ids receiptId receipt caller)
  | .verifyReceipt caller receiptId => w.writeRow? (.ok (w.db.verifyReceipt receiptId caller))
  | .deleteReceipt caller receiptId =>
    w.writeRow? (w.db.deleteReceipt c.benchmarked receiptId caller)
  | .activeCollection caller => (w, .ok (w.db.activeCollection caller))
  | .collectionExists caller collectionId => (w, .ok (w.db.collectionExists caller collectionId))
  | .assign collectionId receiptId => w.write (w.db.assign collectionId receiptId)
  | .deleteReceiptCollections receiptId => w.write (.ok (w.db.deleteReceiptCollections receiptId))
  | .checkConnection => (w, .ok c.connected)
  | .getAvailableModels => (w, .ok c.models)
  | .analyse _ _ => (w, c.analysis)
  | .fileExists path => (w, .ok (w.files.exists? path))
  | .storePermImage path receiptId => w.storePermImage settings c path receiptId
  | .deleteFile path => w.deleteFile c path

/-- A choice that is possible: time does not go back, the identifiers are
new and as many as may be needed, and so is the file name. Nothing else is
assumed of the environment. -/
def Possible (settings : Settings) (w : World) (op : Op) (c : Choice) : Prop :=
  w.clock ≤ c.now ∧ c.fresh.length = op.newIds ∧ c.fresh.Nodup ∧ (∀ id ∈ c.fresh, id ∉ w.issued)
    ∧ match op with
      | .storePermImage path receiptId =>
        w.files.exists? (w.files.permDestination settings.saveDir c.hex path receiptId) = false
      | _ => True

instance (settings : Settings) (w : World) (op : Op) (c : Choice) :
    Decidable (w.Possible settings op c) := by
  unfold Possible
  cases op <;> infer_instance

/-- The world when an operation starts. -/
def started (w : World) (c : Choice) : World :=
  { w with clock := c.now, issued := c.fresh ++ w.issued }

/-- An operation with a choice, by which it may fail. A failing operation
takes time as well, and the identifiers that were drawn for it are not
drawn again. -/
def exec (settings : Settings) (w : World) (op : Op) (c : Choice) :
    Option (World × Except Exn (Op.Ret op)) :=
  if w.Possible settings op c then
    match c.failure with
    | some e => some (w.started c, .error e)
    | none => some ((w.started c).perform settings c op)
  else none

/-! ## What an operation can do

Each operation is one of a few kinds of change, or none. Invariants are
shown for the kinds and not for the operations. -/

omit [CaseFolding] in
theorem write_eq {w w' : World} {result : Except DbError Db} {r : Except Exn Unit}
    (h : w.write result = (w', r)) :
    (result = .ok w'.db ∧ w' = { w with db := w'.db } ∧ r = .ok ())
      ∨ (w' = w ∧ ∃ e, r = .error e) := by
  unfold write at h
  split at h
  · obtain ⟨rfl, rfl⟩ := Prod.mk.inj h
    exact .inl ⟨rfl, rfl, rfl⟩
  · exact .inr ⟨(Prod.mk.inj h).1.symm, _, (Prod.mk.inj h).2.symm⟩

omit [CaseFolding] in
theorem writeRow_eq {α : Type} {w w' : World} {result : Except DbError (Db × α)}
    {r : Except Exn α} (h : w.writeRow result = (w', r)) :
    (∃ a, result = .ok (w'.db, a) ∧ w' = { w with db := w'.db } ∧ r = .ok a)
      ∨ (w' = w ∧ ∃ e, r = .error e) := by
  unfold writeRow at h
  split at h
  · next db a =>
    obtain ⟨rfl, rfl⟩ := Prod.mk.inj h
    exact .inl ⟨a, rfl, rfl, rfl⟩
  · exact .inr ⟨(Prod.mk.inj h).1.symm, _, (Prod.mk.inj h).2.symm⟩

omit [CaseFolding] in
theorem writeRow?_eq {α : Type} {w w' : World} {result : Except DbError (Option (Db × α))}
    {r : Except Exn (Option α)} (h : w.writeRow? result = (w', r)) :
    (∃ a, result = .ok (some (w'.db, a)) ∧ w' = { w with db := w'.db } ∧ r = .ok (some a))
      ∨ (w' = w ∧ (r = .ok none ∨ ∃ e, r = .error e)) := by
  unfold writeRow? at h
  split at h
  · next db a =>
    obtain ⟨rfl, rfl⟩ := Prod.mk.inj h
    exact .inl ⟨a, rfl, rfl, rfl⟩
  · exact .inr ⟨(Prod.mk.inj h).1.symm, .inl (Prod.mk.inj h).2.symm⟩
  · exact .inr ⟨(Prod.mk.inj h).1.symm, .inr ⟨_, (Prod.mk.inj h).2.symm⟩⟩

/-- Whatever becomes of an image, nothing but files changes. -/
theorem storePermImage_eq {settings : Settings} {w w' : World} {c : Choice} {path : FilePath}
    {receiptId : UUID} {r : Except Exn (Option FilePath × Option FilePath)}
    (h : w.storePermImage settings c path receiptId = (w', r)) :
    w' = { w with files := w'.files } := by
  unfold storePermImage at h
  split at h
  all_goals
    obtain ⟨rfl, -⟩ := Prod.mk.inj h
    rfl

theorem deleteFile_eq {w w' : World} {c : Choice} {path : FilePath} {r : Except Exn Unit}
    (h : w.deleteFile c path = (w', r)) : w' = { w with files := w'.files } := by
  unfold deleteFile at h
  split at h
  all_goals
    obtain ⟨rfl, -⟩ := Prod.mk.inj h
    rfl

theorem db_of_storePermImage {settings : Settings} {w w' : World} {c : Choice} {path : FilePath}
    {receiptId : UUID} {r : Except Exn (Option FilePath × Option FilePath)}
    (h : w.storePermImage settings c path receiptId = (w', r)) : w'.db = w.db := by
  rw [storePermImage_eq h]

theorem db_of_deleteFile {w w' : World} {c : Choice} {path : FilePath} {r : Except Exn Unit}
    (h : w.deleteFile c path = (w', r)) : w'.db = w.db := by
  rw [deleteFile_eq h]

/-- Performing an operation does not take time or identifiers. Both are
taken when it starts, whether it fails or not. -/
theorem perform_started (settings : Settings) (w : World) (c : Choice) (op : Op) :
    (w.perform settings c op).1.clock = w.clock
      ∧ (w.perform settings c op).1.issued = w.issued := by
  have hwrite : ∀ result : Except DbError Db,
      (w.write result).1.clock = w.clock ∧ (w.write result).1.issued = w.issued := by
    intro result
    unfold write
    split <;> exact ⟨rfl, rfl⟩
  have hwriteRow : ∀ {α : Type} (result : Except DbError (Db × α)),
      (w.writeRow result).1.clock = w.clock ∧ (w.writeRow result).1.issued = w.issued := by
    intro α result
    unfold writeRow
    split <;> exact ⟨rfl, rfl⟩
  have hwriteRow? : ∀ {α : Type} (result : Except DbError (Option (Db × α))),
      (w.writeRow? result).1.clock = w.clock ∧ (w.writeRow? result).1.issued = w.issued := by
    intro α result
    unfold writeRow?
    split <;> exact ⟨rfl, rfl⟩
  have hfiles : ∀ w' : World, w' = { w with files := w'.files } →
      w'.clock = w.clock ∧ w'.issued = w.issued := by
    intro w' hw'
    rw [hw']
    exact ⟨rfl, rfl⟩
  -- what an operation does is one of these, or nothing
  cases op
  case storePermImage path receiptId => exact hfiles _ (storePermImage_eq rfl)
  case deleteFile path => exact hfiles _ (deleteFile_eq rfl)
  all_goals first
    | exact hwrite _
    | exact hwriteRow _
    | exact hwriteRow? _
    | exact ⟨rfl, rfl⟩

/-- An operation fails by its choice and does nothing, or it is performed.
Proofs about all operations begin with this split. -/
theorem exec_cases {settings : Settings} {w w' : World} {op : Op} {c : Choice}
    {r : Except Exn op.Ret} (h : w.exec settings op c = some (w', r)) :
    (∃ e, c.failure = some e ∧ w' = w.started c ∧ r = .error e)
      ∨ (c.failure = none ∧ (w.started c).perform settings c op = (w', r)) := by
  unfold exec at h
  split at h
  · split at h
    · next e hfailure =>
      obtain ⟨rfl, rfl⟩ := Prod.mk.inj (Option.some.inj h)
      exact .inl ⟨e, hfailure, rfl, rfl⟩
    · next hfailure => exact .inr ⟨hfailure, Option.some.inj h⟩
  · exact absurd h (by simp)

/-- An operation fails and does nothing, or it is performed. -/
theorem exec_eq {settings : Settings} {w w' : World} {op : Op} {c : Choice}
    {r : Except Exn op.Ret} (h : w.exec settings op c = some (w', r)) :
    w.Possible settings op c
      ∧ ((w' = w.started c ∧ ∃ e, r = .error e)
        ∨ (c.failure = none ∧ (w.started c).perform settings c op = (w', r))) := by
  have hpossible : w.Possible settings op c := by
    unfold exec at h
    split at h
    · assumption
    · exact absurd h (by simp)
  refine ⟨hpossible, ?_⟩
  rcases exec_cases h with ⟨e, -, hw, hr⟩ | hperform
  · exact .inl ⟨hw, e, hr⟩
  · exact .inr hperform

/-- An operation that returns, unless its choice is a failure, and what
follows it then. -/
theorem run_returns {settings : Settings} {w w' : World} {α : Type} {op : Op}
    {f : op.Ret → Handler α} {cs : List Choice} {r : Except Exn α} {d : Db} {a : op.Ret}
    (hperform : ∀ c, (w.started c).perform settings c op = ({ w.started c with db := d }, .ok a))
    (h : (Program.perform op >>= f).run (exec settings) cs w = some (w', r)) :
    ∃ c cs', cs = c :: cs'
      ∧ ((c.failure ≠ none ∧ cs' = [] ∧ w'.db = w.db ∧ ∃ e, r = .error e)
        ∨ (c.failure = none
          ∧ (f a).run (exec settings) cs' { w.started c with db := d } = some (w', r))) := by
  obtain ⟨c, cs', rfl, hrun⟩ := Program.run_perform_bind h
  refine ⟨c, cs', rfl, ?_⟩
  rcases hrun with ⟨w₁, a₁, hexec, hrest⟩ | ⟨e, hexec, rfl, rfl⟩
  · rcases exec_cases hexec with ⟨e, -, -, he⟩ | ⟨hfailure, hresult⟩
    · exact absurd he (by simp)
    · obtain ⟨rfl, heq⟩ := Prod.mk.inj ((hperform c).symm.trans hresult)
      obtain rfl := Except.ok.inj heq
      exact .inr ⟨hfailure, hrest⟩
  · rcases exec_cases hexec with ⟨e, hfailure, rfl, -⟩ | ⟨-, hresult⟩
    · exact .inl ⟨by rw [hfailure]; simp, rfl, rfl, _, rfl⟩
    · exact absurd (Prod.mk.inj ((hperform c).symm.trans hresult)).2 (by simp)

/-- A statement that returns nothing has written, or it has raised. -/
theorem exec_write {w w' : World} {c : Choice} {result : Except DbError Db} {r : Except Exn Unit}
    (h : (∃ e, c.failure = some e ∧ w' = w.started c ∧ r = .error e)
      ∨ (c.failure = none ∧ (w.started c).write result = (w', r))) :
    (r = .ok () ∧ result = .ok w'.db) ∨ ((∃ e, r = .error e) ∧ w'.db = w.db) := by
  rcases h with ⟨e, -, rfl, rfl⟩ | ⟨-, hwrite⟩
  · exact .inr ⟨⟨e, rfl⟩, rfl⟩
  · rcases write_eq hwrite with ⟨hresult, -, hr⟩ | ⟨rfl, hr⟩
    · exact .inl ⟨hr, hresult⟩
    · exact .inr ⟨hr, rfl⟩

/-- What an operation leaves of the clock and the identifiers. -/
theorem exec_started {settings : Settings} {w w' : World} {op : Op} {c : Choice}
    {r : Except Exn op.Ret} (h : w.exec settings op c = some (w', r)) :
    w'.clock = c.now ∧ w'.issued = c.fresh ++ w.issued := by
  obtain ⟨-, ⟨rfl, -⟩ | ⟨-, hperform⟩⟩ := exec_eq h
  · exact ⟨rfl, rfl⟩
  · have hframe := perform_started settings (w.started c) c op
    rw [hperform] at hframe
    exact hframe

/-- The identifiers that an operation uses have never been issued. -/
theorem Possible.ids_fresh {settings : Settings} {w : World} {op : Op} {c : Choice}
    (h : w.Possible settings op c) {n : ℕ} (hn : n < op.newIds) :
    c.ids n ∈ c.fresh ∧ c.ids n ∉ w.issued := by
  have hmem : c.ids n ∈ c.fresh := by
    unfold Choice.ids
    rw [List.getD_eq_getElem _ _ (h.2.1 ▸ hn)]
    exact List.getElem_mem _
  exact ⟨hmem, h.2.2.2.1 _ hmem⟩

end World

end VisionBill
