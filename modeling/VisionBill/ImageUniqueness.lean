import VisionBill.Lib.Exclusive
import VisionBill.ReceiptDB
import Mathlib.Data.Finset.Card

/-!
# The trigger on the images of receipts

Migration `0002` sees to it that an image gets no second receipt. Where
older rows share an image already it cannot build a unique index, so it
relies on a trigger, which looks for another receipt of the image; and
since a statement does not see what other transactions have not committed,
the trigger takes an advisory lock first, whose key is a hash of the
image.

Here is what this comes to for transactions that run statement by
statement, in any order (`receipts_of_image`). The transactions are
arbitrary, and so is the hash: images with the same hash only make
transactions wait for each other.

## Why the lock is needed

The trigger runs as part of the statement that writes a row, and sees what
that statement sees. If two transactions insert a receipt of one image at
the same time, neither sees the row of the other, so both checks succeed.
With the lock one of them waits until the other has ended, and its check
is done after that: the source says so where it orders the two (`guards`).
A lock is held to the end of a transaction and not only of the statement,
which is what makes this work for transactions of several statements.

## What is promised

Not that an image has one receipt: images that share one since before the
migration still do. What is promised is that an image does not *gain* one.
Between any two moments the receipts of an image are some of those that it
had, unless there is one at most. The library states this for any table
whose rows have tags (`Tagging`), with transactions that lock a tag before
they give it to a row; images are the tags here (`images`), and what is
shown of the trigger is that it is such a lock.

The trigger stands in front of the statements that other modules treat as
operations of the database. `insertReceipt_eq_ok_iff` says that these
agree: an insertion that goes through there is one that the trigger lets
pass.
-/

namespace VisionBill

/-! ## The trigger

It runs before each insertion and each update, and looks for another
receipt with the same image. A receipt that had its image before is let
through, so that receipts which share an image since before the migration
can still be edited. -/

/-- `TG_OP`, with the row `OLD` of an update. The trigger reads the old
row only where there is one. -/
inductive TgOp
  | insert
  | update (old : ReceiptRecord)

/-- The image of `OLD`. -/
def TgOp.oldImageId : TgOp → Option UUID
  | .insert => none
  | .update old => old.imageId

/-- The image that `vision_bill_check_receipt_image_id` goes on to check,
if it does not return at once: the new one of the row. A row without an
image, and an update that leaves the image as it is, are not checked. -/
def newImage? (op : TgOp) (new : ReceiptRecord) : Option UUID :=
  if op.oldImageId = new.imageId then none else new.imageId

/-- `vision_bill_check_receipt_image_id`, after the lock is taken. It
looks for another receipt of the image among what the statement sees. -/
def checkReceiptImageId (receipts : Table ReceiptRecord ReceiptRecord.id) (op : TgOp)
    (new : ReceiptRecord) : Except DbError Unit :=
  if ∃ image ∈ newImage? op new, ∃ r ∈ receipts.rows, r.imageId = some image ∧ r.id ≠ new.id then
    .error .uniqueViolation
  else .ok ()

/-- The receipts of an image. -/
def receiptsOf (receipts : Table ReceiptRecord ReceiptRecord.id) (image : UUID) : List UUID :=
  (receipts.rows.filter fun r => r.imageId = some image).map ReceiptRecord.id

/-- Whether `CREATE_IMAGE_UNIQUE_INDEX_SQL` finds historical duplicates.
If so, no index is built and the trigger is all there is. The duplicates
stay: nothing is known of which receipt of an image would be the right
one. -/
def HasDuplicates (receipts : Table ReceiptRecord ReceiptRecord.id) : Prop :=
  ∃ r ∈ receipts.rows, ∃ image ∈ r.imageId, 1 < (receiptsOf receipts image).length

instance (receipts : Table ReceiptRecord ReceiptRecord.id) : Decidable (HasDuplicates receipts) :=
  inferInstanceAs (Decidable (∃ r ∈ receipts.rows, ∃ image ∈ r.imageId, _))

/-! ## Statements on `receipts`

Every statement that writes such a row is covered, whatever it changes, by
a statement with a function. A transaction is any program of them. -/

/-- The locks that statements take: on a row, or an advisory one, whose
key is a number. -/
inductive ReceiptLock
  /-- Of a row. -/
  | row (id : UUID)
  /-- `pg_advisory_xact_lock`. -/
  | advisory (key : ℤ)
  deriving DecidableEq

/-- The statements. An update that does not set `image_id` leaves it as it
is, for which the trigger would return at once. What an update sets is a
function of the row, so that all updates of the program, and all others,
are covered. -/
inductive ReceiptsStatement
  | insert (row : ReceiptRecord)
  | update (id : UUID) (change : ReceiptRecord → ReceiptRecord)
    (keepsId : ∀ r, (change r).id = r.id)
  | delete (id : UUID)
  /-- `SELECT ... FOR UPDATE`. -/
  | selectForUpdate (id : UUID)
  /-- Any query, by what it sees. -/
  | select

/-- A row that is written. An update writes the whole row again, as the
database does. -/
inductive ReceiptsWrite
  | put (row : ReceiptRecord)
  | remove (id : UUID)

namespace ReceiptsStatement

/-- What they return. -/
@[reducible] def Ret : ReceiptsStatement → Type
  | insert _ => Unit
  | update .. | delete _ | selectForUpdate _ => Option ReceiptRecord
  | select => Table ReceiptRecord ReceiptRecord.id

/-- What they write. The trigger runs before the row is written, and sees
what has been committed and what its own transaction has written. -/
def eval (receipts : Table ReceiptRecord ReceiptRecord.id) :
    (op : ReceiptsStatement) → Except DbError (List ReceiptsWrite × op.Ret)
  | insert row => do
    checkReceiptImageId receipts .insert row
    if (receipts.get? row.id).isSome then throw .uniqueViolation
    return ([.put row], ())
  | update id change _ =>
    match receipts.get? id with
    | none => return ([], none)
    | some old => do
      checkReceiptImageId receipts (.update old) (change old)
      return ([.put (change old)], some (change old))
  | delete id =>
    match receipts.get? id with
    | none => return ([], none)
    | some old => return ([.remove id], some old)
  | selectForUpdate id => return ([], receipts.get? id)
  | select => return ([], receipts)

/-- The lock that the trigger takes. It is the hash of an image, so two
images may have the same one. -/
def advisory (hashtextextended : UUID → ℤ) (op : TgOp) (new : ReceiptRecord) : List ReceiptLock :=
  ((newImage? op new).map fun image => .advisory (hashtextextended image)).toList

/-- What they lock. The advisory lock is taken by the trigger, for the
image that the row is about to name; all other locks are on rows. -/
def locks (hashtextextended : UUID → ℤ) (receipts : Table ReceiptRecord ReceiptRecord.id) :
    ReceiptsStatement → List ReceiptLock
  | insert row => .row row.id :: advisory hashtextextended .insert row
  | update id change _ =>
    match receipts.get? id with
    | none => []
    | some old => .row id :: advisory hashtextextended (.update old) (change old)
  | delete id | selectForUpdate id => ((receipts.get? id).map fun _ => .row id).toList
  | select => []

/-- The effect of a row that is written. -/
def write (receipts : Table ReceiptRecord ReceiptRecord.id) :
    ReceiptsWrite → Table ReceiptRecord ReceiptRecord.id
  | .put row => receipts.upsert row
  | .remove id => receipts.filter fun r => r.id ≠ id

/-- The statements under READ COMMITTED. The hash is a parameter and may
be any function, even a constant one. -/
def receiptsSql (hashtextextended : UUID → ℤ) : Statements ReceiptsStatement.Ret DbError
    (Table ReceiptRecord ReceiptRecord.id) ReceiptsWrite ReceiptLock where
  eval := fun op receipts => eval receipts op
  locks := fun op receipts => locks hashtextextended receipts op
  write := write

/-! ## The images as tags

The image of a receipt is its tag, and a write gives a row a tag that it
did not have, or does not. Only the former can make two rows have the
same. -/

/-- The image of a receipt, if there is such a receipt and it has one. -/
def imageOf (receipts : Table ReceiptRecord ReceiptRecord.id) (id : UUID) : Option UUID :=
  (receipts.get? id).bind ReceiptRecord.imageId

theorem imageOf_upsert (receipts : Table ReceiptRecord ReceiptRecord.id) (row : ReceiptRecord)
    (id : UUID) : imageOf (receipts.upsert row) id
      = if row.id = id then row.imageId else imageOf receipts id := by
  unfold imageOf
  rw [Table.get?_upsert]
  split
  · rfl
  · rfl

theorem imageOf_remove (receipts : Table ReceiptRecord ReceiptRecord.id) (id id' : UUID) :
    imageOf (receipts.filter fun r => r.id ≠ id) id'
      = if id' = id then none else imageOf receipts id' := by
  unfold imageOf
  rw [Table.get?_filter_ne]
  split
  · rfl
  · rfl

theorem imageOf_eq_some_iff {receipts : Table ReceiptRecord ReceiptRecord.id} {id image : UUID} :
    imageOf receipts id = some image ↔ id ∈ receiptsOf receipts image := by
  unfold imageOf receiptsOf
  rw [Option.bind_eq_some_iff, List.mem_map]
  refine exists_congr fun r => ?_
  rw [Table.get?_eq_some_iff, List.mem_filter, decide_eq_true_iff, and_right_comm]

/-- Receipts are tagged with their images. A statement that gives a
receipt an image makes the image gain one; deleting and rewriting do
not. -/
def images (hashtextextended : UUID → ℤ) : (receiptsSql hashtextextended).Tagging UUID UUID where
  tag := imageOf
  row
    | .put row => row.id
    | .remove id => id
  tagged
    | .put row => row.imageId
    | .remove _ => none
  tag_row := by
    rintro receipts (row | id)
    · exact (imageOf_upsert receipts row row.id).trans (if_pos rfl)
    · exact (imageOf_remove receipts id id).trans (if_pos rfl)
  tag_of_ne := by
    rintro receipts (row | id) id' hne
    · exact (imageOf_upsert receipts row id').trans (if_neg (Ne.symm hne))
    · exact (imageOf_remove receipts id id').trans (if_neg hne)

variable {hashtextextended : UUID → ℤ} {receipts receipts' : Table ReceiptRecord ReceiptRecord.id}
  {image : UUID}

theorem not_gains_iff : ¬ (images hashtextextended).Gains receipts receipts' image
    ↔ receiptsOf receipts' image ⊆ receiptsOf receipts image := by
  constructor
  · intro h id hid
    exact imageOf_eq_some_iff.mp
      (Statements.Tagging.tag_of_not_gains h (imageOf_eq_some_iff.mpr hid))
  · rintro h ⟨id, hid, hne⟩
    exact hne (imageOf_eq_some_iff.mpr (h (imageOf_eq_some_iff.mp hid)))

/-- The receipts of an image have distinct identifiers. -/
theorem nodup_receiptsOf : (receiptsOf receipts image).Nodup :=
  receipts.nodup.sublist (List.filter_sublist.map _)

theorem single_iff : (images hashtextextended).Single receipts image
    ↔ (receiptsOf receipts image).length ≤ 1 := by
  rw [← List.toFinset_card_of_nodup nodup_receiptsOf, Finset.card_le_one]
  simp only [List.mem_toFinset, ← imageOf_eq_some_iff]
  exact ⟨fun h id hid id' hid' => h id id' hid hid', fun h id id' hid hid' => h id hid id' hid'⟩

/-- What the trigger lets pass: a row that has got an image has been
checked, and is the only one of the image then. The check is skipped where
the image does not change, and then no image gains a receipt. -/
theorem gains_put {op : TgOp} {new : ReceiptRecord}
    (hold : op.oldImageId = imageOf receipts new.id)
    (hcheck : checkReceiptImageId receipts op new = .ok ())
    (hgains : (images hashtextextended).Gains receipts (receipts.upsert new) image) :
    newImage? op new = some image
      ∧ (images hashtextextended).Single (receipts.upsert new) image := by
  have hput : ∀ id, imageOf (receipts.upsert new) id = some image →
      id = new.id ∨ imageOf receipts id = some image := by
    intro id hid
    by_cases hne : id = new.id
    · exact .inl hne
    · rw [imageOf_upsert, if_neg (Ne.symm hne)] at hid
      exact .inr hid
  obtain ⟨id, hid, hlost⟩ := hgains
  obtain rfl := (hput id hid).resolve_right hlost
  have hnew : new.imageId = some image := by
    rw [← hid]
    exact ((imageOf_upsert receipts new new.id).trans (if_pos rfl)).symm
  have himage : newImage? op new = some image := by
    unfold newImage?
    rw [if_neg, hnew]
    rw [hold, hnew]
    exact hlost
  refine ⟨himage, fun id id' hid hid' => ?_⟩
  -- any other row of the image would have been found
  have hfree : ∀ id, imageOf receipts id = some image → id = new.id := by
    intro id hid
    obtain ⟨r, hr, hlink⟩ := Option.bind_eq_some_iff.mp hid
    obtain ⟨hmem, rfl⟩ := Table.get?_eq_some_iff.mp hr
    by_contra hne
    unfold checkReceiptImageId at hcheck
    rw [if_pos ⟨image, himage, r, hmem, hlink, hne⟩] at hcheck
    exact absurd hcheck (by simp)
  have honly : ∀ id, imageOf (receipts.upsert new) id = some image → id = new.id := by
    intro id hid
    exact (hput id hid).elim (fun heq => heq) (hfree id)
  exact (honly id hid).trans (honly id' hid').symm

/-! ## What the statements do

A statement that gives a row a new image has looked whether another row
has it, and holds the lock of that image until its transaction ends. This
is what the library asks for. -/

/-- An insertion that succeeds: the trigger has raised nothing, and the
identifier is new. The trigger comes first, as it does in the server. -/
theorem eval_insert_iff {row : ReceiptRecord} {out : List ReceiptsWrite × Unit} :
    eval receipts (.insert row) = .ok out
      ↔ checkReceiptImageId receipts .insert row = .ok () ∧ receipts.get? row.id = none
        ∧ out = ([.put row], ()) := by
  have heval : eval receipts (.insert row) = checkReceiptImageId receipts .insert row >>= fun _ =>
      if (receipts.get? row.id).isSome then .error .uniqueViolation
      else .ok ([.put row], ()) := by
    show (checkReceiptImageId receipts .insert row >>= fun _ => _) = _
    refine congrArg _ (funext fun _ => ?_)
    split
    · rfl
    · rfl
  rw [heval]
  cases hcheck : checkReceiptImageId receipts .insert row with
  | error e => simp [bind, Except.bind]
  | ok _ =>
    rw [bind_of_ok rfl]
    cases hrow : receipts.get? row.id with
    | some old => simp
    | none => simp [eq_comm]

/-- An update that succeeds. It writes no row if there is none; otherwise
the trigger has seen both the old row and the new one. -/
theorem eval_update {id : UUID} {change : ReceiptRecord → ReceiptRecord}
    {keepsId : ∀ r, (change r).id = r.id} {writes : List ReceiptsWrite}
    {a : Option ReceiptRecord} (h : eval receipts (.update id change keepsId) = .ok (writes, a)) :
    writes = [] ∨ ∃ old, receipts.get? id = some old
      ∧ checkReceiptImageId receipts (.update old) (change old) = .ok ()
      ∧ writes = [.put (change old)] := by
  unfold eval at h
  dsimp only at h
  split at h
  · exact .inl (Prod.mk.inj (Except.ok.inj h)).1.symm
  · next old hold =>
    obtain ⟨⟨⟩, hcheck, h⟩ := bind_eq_ok.mp h
    exact .inr ⟨old, hold, hcheck, (Prod.mk.inj (Except.ok.inj h)).1.symm⟩

/-- A deletion. -/
theorem eval_delete {id : UUID} {writes : List ReceiptsWrite} {a : Option ReceiptRecord}
    (h : eval receipts (.delete id) = .ok (writes, a)) :
    writes = [] ∨ (∃ old, receipts.get? id = some old) ∧ writes = [.remove id] := by
  unfold eval at h
  dsimp only at h
  split at h
  · exact .inl (Prod.mk.inj (Except.ok.inj h)).1.symm
  · next old hold => exact .inr ⟨⟨old, hold⟩, (Prod.mk.inj (Except.ok.inj h)).1.symm⟩

/-- A statement locks the rows that it writes. The library asks this of
every system, since a row that is written without a lock could be written
twice. -/
theorem locksWrites : (receiptsSql hashtextextended).LocksWrites
    fun w => [.row ((images hashtextextended).row w)] := by
  intro op receipts writes a heval w hw key hkey
  obtain rfl := List.mem_singleton.mp hkey
  show _ ∈ locks hashtextextended receipts op
  cases op with
  | insert row =>
    obtain ⟨-, -, hout⟩ := eval_insert_iff.mp heval
    obtain rfl := (Prod.mk.inj hout).1
    obtain rfl := List.mem_singleton.mp hw
    exact List.mem_cons_self
  | update id change keepsId =>
    rcases eval_update heval with rfl | ⟨old, hold, -, rfl⟩
    · exact absurd hw List.not_mem_nil
    · obtain rfl := List.mem_singleton.mp hw
      obtain ⟨-, hid⟩ := Table.get?_eq_some_iff.mp hold
      unfold locks
      dsimp only
      rw [hold]
      show ReceiptLock.row (change old).id ∈ _
      rw [keepsId, hid]
      exact List.mem_cons_self
  | delete id =>
    rcases eval_delete heval with rfl | ⟨⟨old, hold⟩, rfl⟩
    · exact absurd hw List.not_mem_nil
    · obtain rfl := List.mem_singleton.mp hw
      show ReceiptLock.row id ∈ ((receipts.get? id).map fun _ => ReceiptLock.row id).toList
      rw [hold]
      exact List.mem_singleton_self _
  | selectForUpdate id =>
    obtain rfl := (Prod.mk.inj (Except.ok.inj heval)).1
    exact absurd hw List.not_mem_nil
  | select =>
    obtain rfl := (Prod.mk.inj (Except.ok.inj heval)).1
    exact absurd hw List.not_mem_nil

theorem mem_advisory {op : TgOp} {new : ReceiptRecord} (h : newImage? op new = some image) :
    ReceiptLock.advisory (hashtextextended image) ∈ advisory hashtextextended op new := by
  unfold advisory
  rw [h]
  exact List.mem_singleton_self _

/-- A statement that gives an image to a receipt has the lock of the
image, and no other receipt has it. This is the condition under which the
library's theorem on tags applies, and everything that is particular to
the trigger. -/
theorem guards : (images hashtextextended).Guards
    fun image => .advisory (hashtextextended image) := by
  intro op receipts writes a heval image hgains
  show _ ∈ locks hashtextextended receipts op ∧ _
  cases op with
  | insert row =>
    obtain ⟨hcheck, hnone, hout⟩ := eval_insert_iff.mp heval
    obtain rfl := (Prod.mk.inj hout).1
    have hold : TgOp.insert.oldImageId = imageOf receipts row.id := by
      unfold imageOf
      rw [hnone]
      rfl
    obtain ⟨himage, hsingle⟩ := gains_put hold hcheck hgains
    exact ⟨List.mem_cons_of_mem _ (mem_advisory himage), hsingle⟩
  | update id change keepsId =>
    rcases eval_update heval with rfl | ⟨old, hget, hcheck, rfl⟩
    · exact absurd hgains Statements.Tagging.not_gains_self
    · have hid : (change old).id = id :=
        (keepsId old).trans (Table.get?_eq_some_iff.mp hget).2
      have hold : (TgOp.update old).oldImageId = imageOf receipts (change old).id := by
        unfold imageOf
        rw [hid, hget]
        rfl
      obtain ⟨himage, hsingle⟩ := gains_put hold hcheck hgains
      unfold locks
      dsimp only
      rw [hget]
      exact ⟨List.mem_cons_of_mem _ (mem_advisory himage), hsingle⟩
  | delete id =>
    rcases eval_delete heval with rfl | ⟨-, rfl⟩
    · exact absurd hgains Statements.Tagging.not_gains_self
    · -- it only takes an image away
      obtain ⟨id', hid', hlost⟩ := hgains
      have hremove : imageOf (receipts.filter fun r => r.id ≠ id) id' = some image := hid'
      rw [imageOf_remove] at hremove
      split at hremove
      · exact absurd hremove (by simp)
      · exact absurd hremove hlost
  | selectForUpdate id =>
    obtain rfl := (Prod.mk.inj (Except.ok.inj heval)).1
    exact absurd hgains Statements.Tagging.not_gains_self
  | select =>
    obtain rfl := (Prod.mk.inj (Except.ok.inj heval)).1
    exact absurd hgains Statements.Tagging.not_gains_self

/-- What the trigger looks for before an insertion: any receipt of the
image. A receipt without an image is always let pass. -/
theorem checkReceiptImageId_insert_iff {row : ReceiptRecord}
    (hnone : receipts.get? row.id = none) :
    checkReceiptImageId receipts .insert row = .ok ()
      ↔ ¬ ∃ r ∈ receipts.rows, r.imageId.isSome ∧ r.imageId = row.imageId := by
  have hnew : ∀ image, newImage? .insert row = some image ↔ row.imageId = some image := by
    intro image
    unfold newImage? TgOp.oldImageId
    cases row.imageId with
    | none => simp
    | some i => simp
  have hfind : (∃ image ∈ newImage? .insert row, ∃ r ∈ receipts.rows,
      r.imageId = some image ∧ r.id ≠ row.id)
        ↔ ∃ r ∈ receipts.rows, r.imageId.isSome ∧ r.imageId = row.imageId := by
    constructor
    · rintro ⟨image, himage, r, hr, hlink, -⟩
      rw [Option.mem_def, hnew] at himage
      exact ⟨r, hr, by rw [hlink]; rfl, hlink.trans himage.symm⟩
    · rintro ⟨r, hr, hsome, hsame⟩
      obtain ⟨image, hlink⟩ := Option.isSome_iff_exists.mp hsome
      exact ⟨image, (hnew image).mpr (hsame.symm.trans hlink), r, hr, hlink,
        Table.get?_eq_none_iff.mp hnone r hr⟩
  unfold checkReceiptImageId
  rw [← hfind]
  split
  · next h => exact iff_of_false (by simp) (not_not_intro h)
  · next h => exact iff_of_true rfl h

/-- The table keys of receipts: an insertion puts a new row. With it the
abstract writes of the library are the insertions of the table. -/
theorem insert_eq_some_iff_of_put {row : ReceiptRecord} :
    receipts.insert row = some receipts'
      ↔ receipts.get? row.id = none ∧ receipts' = receipts.upsert row := by
  by_cases htaken : row.id ∈ receipts.rows.map ReceiptRecord.id
  · obtain ⟨r, hr, hid⟩ := List.mem_map.mp htaken
    rw [Table.insert_eq_none_iff.mpr htaken, Table.get?_eq_some_iff.mpr ⟨hr, hid⟩]
    simp
  · have hinsert : receipts.insert row = some (receipts.upsert row) :=
      Table.insert_eq_some_iff.mpr ⟨htaken, congrArg Table.rows (dif_neg htaken)⟩
    have hnone : receipts.get? row.id = none :=
      Table.get?_eq_none_iff.mpr fun r hr hid => htaken (List.mem_map.mpr ⟨r, hr, hid⟩)
    rw [hinsert, hnone, and_iff_right rfl, Option.some.injEq]
    exact eq_comm

/-- **The trigger is what `INSERT_RECEIPT_SQL` meets**: an insertion
succeeds exactly if the statement does and the image exists. The foreign
key is the other condition of the table, which the trigger knows nothing
of. -/
theorem insertReceipt_eq_ok_iff {db db' : Db} {row : ReceiptRecord} :
    db.insertReceipt row = .ok db'
      ↔ eval db.receipts (.insert row) = .ok ([.put row], ())
        ∧ (∀ i ∈ row.imageId, (db.images.get? i).isSome)
        ∧ db' = { db with receipts := write db.receipts (.put row) } := by
  rw [eval_insert_iff]
  unfold Db.insertReceipt
  -- a taken identifier first, then the trigger and the foreign key
  cases hget : db.receipts.get? row.id with
  | some old =>
    refine iff_of_false ?_ (by simp)
    have htaken : db.receipts.insert row = none := by
      obtain ⟨hr, hid⟩ := Table.get?_eq_some_iff.mp hget
      exact Table.insert_eq_none_iff.mpr (List.mem_map.mpr ⟨old, hr, hid⟩)
    rw [htaken]
    split
    · simp
    · split <;> simp
  | none =>
    rw [insert_eq_some_iff_of_put.mpr ⟨hget, rfl⟩, checkReceiptImageId_insert_iff hget]
    split
    · next himage => exact iff_of_false (by simp) fun h => h.1.1 himage
    · next himage =>
      rw [and_iff_right ⟨himage, rfl, rfl⟩]
      split
      · next hfk =>
        refine iff_of_false (by simp) fun h => ?_
        obtain ⟨i, hi, hnone⟩ := hfk
        have hsome := h.1 i hi
        rw [Option.isNone_iff_eq_none.mp hnone] at hsome
        exact absurd hsome (by simp)
      · next hfk =>
        have hall : ∀ i ∈ row.imageId, (db.images.get? i).isSome := fun i hi =>
          Option.isSome_iff_ne_none.mpr fun hnone => hfk ⟨i, hi, by rw [hnone]; rfl⟩
        rw [and_iff_right hall, Except.ok.injEq]
        exact eq_comm

end ReceiptsStatement

/-! ## Interleaved transactions -/

open ReceiptsStatement in
/-- **An image gets no second receipt.** Whatever transactions on
`receipts` run at the same time, statement by statement: between any two
moments, the receipts of an image are some that it had, or there is one at
most; an open transaction sees it so as well; two open transactions have
not both given an image a receipt; and without historical duplicates there
never are any. -/
theorem receipts_of_image {ρ α : Type} (hashtextextended : UUID → ℤ)
    (program : ρ → Program ReceiptsStatement.Ret DbError α)
    (receipts : Table ReceiptRecord ReceiptRecord.id)
    (s s' : Sessions ReceiptsStatement.Ret DbError α (Table ReceiptRecord ReceiptRecord.id)
      ReceiptsWrite ReceiptLock ρ)
    (run : Transition.Reachable ((receiptsSql hashtextextended).step program)
      (Statements.initial receipts) s)
    (run' : Transition.Reachable ((receiptsSql hashtextextended).step program) s s') :
    (∀ image, receiptsOf s'.stored image ⊆ receiptsOf s.stored image
        ∨ (receiptsOf s'.stored image).length ≤ 1)
      ∧ (∀ t seen, (receiptsSql hashtextextended).Sees s t seen → ∀ image,
        receiptsOf seen image ⊆ receiptsOf s.stored image ∨ (receiptsOf seen image).length ≤ 1)
      ∧ (∀ t t' seen seen', (receiptsSql hashtextextended).Sees s t seen →
        (receiptsSql hashtextextended).Sees s t' seen' → ∀ image,
          ¬ receiptsOf seen image ⊆ receiptsOf s.stored image →
          ¬ receiptsOf seen' image ⊆ receiptsOf s.stored image → t = t')
      ∧ (¬ HasDuplicates receipts → ¬ HasDuplicates s.stored) := by
  have hexclusive := Statements.Exclusive.of_run locksWrites guards run
  have hgives : ∀ t seen, (receiptsSql hashtextextended).Sees s t seen → ∀ image,
      ¬ receiptsOf seen image ⊆ receiptsOf s.stored image →
        s.owner (.advisory (hashtextextended image)) = some t
          ∧ (images hashtextextended).Single seen image := by
    intro t seen hsees image hmore
    exact hexclusive.given t seen hsees image
      (of_not_not fun hnot => hmore (not_gains_iff.mp hnot))
  refine ⟨fun image => ?_, fun t seen hsees image => ?_, ?_, ?_⟩
  · rw [← @not_gains_iff hashtextextended, ← @single_iff hashtextextended]
    exact hexclusive.stored_run locksWrites guards run' image
  · by_cases hmore : receiptsOf seen image ⊆ receiptsOf s.stored image
    · exact .inl hmore
    · exact .inr (single_iff.mp (hgives t seen hsees image hmore).2)
  · intro t t' seen seen' hsees hsees' image hmore hmore'
    have howner := (hgives t seen hsees image hmore).1
    have howner' := (hgives t' seen' hsees' image hmore').1
    exact Option.some.inj (howner.symm.trans howner')
  · rintro hnone ⟨r, hr, image, hlink, hmany⟩
    have hstart : Statements.Exclusive (images hashtextextended) ReceiptLock.row
        (fun image => ReceiptLock.advisory (hashtextextended image))
        (Statements.initial receipts : Sessions ReceiptsStatement.Ret DbError α _ _ _ ρ) :=
      Statements.Exclusive.initial
    rcases hstart.stored_run locksWrites guards run image with hlost | hsingle
    · -- then it had several from the beginning
      refine hnone ?_
      have hsub := not_gains_iff.mp hlost
      have hlength : (receiptsOf s.stored image).length ≤ (receiptsOf receipts image).length :=
        (nodup_receiptsOf.subperm hsub).length_le
      obtain ⟨r₀, hr₀, -⟩ := List.mem_map.mp
        (List.getElem_mem (Nat.lt_of_lt_of_le (Nat.lt_trans Nat.zero_lt_one hmany) hlength))
      obtain ⟨hmem, himage⟩ := List.mem_filter.mp hr₀
      exact ⟨r₀, hmem, image, of_decide_eq_true himage, Nat.lt_of_lt_of_le hmany hlength⟩
    · exact absurd (single_iff.mp hsingle) (Nat.not_le.mpr hmany)

/-! ## Two insertions -/

/-- A receipt of an image. -/
def receiptOf (id image : UUID) : ReceiptRecord := { emptyRow id 1 with imageId := some image }

/-- Two receipts that share an image since before the migration. The
trigger looks at what is written from then on, and lets them be. -/
def historical : Table ReceiptRecord ReceiptRecord.id :=
  ⟨[receiptOf 1 7, receiptOf 2 7], by decide⟩

open ReceiptsStatement in
/-- A transaction that inserts a receipt. -/
def insertion (row : ReceiptRecord) : Program ReceiptsStatement.Ret DbError Unit :=
  Program.perform (ReceiptsStatement.insert row)

/-- Two transactions insert a receipt of one image. The second waits for
the first, and then raises, because it sees the receipt that is there by
then. -/
def twoInsertions : List (Sessions.Action ReceiptRecord) :=
  [.begin (receiptOf 3 8), .begin (receiptOf 4 8), .advance 0, .commit 0, .advance 1, .rollback 1]

open ReceiptsStatement in
/-- One of the two receipts is stored, and those that share an image still
do: the duplicates from before the migration are neither removed nor added
to. -/
theorem receipts_of_image_twoInsertions :
    ∃ s : Sessions ReceiptsStatement.Ret DbError Unit (Table ReceiptRecord ReceiptRecord.id)
        ReceiptsWrite ReceiptLock ReceiptRecord,
      (receiptsOf s.stored 8 = [3] ∧ receiptsOf s.stored 7 = [1, 2])
        ∧ ∀ image, receiptsOf s.stored image ⊆ receiptsOf historical image
          ∨ (receiptsOf s.stored image).length ≤ 1 := by
  obtain ⟨s, run, hstored⟩ : ∃ s, Transition.Reachable
      ((receiptsSql fun image => image % 2).step insertion) (Statements.initial historical) s
        ∧ (receiptsOf s.stored 8 = [3] ∧ receiptsOf s.stored 7 = [1, 2]) :=
    Transition.Run.of_exec twoInsertions (by decide +kernel)
  exact ⟨s, hstored, (receipts_of_image _ insertion historical _ s .start run).1⟩

end VisionBill
