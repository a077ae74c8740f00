import VisionBill.Links
import VisionBill.ReceiptEffects
import VisionBill.Tenants

/-!
# Isolated users

Users share one database. The owners of receipts, images and collections
never change, and an image and its receipt have one owner, because the
handlers know the owner of an image when they persist its receipt. So what
is joined belongs together (`Db.Isolated`) as long as every link joins
rows of one owner.

A user who may see everything can put anybody's receipt into anybody's
collection. Then the owner of the collection is told of that receipt: it
is counted, and its amount added (`assigned_not_sameAnswers`). In every
run in which no step makes such a link for a user, the user is told of
nothing that is not the user's (`isolated_of_ownLinks`).

## Two runs, not one

That a user is told of nothing else is said of two runs. In both the same
rows belong to the user, and in everything else they may differ: in who
else there is, in what others have done and in the order of the user's own
requests. Then whatever the user may be told in a state of the one, the
user may be told in a state of the other. The answers that a user may get
are those of `VisionBill.Tenants`: an order that no statement asks for is
the server's choice and is compared as such, since two links that were
made in another order may well be listed in another.

## Where owners come from

A receipt is persisted for an image, by a handler that passes on the
owner. It got the owner from an answer, when the image was stored or
claimed, and many steps of other requests may lie between. That no such
knowledge becomes false is shown for all operations at once: no operation
changes the owner of an image that stays, and an identifier is not issued
twice, so what is gone does not come back as somebody else's
(`exec_keepsOwned`, `exec_tellsOwner`). The handlers enter by what they
know (`VisionBill.Promises`) and by nothing else.

## Collections

The statements about collections are steps of their own here, beside the
requests, with any values and callers. The service checks more than the
statements do, so its runs are among these.
-/

namespace VisionBill

/-! ## Owners

Who owns a receipt, a collection or an image is written in its row and
never changed. Links have no owner, so the owners of their two ends are
compared. -/

namespace Db

/-- The owner of a receipt, if it is there. -/
def receiptOwner? (db : Db) (receiptId : UUID) : Option (Option UUID) :=
  (db.receipts.get? receiptId).map ReceiptRecord.userId

/-- The owner of a collection, if it is there. -/
def collectionOwner? (db : Db) (collectionId : UUID) : Option UUID :=
  (db.collections.get? collectionId).map CollectionRecord.userId

/-- The owner of an image, if it is there. -/
def imageOwner? (db : Db) (imageId : UUID) : Option (Option UUID) :=
  (db.images.get? imageId).map ImageRecord.userId

/-- The ends of every link are there, and both are a user's or neither is.
It is said for one user, so that links among others do not matter. -/
def LinksOwned (db : Db) (userId : UUID) : Prop :=
  ∀ l ∈ db.links.rows, ∃ receiptOwner collectionOwner,
    db.receiptOwner? l.receiptId = some receiptOwner
      ∧ db.collectionOwner? l.collectionId = some collectionOwner
      ∧ (receiptOwner = some userId ↔ collectionOwner = userId)

/-- The image of a receipt is there, and it has the owner of the
receipt. -/
def ImagesOwned (db : Db) : Prop :=
  ∀ receiptId r, db.receipts.get? receiptId = some r → ∀ i, r.imageId = some i →
    db.imageOwner? i = some r.userId

variable {db db' : Db} {userId : UUID}

/-- Whether a receipt that is there is a user's. -/
theorem ownsReceipt_eq {receiptId : UUID} {owner : Option UUID}
    (h : db.receiptOwner? receiptId = some owner) :
    db.ownsReceipt userId receiptId = decide (owner = some userId) := by
  obtain ⟨r, hr, rfl⟩ := Option.map_eq_some_iff.mp h
  unfold ownsReceipt
  rw [hr]
  rfl

/-- Whether a collection that is there is a user's. -/
theorem ownsCollection_eq {collectionId owner : UUID}
    (h : db.collectionOwner? collectionId = some owner) :
    db.ownsCollection userId collectionId = decide (owner = userId) := by
  obtain ⟨c, hc, rfl⟩ := Option.map_eq_some_iff.mp h
  unfold ownsCollection
  rw [hc]
  rfl

/-- What is joined belongs together. -/
theorem isolated_of_owned (hlinks : db.LinksOwned userId) (himages : db.ImagesOwned) :
    db.Isolated userId where
  links l hl := by
    obtain ⟨receiptOwner, collectionOwner, hreceipt, hcollection, hiff⟩ := hlinks l hl
    rw [ownsReceipt_eq hreceipt, ownsCollection_eq hcollection]
    exact decide_eq_decide.mpr hiff
  images r hr howner i hi image himage := by
    have hfound := himages r.id r (Table.get?_eq_some_iff.mpr ⟨hr, rfl⟩) i hi
    rw [imageOwner?, Option.mem_def.mp himage] at hfound
    exact (Option.some.inj hfound).trans howner

/-- Links stay owned while the owners of their ends do not change. -/
theorem LinksOwned.mono (h : db.LinksOwned userId)
    (hlinks : ∀ l ∈ db'.links.rows, l ∈ db.links.rows)
    (hreceipts : ∀ l ∈ db'.links.rows, ∀ owner, db.receiptOwner? l.receiptId = some owner →
      db'.receiptOwner? l.receiptId = some owner)
    (hcollections : ∀ l ∈ db'.links.rows, ∀ owner,
      db.collectionOwner? l.collectionId = some owner →
        db'.collectionOwner? l.collectionId = some owner) : db'.LinksOwned userId := by
  intro l hl
  obtain ⟨receiptOwner, collectionOwner, hreceipt, hcollection, hiff⟩ := h l (hlinks l hl)
  exact ⟨receiptOwner, collectionOwner, hreceipts l hl _ hreceipt, hcollections l hl _ hcollection,
    hiff⟩

/-- The links and all owners are as before, up to links that are gone.
Most operations are of this kind, whatever else they write. -/
structure SameOwners (db db' : Db) : Prop where
  links : ∀ l ∈ db'.links.rows, l ∈ db.links.rows
  receipts : ∀ r, (db'.receipts.get? r).map (fun r => (r.userId, r.imageId))
    = (db.receipts.get? r).map fun r => (r.userId, r.imageId)
  images : ∀ i, db'.imageOwner? i = db.imageOwner? i
  collections : ∀ c, db'.collectionOwner? c = db.collectionOwner? c

namespace SameOwners

theorem of_eq (hlinks : db'.links = db.links) (hreceipts : db'.receipts = db.receipts)
    (himages : db'.images = db.images) (hcollections : db'.collections = db.collections) :
    db.SameOwners db' where
  links _ hl := hlinks ▸ hl
  receipts r := by rw [hreceipts]
  images i := by rw [imageOwner?, imageOwner?, himages]
  collections c := by rw [collectionOwner?, collectionOwner?, hcollections]

theorem receiptOwner (h : db.SameOwners db') (r : UUID) :
    db'.receiptOwner? r = db.receiptOwner? r := by
  have hfst := congrArg (Option.map Prod.fst) (h.receipts r)
  rw [Option.map_map, Option.map_map] at hfst
  exact hfst

theorem linksOwned (h : db.SameOwners db') (hlinks : db.LinksOwned userId) :
    db'.LinksOwned userId :=
  hlinks.mono h.links (fun l _ _ hl => (h.receiptOwner l.receiptId).trans hl)
    fun l _ _ hl => (h.collections l.collectionId).trans hl

theorem imagesOwned (h : db.SameOwners db') (himages : db.ImagesOwned) : db'.ImagesOwned := by
  intro receiptId r' hr' i hi
  have hpair := h.receipts receiptId
  rw [hr'] at hpair
  obtain ⟨r, hr, heq⟩ := Option.map_eq_some_iff.mp hpair.symm
  obtain ⟨howner, himage⟩ := Prod.mk.inj heq
  rw [h.images, ← howner]
  exact himages receiptId r hr i (himage.trans hi)

/-- A write to an image that does not touch its owner. All statements
about images are of this kind, but for the one that makes them. -/
theorem of_image {imageId : UUID} {f : ImageRecord → ImageRecord}
    (h : WritesImage db imageId f db') (hf : ∀ i, (f i).userId = i.userId) :
    db.SameOwners db' where
  links _ hl := by
    rw [h.frame] at hl
    exact hl
  receipts r := by rw [h.frame]
  images i := by
    unfold imageOwner?
    rw [h.get]
    split
    · next heq =>
      rw [Option.map_map, heq]
      exact Option.map_congr fun i _ => hf i
    · rfl
  collections c := by rw [h.frame]; rfl

/-- A write to a receipt that does not touch its owner or its image. What
it does to the amounts and texts is of no concern here. -/
theorem of_receipt {receiptId : UUID} {f : ReceiptRecord → ReceiptRecord}
    (h : WritesReceipt db receiptId f db') (hlinks : db'.links = db.links)
    (hcollections : db'.collections = db.collections)
    (hf : ∀ r, db.receipts.get? receiptId = some r →
      (f r).userId = r.userId ∧ (f r).imageId = r.imageId) : db.SameOwners db' where
  links _ hl := hlinks ▸ hl
  receipts r := by
    rw [h.get]
    split
    · next heq =>
      rw [Option.map_map, heq]
      refine Option.map_congr fun r hr => ?_
      obtain ⟨howner, himage⟩ := hf r hr
      exact Prod.ext howner himage
    · rfl
  images i := by rw [imageOwner?, imageOwner?, h.images]
  collections c := by rw [collectionOwner?, collectionOwner?, hcollections]

end SameOwners

end Db

/-! ## What operations do to owners

Owners are kept by an operation if no row changes its owner and each new
row and link has the owners it should have. It is shown for each function
of the database. -/

namespace World

/-- An image that a user owns; it stays so, even after it is gone, because
no identifier is issued twice. -/
def HasOwner (w : World) (imageId : UUID) (owner : Option UUID) : Prop :=
  imageId ∈ w.issued ∧ ∀ owner', w.db.imageOwner? imageId = some owner' → owner' = owner

/-- What is joined belongs together, and images have identifiers that were
issued. -/
structure Owned (w : World) (userId : UUID) : Prop where
  links : w.db.LinksOwned userId
  images : w.db.ImagesOwned
  issued : ∀ i owner, w.db.imageOwner? i = some owner → i ∈ w.issued

/-- A step that keeps what is joined together, and the owners of images.
The second is what other requests rely on while this one runs. -/
structure KeepsOwned (userId : UUID) (w w' : World) : Prop where
  owned : w'.Owned userId
  stays : ∀ i owner, w.HasOwner i owner → w'.HasOwner i owner

variable {w w' : World} {userId : UUID}

theorem keepsOwned_of (h : w.Owned userId) (hissued : ∀ id ∈ w.issued, id ∈ w'.issued)
    (hlinks : w'.db.LinksOwned userId) (himages : w'.db.ImagesOwned)
    (hnew : ∀ i owner, w'.db.imageOwner? i = some owner →
      w.db.imageOwner? i = some owner ∨ (i ∉ w.issued ∧ i ∈ w'.issued)) :
    KeepsOwned userId w w' where
  owned := {
    links := hlinks
    images := himages
    issued i owner hi := by
      rcases hnew i owner hi with hold | ⟨-, hmem⟩
      · exact hissued i (h.issued i owner hold)
      · exact hmem }
  stays i owner hi := by
    refine ⟨hissued i hi.1, fun owner' howner' => ?_⟩
    rcases hnew i owner' howner' with hold | ⟨hfresh, -⟩
    · exact hi.2 owner' hold
    · exact absurd hi.1 hfresh

theorem keepsOwned_of_same (h : w.Owned userId) (hissued : ∀ id ∈ w.issued, id ∈ w'.issued)
    (hsame : w.db.SameOwners w'.db) : KeepsOwned userId w w' :=
  keepsOwned_of h hissued (hsame.linksOwned h.links) (hsame.imagesOwned h.images)
    fun i _ hi => .inl ((hsame.images i).symm.trans hi)

theorem keepsOwned_storeImage {now : Timestamp} {newId : UUID} {new : NewImage} {row : ImageRecord}
    (h : w.Owned userId) (hstore : w.db.storeImage now newId new = .ok (w'.db, row))
    (hissued : ∀ id ∈ w.issued, id ∈ w'.issued) (hnew : newId ∉ w.issued)
    (hmem : newId ∈ w'.issued) : KeepsOwned userId w w' := by
  obtain ⟨-, -, -, hget, hframe, -⟩ := Db.storeImage_spec hstore
  have himage : ∀ i, i ≠ newId → w'.db.imageOwner? i = w.db.imageOwner? i := fun i hi => by
    rw [Db.imageOwner?, hget, if_neg hi]
    rfl
  refine keepsOwned_of h hissued ?_ ?_ fun i owner hi => ?_
  · rw [hframe]
    exact h.links
  · intro receiptId r hr i hi
    rw [hframe] at hr
    have howner := h.images receiptId r hr i hi
    rw [himage i]
    · exact howner
    · rintro rfl
      exact hnew (h.issued _ _ howner)
  · by_cases hid : i = newId
    · exact .inr (hid ▸ ⟨hnew, hmem⟩)
    · exact .inl ((himage i hid).symm.trans hi)

theorem keepsOwned_deleteReceipt {benchmarked : Bool} {receiptId : UUID} {caller : Caller}
    {row : ReceiptRecord} (h : w.Owned userId)
    (hdelete : w.db.deleteReceipt benchmarked receiptId caller = .ok (some (w'.db, row)))
    (hissued : ∀ id ∈ w.issued, id ∈ w'.issued) : KeepsOwned userId w w' := by
  obtain ⟨-, hreceipts, himages⟩ := Db.deleteReceipt_spec hdelete
  obtain ⟨hlinks, hcollections⟩ := Db.deleteReceipt_frame hdelete
  have himage : ∀ i, w'.db.imageOwner? i = w.db.imageOwner? i := fun i => by
    rw [Db.imageOwner?, himages, Option.map_map]
    rfl
  refine keepsOwned_of h hissued (h.links.mono (fun l hl => ?_) (fun l hl owner howner => ?_)
    fun l hl owner howner => ?_) ?_ fun i owner hi => .inl ((himage i).symm.trans hi)
  · rw [hlinks] at hl
    exact (List.mem_filter.mp hl).1
  · rw [hlinks] at hl
    have hne : l.receiptId ≠ receiptId := of_decide_eq_true (List.mem_filter.mp hl).2
    rw [Db.receiptOwner?, hreceipts, if_neg hne]
    exact howner
  · rw [Db.collectionOwner?, hcollections]
    exact howner
  · intro r' row' hr' i hi
    rw [hreceipts] at hr'
    split at hr'
    · exact absurd hr' (by simp)
    · rw [himage]
      exact h.images r' row' hr' i hi

theorem keepsOwned_deleteImage {imageId : UUID} (h : w.Owned userId)
    (hdelete : w.db.deleteImage imageId = w'.db) (hissued : ∀ id ∈ w.issued, id ∈ w'.issued) :
    KeepsOwned userId w w' := by
  obtain ⟨himages, hreceipts⟩ := Db.deleteImage_spec w.db imageId
  rw [hdelete] at himages hreceipts
  have hlinks : w'.db.links = w.db.links := by
    rw [← hdelete]
    rfl
  have hcollections : w'.db.collections = w.db.collections := by
    rw [← hdelete]
    rfl
  have himage : ∀ i, i ≠ imageId → w'.db.imageOwner? i = w.db.imageOwner? i := fun i hi => by
    rw [Db.imageOwner?, himages, if_neg hi]
    rfl
  refine keepsOwned_of h hissued (h.links.mono (fun l hl => hlinks ▸ hl)
    (fun l _ owner howner => ?_) fun l _ owner howner => ?_) ?_ fun i owner hi => .inl ?_
  · rw [Db.receiptOwner?, hreceipts, Option.map_map]
    exact howner
  · rw [Db.collectionOwner?, hcollections]
    exact howner
  · intro receiptId r' hr' i hi
    rw [hreceipts] at hr'
    obtain ⟨r, hr, rfl⟩ := Option.map_eq_some_iff.mp hr'
    -- the receipt of the image has forgotten it
    obtain ⟨hi, hne⟩ := Option.filter_eq_some_iff.mp hi
    rw [himage i (of_decide_eq_true hne)]
    exact h.images receiptId r hr i hi
  · rw [Db.imageOwner?, himages] at hi
    split at hi
    · exact absurd hi (by simp)
    · exact hi

theorem keepsOwned_assign {collectionId receiptId : UUID} (h : w.Owned userId)
    (hassign : w.db.assign collectionId receiptId = .ok w'.db)
    (hissued : ∀ id ∈ w.issued, id ∈ w'.issued)
    (hown : ∀ r, w.db.receipts.get? receiptId = some r →
      ∀ c, w.db.collections.get? collectionId = some c →
        (r.userId = some userId ↔ c.userId = userId)) :
    KeepsOwned userId w w' := by
  unfold Db.assign at hassign
  split at hassign
  · have hdb := Except.ok.inj hassign
    exact keepsOwned_of_same h hissued
      (.of_eq (by rw [hdb]) (by rw [hdb]) (by rw [hdb]) (by rw [hdb]))
  · next links hinsert =>
    split at hassign
    · exact absurd hassign (by simp)
    · next hends =>
      have hdb := Except.ok.inj hassign
      have himage : ∀ i, w'.db.imageOwner? i = w.db.imageOwner? i := fun i => by rw [← hdb]; rfl
      refine keepsOwned_of h hissued ?_ ?_ fun i owner hi => .inl ((himage i).symm.trans hi)
      · rw [← hdb]
        intro l hl
        rw [(Table.insert_eq_some_iff.mp hinsert).2, List.mem_append] at hl
        rcases hl with hl | hl
        · exact h.links l hl
        · -- the new link, both ends of which are there
          obtain rfl := List.mem_singleton.mp hl
          obtain ⟨r, hr⟩ := Option.ne_none_iff_exists'.mp fun hnone =>
            hends (.inl (Option.isNone_iff_eq_none.mpr hnone))
          obtain ⟨c, hc⟩ := Option.ne_none_iff_exists'.mp fun hnone =>
            hends (.inr (Option.isNone_iff_eq_none.mpr hnone))
          exact ⟨r.userId, c.userId, congrArg (Option.map _) hr, congrArg (Option.map _) hc,
            hown r hr c hc⟩
      · rw [← hdb]
        exact h.images

end World

section Operations

variable [CaseFolding] {w w' : World} {userId : UUID}

/-- The links of a receipt that is persisted are as before, and a receipt
that is there already keeps its owner if that is the owner of the image.
It is the one operation that writes an owner which it has been told. -/
theorem World.keepsOwned_persistReceipt {now : Timestamp} {fresh : ℕ → UUID} {receipt : Receipt}
    {imageId : Option UUID} {status : ReceiptStatus} {verified : Bool} {owner : Option UUID}
    {row : ReceiptRecord} (h : w.Owned userId)
    (hpersist : w.db.persistReceipt now fresh receipt imageId status verified owner
      = .ok (w'.db, row))
    (hissued : ∀ id ∈ w.issued, id ∈ w'.issued) (howner : ∀ i ∈ imageId, w.HasOwner i owner) :
    w.KeepsOwned userId w' := by
  obtain ⟨values, history, rows, taxRows, heffect⟩ := Db.persistReceipt_spec hpersist
  obtain ⟨db₁, hwrite, hdb⟩ := heffect.writes
  have himages := Db.images_persistReceipt hpersist
  have himage : ∀ i, w'.db.imageOwner? i = w.db.imageOwner? i := fun i => by
    rw [Db.imageOwner?, himages]
    rfl
  -- the receipt of the image is rewritten, with the owner that it has already, or a
  -- new one is inserted
  cases Db.writeReceipt_spec hwrite with
  | updated i old hi hold hrow hdb₁ =>
    obtain ⟨hget, hof⟩ := Db.receiptOfImage?_spec hold
    have hsame : old.userId = owner :=
      (howner i hi).2 old.userId (h.images old.id old hget i hof)
    have hreceipts : WritesReceipt w.db old.id (Db.rewritten values status verified owner) w'.db :=
      writesReceipt_update (fun _ => rfl) (by rw [hdb, hdb₁]) himages
    refine World.keepsOwned_of_same h hissued (.of_receipt hreceipts (by rw [hdb, hdb₁])
      (by rw [hdb, hdb₁]) fun r hr => ⟨?_, rfl⟩)
    obtain rfl := Option.some.inj (hget.symm.trans hr)
    exact hsame.symm
  | inserted hnone hfree hexists hrow hinsert hdb₁ =>
    have hreceipts : w.db.receipts.insert row = some w'.db.receipts := by
      rw [hinsert, hdb]
    have hget := Table.get?_insert hreceipts
    refine World.keepsOwned_of h hissued (h.links.mono (fun l hl => ?_) (fun l _ o ho => ?_)
      fun l _ o ho => ?_) ?_ fun i o hi => .inl ((himage i).symm.trans hi)
    · rw [hdb, hdb₁] at hl
      exact hl
    · obtain ⟨r, hr, rfl⟩ := Option.map_eq_some_iff.mp ho
      exact congrArg (Option.map _) (Table.get?_of_insert hreceipts hr)
    · rw [hdb, hdb₁]
      exact ho
    · intro receiptId r hr i hi
      rw [himage]
      rw [hget] at hr
      split at hr
      · obtain rfl := Option.some.inj hr
        rw [hrow] at hi
        obtain ⟨image, himg⟩ := Option.isSome_iff_exists.mp (hexists i hi)
        have hfound : w.db.imageOwner? i = some image.userId := congrArg (Option.map _) himg
        rw [hfound, (howner i hi).2 _ hfound, hrow]
      · exact h.images receiptId r hr i hi

/-! ## Every operation keeps the owners

Linking is the exception: it joins a receipt and a collection whoever owns
them. So it has a condition, and a handler has to know the owners when it
links. -/

/-- The link that an operation makes. -/
def Op.linked? : Op → Option Link
  | .assign collectionId receiptId => some ⟨receiptId, collectionId⟩
  | _ => none

namespace World

variable {settings : Settings} {c : Choice}

/-- Whether an operation leaves links apart: it links no receipt of the
user to a collection of somebody else, and no receipt of somebody else to
a collection of the user. An operation that fails links nothing. -/
def LinksOwn (userId : UUID) (w : World) (c : Choice) (op : Op) : Prop :=
  c.failure = none → ∀ link ∈ op.linked?,
    ∀ r ∈ w.db.receipts.get? link.receiptId, ∀ k ∈ w.db.collections.get? link.collectionId,
      (r.userId = some userId ↔ k.userId = userId)

instance (userId : UUID) (w : World) (c : Choice) (op : Op) :
    Decidable (w.LinksOwn userId c op) := by
  unfold LinksOwn
  infer_instance

/-- What is known of an image, as far as it concerns its owner. -/
def KnowsOwner (w : World) : ImageFact → Prop
  | .receipt _ _ => True
  | .owner imageId owner => w.HasOwner imageId owner

omit [CaseFolding] in
/-- A statement that returns nothing, and keeps all owners if it does
anything. -/
theorem sameOwners_write {result : Except DbError Db} {r : Except Exn Unit}
    (h : w.write result = (w', r)) (hdb : result = .ok w'.db → w.db.SameOwners w'.db) :
    w.db.SameOwners w'.db := by
  obtain ⟨hok, -⟩ | ⟨rfl, -⟩ := write_eq h
  · exact hdb hok
  · exact .of_eq rfl rfl rfl rfl

omit [CaseFolding] in
/-- The same for a statement that may find nothing. -/
theorem sameOwners_writeRow? {α : Type} {result : Except DbError (Option (Db × α))}
    {r : Except Exn (Option α)} (h : w.writeRow? result = (w', r))
    (hdb : ∀ a, result = .ok (some (w'.db, a)) → w.db.SameOwners w'.db) :
    w.db.SameOwners w'.db := by
  obtain ⟨a, hok, -⟩ | ⟨rfl, -⟩ := writeRow?_eq h
  · exact hdb a hok
  · exact .of_eq rfl rfl rfl rfl

/-- **Every operation keeps the owners**, if it makes no link between
users and what it is told of an image is true. Operations trust what they
are told, so the knowledge has to come from the program that performs
them. -/
theorem exec_keepsOwned {op : Op} {r : Except Exn op.Ret} (h : w.Owned userId)
    (hguard : w.LinksOwn userId c op) (hneeds : ∀ f ∈ imageKnowledge.needs op, w.KnowsOwner f)
    (hexec : w.exec settings op c = some (w', r)) : w.KeepsOwned userId w' := by
  obtain ⟨-, hissued⟩ := exec_started hexec
  have hgrow : ∀ id ∈ w.issued, id ∈ w'.issued := fun id hid => by
    rw [hissued]
    exact List.mem_append_right _ hid
  have hfresh : ∀ {id}, id ∈ c.fresh → id ∈ w'.issued := fun hid => by
    rw [hissued]
    exact List.mem_append_left _ hid
  have hsame : w.db.SameOwners w'.db → w.KeepsOwned userId w' := keepsOwned_of_same h hgrow
  obtain ⟨hpossible, ⟨rfl, -⟩ | ⟨hfailure, hperform⟩⟩ := exec_eq hexec
  · exact hsame (.of_eq rfl rfl rfl rfl)
  · cases op
    case storeImage new =>
      obtain ⟨hmem, hnew⟩ := hpossible.ids_fresh (n := 0) (Nat.zero_lt_succ 0)
      obtain ⟨row, hok, -⟩ | ⟨rfl, -⟩ := writeRow_eq hperform
      · exact keepsOwned_storeImage h hok hgrow hnew (hfresh hmem)
      · exact hsame (.of_eq rfl rfl rfl rfl)
    case persistReceipt receipt imageId status verified owner =>
      obtain ⟨row, hok, -⟩ | ⟨rfl, -⟩ := writeRow_eq hperform
      · exact keepsOwned_persistReceipt h hok hgrow fun i hi => hneeds _ ⟨i, hi, rfl⟩
      · exact hsame (.of_eq rfl rfl rfl rfl)
    case deleteReceipt caller receiptId =>
      obtain ⟨row, hok, -⟩ | ⟨rfl, -⟩ := writeRow?_eq hperform
      · exact keepsOwned_deleteReceipt h hok hgrow
      · exact hsame (.of_eq rfl rfl rfl rfl)
    case deleteImage imageId =>
      exact keepsOwned_deleteImage h (congrArg (fun p => p.1.db) hperform) hgrow
    case assign collectionId receiptId =>
      obtain ⟨hok, -⟩ | ⟨rfl, -⟩ := write_eq hperform
      · exact keepsOwned_assign h hok hgrow (hguard hfailure _ rfl)
      · exact hsame (.of_eq rfl rfl rfl rfl)
    case claimForAnalysis imageId =>
      refine hsame (sameOwners_writeRow? (w := w.started c) hperform fun image hok => ?_)
      obtain ⟨old, -, -, -, hwrite⟩ := Db.claimForAnalysis_spec (Except.ok.inj hok)
      exact .of_image hwrite fun _ => rfl
    case markAnalyzed imageId receiptId =>
      exact hsame (sameOwners_write (w := w.started c) hperform fun hok =>
        .of_image (Db.markAnalyzed_spec hok).2 fun _ => rfl)
    case markFailed imageId error =>
      exact hsame (sameOwners_write (w := w.started c) hperform fun hok =>
        .of_image (Db.markFailed_spec hok) fun _ => rfl)
    case markTerminal imageId status error =>
      exact hsame (sameOwners_write (w := w.started c) hperform fun hok =>
        .of_image (Db.markTerminal_spec hok).2 fun _ => rfl)
    case updateImagePath imageId path =>
      exact hsame (sameOwners_write (w := w.started c) hperform fun hok =>
        .of_image (Db.updateImagePath_spec hok) fun _ => rfl)
    case updateImageThumbnailPath imageId path =>
      exact hsame (sameOwners_write (w := w.started c) hperform fun hok =>
        .of_image (Db.updateImageThumbnailPath_spec hok) fun _ => rfl)
    case updateAdditionalImages imageId parts =>
      exact hsame (sameOwners_write (w := w.started c) hperform fun hok =>
        .of_image (Db.updateAdditionalImages_spec hok) fun _ => rfl)
    case updateReceipt caller receiptId receipt =>
      refine hsame (sameOwners_writeRow? (w := w.started c) hperform fun row hok => ?_)
      obtain ⟨old, values, decisions, rows, taxRows, -, heffect⟩ := Db.updateReceipt_spec hok
      exact .of_receipt heffect.writesReceipt (by rw [heffect.frame]) (by rw [heffect.frame])
        fun _ _ => ⟨rfl, rfl⟩
    case verifyReceipt caller receiptId =>
      refine hsame (sameOwners_writeRow? (w := w.started c) hperform fun row hok => ?_)
      obtain ⟨old, -, heq⟩ := Option.map_eq_some_iff.mp (Except.ok.inj hok)
      have hdb := (Prod.mk.inj heq).1
      exact .of_receipt (Db.verifyReceipt_spec (Except.ok.inj hok)) (by rw [← hdb]) (by rw [← hdb])
        fun _ _ => ⟨rfl, rfl⟩
    case deleteReceiptCollections receiptId =>
      have hdb : w.db.deleteReceiptCollections receiptId = w'.db :=
        congrArg (fun p => p.1.db) hperform
      refine hsame { links l hl := ?_, receipts r := ?_, images i := ?_, collections k := ?_ }
      · rw [← hdb] at hl
        exact (List.mem_filter.mp hl).1
      · rw [← hdb]
        rfl
      · rw [← hdb]
        rfl
      · rw [← hdb]
        rfl
    case storePermImage path receiptId =>
      have hdb : w'.db = w.db := db_of_storePermImage (w := w.started c) hperform
      exact hsame (.of_eq (congrArg Db.links hdb) (congrArg Db.receipts hdb)
        (congrArg Db.images hdb) (congrArg Db.collections hdb))
    case deleteFile path =>
      have hdb : w'.db = w.db := db_of_deleteFile (w := w.started c) hperform
      exact hsame (.of_eq (congrArg Db.links hdb) (congrArg Db.receipts hdb)
        (congrArg Db.images hdb) (congrArg Db.collections hdb))
    all_goals
      -- it only reads
      have hdb : w.db = w'.db := congrArg (fun p => p.1.db) hperform
      exact hsame (.of_eq (congrArg Db.links hdb.symm) (congrArg Db.receipts hdb.symm)
        (congrArg Db.images hdb.symm) (congrArg Db.collections hdb.symm))

omit [CaseFolding] in
theorem Owned.hasOwner (h : w.Owned userId) {imageId : UUID} {owner : Option UUID}
    (howner : w.db.imageOwner? imageId = some owner) : w.HasOwner imageId owner :=
  ⟨h.issued imageId owner howner, fun _ ho => Option.some.inj (ho.symm.trans howner)⟩

/-- What an operation answers about the owners of images is true. A thread
may remember it, as no image changes its owner later. -/
theorem exec_tellsOwner {op : Op} {a : op.Ret} (hexec : w.exec settings op c = some (w', .ok a))
    (h' : w'.Owned userId) : ∀ f ∈ imageKnowledge.tells op a, w'.KnowsOwner f := by
  obtain ⟨-, ⟨-, e, he⟩ | ⟨-, hperform⟩⟩ := exec_eq hexec
  · exact absurd he (by simp)
  · cases op
    case storeImage new =>
      rintro f rfl
      obtain ⟨row, hok, -, ha⟩ | ⟨-, e, he⟩ := writeRow_eq (w := w.started c) hperform
      · obtain rfl : a = row := Except.ok.inj ha
        obtain ⟨hid, -, -, hget, -⟩ := Db.storeImage_spec hok
        refine h'.hasOwner ?_
        rw [Db.imageOwner?, hget, if_pos hid]
        rfl
      · exact absurd he (by simp)
    case claimForAnalysis imageId =>
      rintro f ⟨image, himage, rfl | ⟨r, -, rfl⟩⟩
      · obtain ⟨image', hok, -, ha⟩ | ⟨-, hnone | ⟨e, he⟩⟩ :=
          writeRow?_eq (w := w.started c) hperform
        · obtain rfl : image' = image := Option.some.inj ((Except.ok.inj ha).symm.trans himage)
          obtain ⟨old, hold, -, rfl, hwrite⟩ := Db.claimForAnalysis_spec (Except.ok.inj hok)
          obtain ⟨-, rfl⟩ := Table.get?_eq_some_iff.mp hold
          refine h'.hasOwner ?_
          show (w'.db.images.get? old.id).map _ = _
          rw [hwrite.get, if_pos rfl, hold]
          rfl
        · exact absurd (himage.symm.trans (Except.ok.inj hnone)) (by simp)
        · exact absurd he (by simp)
      · trivial
    case getReceiptByImageId imageId =>
      rintro f ⟨r, -, rfl⟩
      trivial
    case persistReceipt receipt imageId status verified owner =>
      rintro f ⟨i, -, rfl⟩
      trivial
    all_goals exact fun f hf => absurd hf (Set.notMem_empty f)

end World

/-! ## Requests, and statements about collections

Collections are created, changed and deleted by requests of their own.
Their statements are taken one by one, as steps beside the threads of the
other requests. -/

/-- `CollectionService.assign`, as a request among others: collection and
receipt are looked up before the link is made, and may be gone by then. -/
def Handler.assign (caller : Caller) (collectionId receiptId : UUID) : Handler Unit := do
  let found : Bool ← Handler.perform (.collectionExists caller collectionId)
  if found then
    let receipt : Option ReceiptRecord ← Handler.perform (.getReceipt caller receiptId)
    match receipt with
    | some _ => Handler.perform (.assign collectionId receiptId)
    | none => throw (.notFound "Receipt not found")
  else throw (.notFound "Collection not found")

/-- A request, or one that puts a receipt into a collection. The latter is
set apart since it is the one that may join what belongs to different
users. -/
inductive TenantRequest
  | request (request : Request)
  | assign (caller : Caller) (collectionId receiptId : UUID)

/-- The program of a request. -/
def TenantRequest.handler (settings : Settings) : TenantRequest → Handler Unit
  | .request r => r.handler settings
  | .assign caller collectionId receiptId => Handler.assign caller collectionId receiptId

/-- The other statements that write collections, links or tags. Their
callers and values are arbitrary. -/
inductive CollectionStatement
  | deactivateSiblings (userId : UUID)
  | insert (now : Timestamp) (newId userId : UUID) (values : CollectionValues) (active : Bool)
  | update (caller : Caller) (collectionId : UUID) (values : CollectionValues)
  | setActive (caller : Caller) (collectionId : UUID) (active : Bool)
  | delete (caller : Caller) (collectionId : UUID)
  | unassign (collectionId receiptId : UUID)
  | createTag (name : String)

omit [CaseFolding] in
/-- The database after a statement that has succeeded. One that has failed
leaves it as it was, and is no step. -/
def Db.afterStatement (db : Db) : CollectionStatement → Option Db
  | .deactivateSiblings userId => some (db.deactivateSiblings userId)
  | .insert now newId userId values active =>
    (db.insertCollection now newId userId values active).toOption.map Prod.fst
  | .update caller collectionId values =>
    (db.updateCollection caller collectionId values).toOption.join.map Prod.fst
  | .setActive caller collectionId active =>
    (db.setActive caller collectionId active).toOption.join.map Prod.fst
  | .delete caller collectionId => db.deleteCollection caller collectionId
  | .unassign collectionId receiptId => some (db.unassign collectionId receiptId)
  | .createTag name => (db.createTag name).toOption.map Prod.fst

/-- The identifiers that a statement makes. -/
def CollectionStatement.fresh : CollectionStatement → List UUID
  | .insert _ newId _ _ _ => [newId]
  | _ => []

/-- A statement in a world; a new collection gets an identifier of its
own. -/
def World.afterStatement (w : World) (statement : CollectionStatement) : Option World :=
  if ∀ id ∈ statement.fresh, id ∉ w.issued then
    (w.db.afterStatement statement).map fun db =>
      { w with db := db, issued := statement.fresh ++ w.issued }
  else none

/-- **The system**: any requests at the same time, and any statements
about collections between their steps. There is no restriction on who
makes a request or on what it is about. The restrictions that a result
needs are conditions on its runs. -/
abbrev TenantStep (settings : Settings) :
    Threads Op.Ret Exn World → Threads.Action TenantRequest Choice ⊕ CollectionStatement →
      Option (Threads Op.Ret Exn World) :=
  Threads.stepBeside (TenantRequest.handler settings) (fun _ => World.exec settings)
    World.afterStatement

/-- The steps that make no link between what is the user's and what is
not. -/
def OwnLinks (userId : UUID) (s : Threads Op.Ret Exn World) :
    Threads.Action TenantRequest Choice ⊕ CollectionStatement → Prop
  | .inl (.advance t choice) => ∀ op k, s.threads[t]? = some (.call op k) →
    s.shared.LinksOwn userId choice op
  | _ => True

/-- The states that are reached from an empty store on by steps that make
no link between what is a user's and what is not. Anything else may
happen: other users may do what they like with their own, and an
administrator may link what belongs to others among themselves. -/
abbrev OwnLinksRun (userId : UUID) (settings : Settings) (files : Files) (clock : Timestamp)
    (s : Threads Op.Ret Exn World) : Prop :=
  Transition.Run (TenantStep settings) (OwnLinks userId) ⟨World.initial files clock, []⟩ s

/-! ## Every run keeps the owners

A run in which no step joins what belongs to different owners leads to
states in which every link is within one owner. That is all that the
comparison of answers needs to know of the run. -/

omit [CaseFolding] in
theorem ok_of_toOption {ε α : Type} {x : Except ε α} {a : α} (h : x.toOption = some a) :
    x = .ok a := by
  cases x with
  | error e => exact absurd h (by simp [Except.toOption])
  | ok b => exact congrArg Except.ok (Option.some.inj h)

/-- What a statement about collections leaves: receipts and images, and
the owners of the collections that are still linked. A collection that
goes takes its links along. -/
structure Db.StatementEffect (db db' : Db) : Prop where
  receipts : db'.receipts = db.receipts
  images : db'.images = db.images
  links : ∀ l ∈ db'.links.rows, l ∈ db.links.rows
  collections : ∀ l ∈ db'.links.rows, ∀ owner, db.collectionOwner? l.collectionId = some owner →
    db'.collectionOwner? l.collectionId = some owner

namespace Db

variable {db db' : Db}

omit [CaseFolding] in
/-- Collections are rewritten, but not their owners. -/
theorem statementEffect_modify {f : CollectionRecord → CollectionRecord}
    {hf : ∀ c, (f c).id = c.id} (howner : ∀ c, (f c).userId = c.userId) :
    db.StatementEffect { db with collections := db.collections.modify f hf } where
  receipts := rfl
  images := rfl
  links _ hl := hl
  collections l _ owner hl := by
    show ((db.collections.modify f hf).get? _).map _ = _
    rw [Table.get?_modify, Option.map_map, ← hl]
    exact Option.map_congr fun c _ => howner c

omit [CaseFolding] in
theorem statementEffect_update {collectionId : UUID} {f : CollectionRecord → CollectionRecord}
    {hf : ∀ c, (f c).id = c.id} (howner : ∀ c, (f c).userId = c.userId) :
    db.StatementEffect { db with collections := db.collections.update collectionId f hf } :=
  statementEffect_modify fun c => by
    split
    · exact howner c
    · rfl

omit [CaseFolding] in
theorem statementEffect_insert {now : Timestamp} {newId userId : UUID} {values : CollectionValues}
    {active : Bool} {row : CollectionRecord}
    (h : db.insertCollection now newId userId values active = .ok (db', row)) :
    db.StatementEffect db' := by
  obtain ⟨values', -, h₁⟩ := bind_eq_ok.mp h
  split at h₁
  · exact absurd h₁ (by simp [throw, throwThe, MonadExceptOf.throw, bind, Except.bind])
  · dsimp only at h₁
    split at h₁
    · next collections hinsert =>
      obtain ⟨rfl, -⟩ := Prod.mk.inj (Except.ok.inj h₁)
      refine ⟨rfl, rfl, fun _ hl => hl, fun l _ owner hl => ?_⟩
      obtain ⟨c, hc, rfl⟩ := Option.map_eq_some_iff.mp hl
      exact congrArg (Option.map _) (Table.get?_of_insert hinsert hc)
    · exact absurd h₁ (by simp [throw, throwThe, MonadExceptOf.throw])

omit [CaseFolding] in
theorem statementEffect_setActive {caller : Caller} {collectionId : UUID} {active : Bool}
    {row : CollectionRecord} (h : db.setActive caller collectionId active = .ok (some (db', row))) :
    db.StatementEffect db' := by
  unfold setActive at h
  split at h
  · exact absurd (Except.ok.inj h) (by simp)
  · dsimp only at h
    split at h
    · exact absurd h (by simp)
    · obtain ⟨rfl, -⟩ := Prod.mk.inj (Option.some.inj (Except.ok.inj h))
      exact statementEffect_update fun _ => rfl

omit [CaseFolding] in
theorem statementEffect_delete {caller : Caller} {collectionId : UUID}
    (h : db.deleteCollection caller collectionId = some db') : db.StatementEffect db' := by
  obtain ⟨old, -, rfl⟩ := Option.map_eq_some_iff.mp h
  refine ⟨rfl, rfl, fun l hl => (List.mem_filter.mp hl).1, fun l hl owner howner => ?_⟩
  have hne : l.collectionId ≠ collectionId := of_decide_eq_true (List.mem_filter.mp hl).2
  show ((db.collections.filter _).get? _).map _ = _
  rw [Table.get?_filter_ne, if_neg hne]
  exact howner

omit [CaseFolding] in
theorem statementEffect_createTag {name : String} {isNew : Bool}
    (h : db.createTag name = .ok (db', isNew)) : db.StatementEffect db' := by
  obtain ⟨name', -, h₁⟩ := bind_eq_ok.mp h
  split at h₁
  · obtain ⟨rfl, -⟩ := Prod.mk.inj (Except.ok.inj h₁)
    exact ⟨rfl, rfl, fun _ hl => hl, fun _ _ _ howner => howner⟩
  · obtain ⟨rfl, -⟩ := Prod.mk.inj (Except.ok.inj h₁)
    exact ⟨rfl, rfl, fun _ hl => hl, fun _ _ _ howner => howner⟩

omit [CaseFolding] in
theorem afterStatement_spec {statement : CollectionStatement}
    (h : db.afterStatement statement = some db') : db.StatementEffect db' := by
  cases statement with
  | deactivateSiblings userId =>
    obtain rfl := Option.some.inj h
    refine statementEffect_modify fun c => ?_
    unfold CollectionRecord.deactivatedFor
    split <;> rfl
  | insert now newId userId values active =>
    obtain ⟨⟨db₁, row⟩, hok, rfl⟩ := Option.map_eq_some_iff.mp h
    exact statementEffect_insert (ok_of_toOption hok)
  | update caller collectionId values =>
    obtain ⟨⟨db₁, row⟩, hok, rfl⟩ := Option.map_eq_some_iff.mp h
    obtain ⟨values', -, h₁⟩ := bind_eq_ok.mp (ok_of_toOption (Option.join_eq_some_iff.mp hok))
    obtain ⟨old, -, heq⟩ := Option.map_eq_some_iff.mp (Except.ok.inj h₁)
    obtain ⟨rfl, -⟩ := Prod.mk.inj heq
    exact statementEffect_update fun _ => rfl
  | setActive caller collectionId active =>
    obtain ⟨⟨db₁, row⟩, hok, rfl⟩ := Option.map_eq_some_iff.mp h
    exact statementEffect_setActive (ok_of_toOption (Option.join_eq_some_iff.mp hok))
  | delete caller collectionId => exact statementEffect_delete h
  | unassign collectionId receiptId =>
    obtain rfl := Option.some.inj h
    exact ⟨rfl, rfl, fun l hl => (List.mem_filter.mp hl).1, fun _ _ _ howner => howner⟩
  | createTag name =>
    obtain ⟨⟨db₁, isNew⟩, hok, rfl⟩ := Option.map_eq_some_iff.mp h
    exact statementEffect_createTag (ok_of_toOption hok)

end Db

omit [CaseFolding] in
/-- A statement about collections keeps the owners of what is linked. It
may delete links, and makes none. -/
theorem World.keepsOwned_afterStatement {statement : CollectionStatement} (h : w.Owned userId)
    (hstep : w.afterStatement statement = some w') : w.KeepsOwned userId w' := by
  unfold World.afterStatement at hstep
  split at hstep
  · obtain ⟨db, hdb, rfl⟩ := Option.map_eq_some_iff.mp hstep
    have heffect := Db.afterStatement_spec hdb
    have howner : ∀ i, db.imageOwner? i = w.db.imageOwner? i := fun i => by
      rw [Db.imageOwner?, heffect.images]
      rfl
    refine World.keepsOwned_of h (fun id hid => List.mem_append_right _ hid)
      (h.links.mono heffect.links (fun l _ owner ho => ?_) heffect.collections)
      (fun r row hr i hi => ?_) fun i owner hi => .inl ((howner i).symm.trans hi)
    · show (db.receipts.get? _).map _ = _
      rw [heffect.receipts]
      exact ho
    · rw [howner]
      rw [heffect.receipts] at hr
      exact h.images r row hr i hi
  · exact absurd hstep (by simp)

/-- What the requests have to keep: what is joined belongs together, and
images keep their owners. This is what the rule for interleavings is
given. -/
def ownersDiscipline (settings : Settings) (userId : UUID) :
    Discipline Op.Ret Exn World Choice where
  exec := fun _ => World.exec settings
  guard := fun _ w op c => w.LinksOwn userId c op
  Inv := fun w => w.Owned userId
  Rely := fun _ w w' => ∀ i owner, w.HasOwner i owner → w'.HasOwner i owner
  Ok := fun _ _ _ _ => True
  rely_refl := fun _ _ _ _ h => h
  rely_trans := fun _ _ _ _ h h' i owner hi => h' i owner (h i owner hi)

omit [CaseFolding] in
/-- What is known of an owner stays true, if no image changes its
owner. -/
theorem knowsOwner_of_stays (hstays : ∀ i owner, w.HasOwner i owner → w'.HasOwner i owner)
    {f : ImageFact} (hf : w.KnowsOwner f) : w'.KnowsOwner f := by
  cases f with
  | receipt imageId receiptId => trivial
  | owner imageId owner => exact hstays imageId owner hf

/-- A request that knows what it says of images keeps the owners, in any
interleaving and whatever fails. -/
theorem keepsOwners_of_isInformed {settings : Settings} {t : ℕ} {p : Handler Unit}
    (h : Handler.IsInformed p ∅) : (ownersDiscipline settings userId).Safe t p w := by
  refine Discipline.wp_of_informed World.KnowsOwner (fun w w' hrely f hf => ?_)
    (fun op w c w' r hinv hguard hneeds hexec => ?_) h fun f hf => absurd hf (Set.notMem_empty f)
  · exact knowsOwner_of_stays hrely hf
  · have hkeeps := World.exec_keepsOwned hinv hguard hneeds hexec
    refine ⟨⟨hkeeps.owned, trivial, fun _ _ => hkeeps.stays⟩,
      fun f hf => knowsOwner_of_stays hkeeps.stays hf, fun a ha => ?_⟩
    subst ha
    exact ⟨World.exec_answers hexec, World.exec_tellsOwner hexec hkeeps.owned⟩

theorem isInformed_tenantHandler (settings : Settings) (request : TenantRequest) :
    Handler.IsInformed (request.handler settings) ∅ := by
  cases request with
  | request r => exact Handler.isInformed_handler settings r
  | assign caller collectionId receiptId =>
    refine Handler.isInformed_apart (Program.calls_bind (Handler.apart_perform id) fun found => ?_)
    cases found with
    | false => trivial
    | true =>
      refine Program.calls_bind (Handler.apart_perform id) fun receipt => ?_
      cases receipt with
      | none => trivial
      | some r => exact Handler.apart_perform id

omit [CaseFolding] in
theorem World.owned_initial (files : Files) (clock : Timestamp) :
    (World.initial files clock).Owned userId where
  links l hl := absurd hl (by simp [initial, Db.empty, Table.empty])
  images r row hr := absurd hr (by simp [initial, Db.empty, Table.empty, Table.get?])
  issued i owner hi := absurd hi
    (by simp [initial, Db.empty, Table.empty, Table.get?, Db.imageOwner?])

/-- **What is joined belongs together** in every state that is reached
without a link between what is the user's and what is not. Nothing in the
database says so: its foreign keys join rows without asking for their
owners. -/
theorem OwnLinksRun.owned {settings : Settings} {files : Files} {clock : Timestamp}
    {s : Threads Op.Ret Exn World} (run : OwnLinksRun userId settings files clock s) :
    s.shared.Owned userId := by
  have hsafe : (ownersDiscipline settings userId).AllSafe s := by
    refine Discipline.sound_beside (G := fun _ _ => True)
      (fun w statement w' hinv _ hstep => ?_)
      (fun request t w _ => keepsOwners_of_isInformed (isInformed_tenantHandler settings request))
      (World.owned_initial files clock) (run.mono fun s a h => ?_)
    · have hkeeps := World.keepsOwned_afterStatement hinv hstep
      exact ⟨hkeeps.owned, fun _ => hkeeps.stays⟩
    · cases a with
      | inl a =>
        cases a with
        | start request => trivial
        | advance t choice => exact h
      | inr statement => trivial
  exact hsafe.1

/-- **Users are isolated**: in any two states that are reached without a
link between what is a user's and what is not, the user may be told the
same if the same rows belong to the user. The two runs need have nothing
else in common: other users may have done different things, and the user
the same things in another order. -/
theorem isolated_of_ownLinks [Lowercase] [Aggregation] {settings settings' : Settings}
    {files files' : Files} {clock clock' : Timestamp} {s s' : Threads Op.Ret Exn World}
    (run : OwnLinksRun userId settings files clock s)
    (run' : OwnLinksRun userId settings' files' clock' s')
    (h : s.shared.db.SameView userId s'.shared.db) :
    Db.SameAnswers userId s.shared.db s'.shared.db :=
  sameAnswers_of_sameView (Db.isolated_of_owned run.owned.links run.owned.images)
    (Db.isolated_of_owned run'.owned.links run'.owned.images) h

end Operations

/-! ## A traveller, and a stranger -/

section Travelling

local instance asciiFoldingOfTravelling : CaseFolding := asciiFolding

local instance asciiLowercaseOfTravelling : Lowercase := asciiLowercase

local instance plainAggregationOfTravelling : Aggregation := plainAggregation

instance (userId : UUID) (s : Threads Op.Ret Exn World)
    (a : Threads.Action TenantRequest Choice ⊕ CollectionStatement) :
    Decidable (OwnLinks userId s a) :=
  match a with
  | .inr _ => isTrue trivial
  | .inl (.start _) => isTrue trivial
  | .inl (.advance t choice) => inferInstanceAs (Decidable (∀ op k,
    s.threads[t]? = some (.call op k) → s.shared.LinksOwn userId choice op))

instance (userId : UUID) (db db' : Db) : Decidable (db.SameView userId db') :=
  decidable_of_iff (_ ∧ _ ∧ _ ∧ _ ∧ _ ∧ _ ∧ _ ∧ _)
    ⟨fun ⟨h₁, h₂, h₃, h₄, h₅, h₆, h₇, h₈⟩ => ⟨h₁, h₂, h₃, h₄, h₅, h₆, h₇, h₈⟩,
      fun ⟨h₁, h₂, h₃, h₄, h₅, h₆, h₇, h₈⟩ => ⟨h₁, h₂, h₃, h₄, h₅, h₆, h₇, h₈⟩⟩

/-- A crossing. -/
def crossing : LineItem where
  description := "Ferry"
  spendingCategory := .services
  quantity := .ofInt 2
  unitPrice := 17 / 2
  totalPrice := 17
  tags := ["travel"]
  quantity_pos := isPos_two
  tags_normal := by decide +kernel

/-- A receipt of the second user. -/
def ferryReceipt : Receipt :=
  { emptyFields with
    merchantName := "Ferries"
    subtotal := 17
    total := 17
    lineItems := [crossing]
    total_checked := by decide +kernel }

/-- Its photo. -/
def ferryPhoto : NewImage := { photo with imagePath := "/data/tmp/b.png", userId := some 2 }

/-- The first user uploads a photo. -/
def uploadingFirst : List (Threads.Action TenantRequest Choice ⊕ CollectionStatement) :=
  [.inl (.start (.request (.upload photo))),
    .inl (.advance 0 (smoothly 1 [])), .inl (.advance 0 (smoothly 2 [])),
    .inl (.advance 0 (smoothly 3 [1])), .inl (.advance 0 (smoothly 4 [])),
    .inl (.advance 0 (smoothly 5 [])), .inl (.advance 0 (smoothly 6 [2])),
    .inl (.advance 0 (smoothly 7 [])), .inl (.advance 0 (smoothly 8 []))]

/-- The second user has a receipt and two collections, and puts the
receipt first into the one and then into the other. -/
def travelling (t : ℕ) (one other : UUID) :
    List (Threads.Action TenantRequest Choice ⊕ CollectionStatement) :=
  [.inl (.start (.request (.upload ferryPhoto))),
    .inl (.advance t (smoothly 11 [])), .inl (.advance t (smoothly 12 [])),
    .inl (.advance t (smoothly 13 [11])), .inl (.advance t (smoothly 14 [])),
    .inl (.advance t { smoothly 15 [] with analysis := .ok ferryReceipt }),
    .inl (.advance t (smoothly 16 [12, 13])),
    .inl (.advance t (smoothly 17 [])), .inl (.advance t (smoothly 18 [])),
    .inr (.insert 19 3 2 ⟨"Trip", none, none, none⟩ false),
    .inr (.insert 20 4 2 ⟨"Business", none, none, none⟩ false),
    .inl (.start (.assign ⟨2, false⟩ one 12)),
    .inl (.advance (t + 1) (smoothly 21 [])), .inl (.advance (t + 1) (smoothly 22 [])),
    .inl (.advance (t + 1) (smoothly 23 [])),
    .inl (.start (.assign ⟨2, false⟩ other 12)),
    .inl (.advance (t + 2) (smoothly 24 [])), .inl (.advance (t + 2) (smoothly 25 [])),
    .inl (.advance (t + 2) (smoothly 26 []))]

/-- **With and without a stranger** the second user is told the same, and
whichever of the collections the receipt is put into first, although its
collections are listed the other way round. -/
theorem strangers_isolated :
    ∃ s s', OwnLinksRun 2 plainSettings photoFiles 0 s ∧ OwnLinksRun 2 plainSettings photoFiles 0 s'
      ∧ s.shared.db.receipts.rows.length = 2 ∧ s'.shared.db.receipts.rows.length = 1
      ∧ s.shared.db.collectionIdsForReceipt 12 = [3, 4]
      ∧ s'.shared.db.collectionIdsForReceipt 12 = [4, 3]
      ∧ Db.SameAnswers 2 s.shared.db s'.shared.db := by
  obtain ⟨s, run, hs⟩ : ∃ s, OwnLinksRun 2 plainSettings photoFiles 0 s
      ∧ (Transition.exec (TenantStep plainSettings) (OwnLinks 2) ⟨World.initial photoFiles 0, []⟩
          (travelling 0 4 3)).any (fun s' => s.shared.db.receipts.rows.length = 2
        ∧ s'.shared.db.receipts.rows.length = 1
        ∧ s.shared.db.collectionIdsForReceipt 12 = [3, 4]
        ∧ s'.shared.db.collectionIdsForReceipt 12 = [4, 3]
        ∧ s.shared.db.SameView 2 s'.shared.db) = true :=
    Transition.Run.of_exec (uploadingFirst ++ travelling 1 3 4) (by decide +kernel)
  obtain ⟨s', hexec, hs⟩ := (Option.any_eq_true _ _).mp hs
  obtain ⟨htwo, hone, hlists, hlists', hview⟩ := of_decide_eq_true hs
  have run' : OwnLinksRun 2 plainSettings photoFiles 0 s' := Transition.Run.start.exec hexec
  exact ⟨s, s', run, run', htwo, hone, hlists, hlists', isolated_of_ownLinks run run' hview⟩

end Travelling

/-! ## A receipt that an administrator assigns -/

section Assigned

local instance asciiFoldingOfIsolation : CaseFolding := asciiFolding

local instance asciiLowercaseOfIsolation : Lowercase := asciiLowercase

local instance plainAggregationOfIsolation : Aggregation := plainAggregation

/-- A collection of the second user. -/
def trip : CollectionRecord where
  id := 3
  userId := 2
  name := "Trip"
  color := none
  startDate := none
  endDate := none
  active := false
  createdAt := 9

/-- The second user makes it. -/
def newTrip : Threads.Action TenantRequest Choice ⊕ CollectionStatement :=
  .inr (.insert 9 3 2 ⟨"Trip", none, none, none⟩ false)

/-- The first user has a receipt, and the second one a collection. -/
def strangers : List (Threads.Action TenantRequest Choice ⊕ CollectionStatement) :=
  uploadingFirst ++ [newTrip]

/-- An administrator puts the receipt into the collection. -/
def assigning : List (Threads.Action TenantRequest Choice ⊕ CollectionStatement) :=
  [.inl (.start (.assign ⟨9, true⟩ 3 2)),
    .inl (.advance 1 (smoothly 10 [])), .inl (.advance 1 (smoothly 11 [])),
    .inl (.advance 1 (smoothly 12 []))]

/-- What belongs to the second user is the collection. -/
def HasTrip (db : Db) : Prop :=
  (db.view 2).receipts.rows = [] ∧ (db.view 2).lineItems.rows = [] ∧ (db.view 2).taxes.rows = []
    ∧ (db.view 2).images.rows = [] ∧ (db.view 2).collections.rows = [trip]
    ∧ (db.view 2).links.rows = [] ∧ (db.view 2).tags = Db.empty.tags
    ∧ db.collectionsFor ⟨2, false⟩ = [trip]

instance : DecidablePred HasTrip := fun _ =>
  inferInstanceAs (Decidable (_ ∧ _ ∧ _ ∧ _ ∧ _ ∧ _ ∧ _ ∧ _))

theorem sameView_of_hasTrip {db db' : Db} (h : HasTrip db) (h' : HasTrip db') :
    db.SameView 2 db' := by
  obtain ⟨hreceipts, hitems, htaxes, himages, hcollections, hlinks, htags, -⟩ := h
  obtain ⟨hreceipts', hitems', htaxes', himages', hcollections', hlinks', htags', -⟩ := h'
  exact ⟨.of_eq (hreceipts.trans hreceipts'.symm), .of_eq (hitems.trans hitems'.symm),
    .of_eq (htaxes.trans htaxes'.symm), .of_eq (himages.trans himages'.symm),
    .of_eq (hcollections.trans hcollections'.symm), .of_eq (hlinks.trans hlinks'.symm), .refl _,
    .of_eq (htags.trans htags'.symm)⟩

/-- What the second user is told of the collection while nothing is in
it. -/
theorem listsEmptyTrip {db : Db} (h : HasTrip db) (hcount : db.receiptCount 3 = 0) :
    db.MayAnswer (fun d => d.ListsWithTotals ⟨2, false⟩) (.ok [⟨trip, 0, []⟩]) := by
  have hcollections : db.collectionsFor ⟨2, false⟩ = [trip] := h.2.2.2.2.2.2.2
  refine ⟨db, .refl db, ?_, [trip], by rw [hcollections], List.pairwise_singleton _ _,
    .cons ⟨rfl, hcount.symm, ?_⟩ .nil⟩
  · rw [hcollections, List.forall_mem_singleton]
    exact hcount.le.trans (Nat.zero_le _)
  · show if 0 < db.receiptCount 3 then _ else _
    rw [hcount]
    rfl

/-- **An administrator puts the receipt of the first user into the
collection of the second one**, who is told of it: the collection is not
empty any more. What belongs to the second user is the same in both
states. -/
theorem assigned_not_sameAnswers :
    ∃ s s', Transition.Reachable (TenantStep plainSettings) ⟨World.initial photoFiles 0, []⟩ s
      ∧ Transition.Reachable (TenantStep plainSettings) ⟨World.initial photoFiles 0, []⟩ s'
      ∧ s.shared.db.SameView 2 s'.shared.db
      ∧ ¬ Db.SameAnswers 2 s.shared.db s'.shared.db := by
  obtain ⟨s, run, htrip, hcount⟩ :
      ∃ s, Transition.Reachable (TenantStep plainSettings) ⟨World.initial photoFiles 0, []⟩ s
        ∧ HasTrip s.shared.db ∧ s.shared.db.receiptCount 3 = 0 :=
    Transition.Run.of_exec strangers (by decide +kernel)
  obtain ⟨s', run', htrip', hcount'⟩ :
      ∃ s', Transition.Reachable (TenantStep plainSettings) ⟨World.initial photoFiles 0, []⟩ s'
        ∧ HasTrip s'.shared.db ∧ s'.shared.db.receiptCount 3 = 1 :=
    Transition.Run.of_exec (strangers ++ assigning) (by decide +kernel)
  refine ⟨s, s', run, run', sameView_of_hasTrip htrip htrip', fun h => ?_⟩
  obtain ⟨d, hd, -, sorted, hperm, -, hsummaries⟩ :=
    (h.listWithTotals _).mp (listsEmptyTrip htrip hcount)
  obtain ⟨c, -, hsummary, -, rfl⟩ := List.forall₂_cons_right_iff.mp hsummaries
  have hzero : 0 = d.receiptCount trip.id := by
    have hc := hsummary.2.1
    rw [← hsummary.1] at hc
    exact hc
  -- the link is counted wherever it lies
  have hsame : d.receiptCount trip.id = s'.shared.db.receiptCount trip.id :=
    (hd.links.countP_eq _).symm
  exact absurd (hzero.trans (hsame.trans hcount')) (by simp)

end Assigned

end VisionBill
