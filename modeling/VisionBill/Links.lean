import VisionBill.Lib.Backlink
import VisionBill.Promises
import VisionBill.ReceiptEffects

/-!
# Images and their receipts

A receipt names its image, and an image its receipt. The database as a
store of such links is a `Backlink.State`, and every operation of a
handler is one of its steps (`exec_refines`); the only one that a handler
could get wrong is `mark_analyzed`, which must be promised that the
receipt is the one of the image. Every handler keeps that promise, so the
two ends agree in every state that any interleaving of requests reaches
(`links_agree`).

## Why the two ends could disagree

The two names are written by different statements. The receipt gets the
name of its image when it is persisted; the image gets the name of its
receipt by a statement of its own, afterwards, from a handler that
remembers it. In between the receipt may be deleted, or the image, or a
second handler may have persisted for the same image. A handler that has
waited long enough therefore writes a name about which it knows nothing
any more. What it still knows is enough: if both rows are there, the
receipt is the one of the image, since no receipt changes its image and no
identifier comes back (`Backlink.Promised`).

What remains is the column itself. The statement writes the name if the
image is there, and the database refuses it if the receipt is not, by a
foreign key; and when the receipt goes, the same key clears the name.
-/

namespace VisionBill

section Links

variable [CaseFolding]

/-- The links of a world, as the library has them: the receipts are the
left side. -/
def World.links (w : World) : Backlink.State UUID where
  left := fun r => (w.db.receipts.get? r).map ReceiptRecord.imageId
  right := fun i => (w.db.images.get? i).map ImageRecord.receiptId
  issued := fun id => id ∈ w.issued

/-! ## Operations are steps

Each operation of the program is a step of the library, or leaves both
sides alone. That has to be shown of the few that write the image of a
receipt or the receipt of an image. -/

/-- Two databases with the same links. Most operations are invisible
here. -/
structure Db.SameLinks (db db' : Db) : Prop where
  left : ∀ r, (db'.receipts.get? r).map ReceiptRecord.imageId
    = (db.receipts.get? r).map ReceiptRecord.imageId
  right : ∀ i, (db'.images.get? i).map ImageRecord.receiptId
    = (db.images.get? i).map ImageRecord.receiptId

namespace Db

omit [CaseFolding] in
theorem SameLinks.of_eq {db db' : Db} (hreceipts : db'.receipts = db.receipts)
    (himages : db'.images = db.images) : db.SameLinks db' :=
  ⟨fun r => by rw [hreceipts], fun i => by rw [himages]⟩

omit [CaseFolding] in
/-- A write to an image that does not touch its receipt. -/
theorem SameLinks.of_image {db db' : Db} {imageId : UUID} {f : ImageRecord → ImageRecord}
    (h : WritesImage db imageId f db') (hf : ∀ i, (f i).receiptId = i.receiptId) :
    db.SameLinks db' := by
  refine ⟨fun r => by rw [h.frame], fun i => ?_⟩
  rw [h.get]
  split
  · next heq =>
    rw [Option.map_map, heq]
    exact Option.map_congr fun i _ => hf i
  · rfl

omit [CaseFolding] in
/-- A write to a receipt that does not touch its image. -/
theorem SameLinks.of_receipt {db db' : Db} {receiptId : UUID} {f : ReceiptRecord → ReceiptRecord}
    (h : WritesReceipt db receiptId f db') (hf : ∀ r, (f r).imageId = r.imageId) :
    db.SameLinks db' := by
  refine ⟨fun r => ?_, fun i => by rw [h.images]⟩
  rw [h.get]
  split
  · next heq =>
    rw [Option.map_map, heq]
    exact Option.map_congr fun r _ => hf r
  · rfl

theorem sameLinks_updateReceipt {db db' : Db} {fresh : ℕ → UUID} {receiptId : UUID}
    {receipt : ReceiptUpdate} {caller : Caller} {row : ReceiptRecord}
    (h : db.updateReceipt fresh receiptId receipt caller = .ok (some (db', row))) :
    db.SameLinks db' := by
  obtain ⟨old, values, decisions, rows, taxRows, -, heffect⟩ := updateReceipt_spec h
  exact .of_receipt heffect.writesReceipt fun _ => rfl

omit [CaseFolding] in
theorem sameLinks_assign {db db' : Db} {collectionId receiptId : UUID}
    (h : db.assign collectionId receiptId = .ok db') : db.SameLinks db' := by
  rw [assign_frame h]
  exact .of_eq rfl rfl

end Db

namespace World

variable {settings : Settings} {w w' : World} {c : Choice}

omit [CaseFolding] in
/-- Nothing that concerns the links. -/
theorem stutter (h : w.db.SameLinks w'.db) : Backlink.Step w.links w'.links :=
  .stutter (funext h.left) (funext h.right)

omit [CaseFolding] in
theorem sameLinks_write {result : Except DbError Db} {r : Except Exn Unit}
    (h : w.write result = (w', r)) (hdb : result = .ok w'.db → w.db.SameLinks w'.db) :
    w.db.SameLinks w'.db := by
  obtain ⟨hok, -⟩ | ⟨rfl, -⟩ := write_eq h
  · exact hdb hok
  · exact .of_eq rfl rfl

omit [CaseFolding] in
theorem sameLinks_writeRow? {α : Type} {result : Except DbError (Option (Db × α))}
    {r : Except Exn (Option α)} (h : w.writeRow? result = (w', r))
    (hdb : ∀ a, result = .ok (some (w'.db, a)) → w.db.SameLinks w'.db) :
    w.db.SameLinks w'.db := by
  obtain ⟨a, hok, -⟩ | ⟨rfl, -⟩ := writeRow?_eq h
  · exact hdb a hok
  · exact .of_eq rfl rfl

omit [CaseFolding] in
theorem step_storeImage {now : Timestamp} {newId : UUID} {new : NewImage} {row : ImageRecord}
    (h : w.db.storeImage now newId new = .ok (w'.db, row)) (hnew : newId ∉ w.issued)
    (hissued : newId ∈ w'.issued) : Backlink.Step w.links w'.links := by
  obtain ⟨hid, -, hreceipt, hget, hframe, -⟩ := Db.storeImage_spec h
  refine .insertRight newId hnew hissued ?_ fun x => ?_
  · funext r
    show (w'.db.receipts.get? r).map _ = (w.db.receipts.get? r).map _
    rw [hframe]
  · show (w'.db.images.get? x).map _ = _
    rw [hget]
    split
    · rw [Option.map_some, hreceipt]
    · rfl

omit [CaseFolding] in
theorem step_markAnalyzed {now : Timestamp} {imageId receiptId : UUID}
    (h : w.db.markAnalyzed now imageId receiptId = .ok w'.db)
    (hpromised : Backlink.Promised w.links imageId receiptId) :
    Backlink.Step w.links w'.links := by
  obtain ⟨hfk, hwrite⟩ := Db.markAnalyzed_spec h
  refine .link imageId receiptId hpromised (fun hright hleft => ?_) ?_ fun x => ?_
  · exact hfk (fun hnone => hright (by show Option.map _ _ = _; rw [hnone]; rfl))
      (Option.map_eq_none_iff.mp hleft)
  · funext r
    show (w'.db.receipts.get? r).map _ = (w.db.receipts.get? r).map _
    rw [hwrite.frame]
  · show (w'.db.images.get? x).map _ = _
    rw [hwrite.get]
    split
    · show _ = ((w.db.images.get? imageId).map ImageRecord.receiptId).map _
      rw [Option.map_map, Option.map_map]
      rfl
    · rfl

omit [CaseFolding] in
theorem step_deleteReceipt {benchmarked : Bool} {receiptId : UUID} {caller : Caller}
    {row : ReceiptRecord}
    (h : w.db.deleteReceipt benchmarked receiptId caller = .ok (some (w'.db, row))) :
    Backlink.Step w.links w'.links := by
  obtain ⟨-, hreceipts, himages⟩ := Db.deleteReceipt_spec h
  refine .dropLeft receiptId (fun x => ?_) fun x => ?_
  · show (w'.db.receipts.get? x).map _ = _
    rw [hreceipts]
    split <;> rfl
  · show (w'.db.images.get? x).map _ = ((w.db.images.get? x).map _).map _
    rw [himages, Option.map_map, Option.map_map]
    rfl

omit [CaseFolding] in
theorem step_deleteImage {imageId : UUID} (h : w.db.deleteImage imageId = w'.db) :
    Backlink.Step w.links w'.links := by
  obtain ⟨himages, hreceipts⟩ := w.db.deleteImage_spec imageId
  rw [h] at himages hreceipts
  refine .dropRight imageId (fun x => ?_) fun x => ?_
  · show (w'.db.receipts.get? x).map _ = ((w.db.receipts.get? x).map _).map _
    rw [hreceipts, Option.map_map, Option.map_map]
    rfl
  · show (w'.db.images.get? x).map _ = _
    rw [himages]
    split <;> rfl

theorem step_persistReceipt {now : Timestamp} {fresh : ℕ → UUID} {receipt : Receipt}
    {imageId : Option UUID} {status : ReceiptStatus} {verified : Bool} {userId : Option UUID}
    {row : ReceiptRecord}
    (h : w.db.persistReceipt now fresh receipt imageId status verified userId = .ok (w'.db, row))
    (hnew : fresh 0 ∉ w.issued) (hissued : fresh 0 ∈ w'.issued) :
    Backlink.Step w.links w'.links ∧ w'.links.left row.id = some imageId := by
  obtain ⟨values, ⟨i, old, himage, hold, hrow, hwrite⟩
    | ⟨hid, himage, hfree, hexists, hreceipts, himages⟩⟩ := Db.persistReceipt_rows h
  · obtain ⟨hget, hof⟩ := Db.receiptOfImage?_spec hold
    -- the receipt of the image is rewritten, which its links do not notice
    have hsame : w.db.SameLinks w'.db := .of_receipt hwrite fun _ => rfl
    refine ⟨stutter hsame, ?_⟩
    show (w'.db.receipts.get? row.id).map _ = _
    rw [hsame.left, hrow, himage, ← hof]
    exact congrArg _ hget
  · have hleft : ∀ x, w'.links.left x = if x = fresh 0 then some imageId else w.links.left x := by
      intro x
      show (w'.db.receipts.get? x).map _ = _
      rw [hreceipts]
      split
      · rw [Option.map_some, himage]
      · rfl
    refine ⟨.insertLeft (fresh 0) imageId hnew hissued ?_ ?_ hleft ?_, ?_⟩
    · intro b hb hnone
      exact hexists b hb (Option.map_eq_none_iff.mp hnone)
    · intro b hb a ha
      obtain ⟨r, hr, heq⟩ := Option.map_eq_some_iff.mp ha
      exact hfree b hb r (Table.get?_eq_some_iff.mp hr).1 heq
    · funext i
      show (w'.db.images.get? i).map _ = (w.db.images.get? i).map _
      rw [himages]
    · rw [hid, hleft, if_pos rfl]

/-- What an operation needs to know about the links. Only one believes
what it is told. -/
def Requires (w : World) : Op → Prop
  | .markAnalyzed imageId receiptId => Backlink.Promised w.links imageId receiptId
  | _ => True

/-- What the answer of an operation tells about the links. It is a
promise, so it outlives the rows. -/
def Tells (w : World) : (op : Op) → op.Ret → Prop
  | .claimForAnalysis imageId, image => ∀ i : ImageRecord, image = some i →
    i.id = imageId ∧ ∀ r ∈ i.receiptId, Backlink.Promised w.links imageId r
  | .getReceiptByImageId imageId, receipt => ∀ r : ReceiptRecord, receipt = some r →
    Backlink.Promised w.links imageId r.id
  | .persistReceipt _ (some imageId) _ _ _, (row : ReceiptRecord) =>
    Backlink.Promised w.links imageId row.id
  | _, _ => True

/-- What is known of an image, as a promise. -/
def Knows (w : World) : ImageFact → Prop
  | .receipt imageId receiptId => Backlink.Promised w.links imageId receiptId
  | .owner _ _ => True

theorem requires_of_knows {op : Op} (h : ∀ f ∈ imageKnowledge.needs op, w.Knows f) :
    w.Requires op := by
  cases op
  case markAnalyzed imageId receiptId => exact h (.receipt imageId receiptId) rfl
  all_goals trivial

theorem knows_of_tells {op : Op} {a : op.Ret} (h : w.Tells op a) :
    ∀ f ∈ imageKnowledge.tells op a, w.Knows f := by
  cases op
  case storeImage new =>
    rintro f rfl
    trivial
  case claimForAnalysis imageId =>
    rintro f ⟨image, himage, rfl | ⟨r, hr, rfl⟩⟩
    · trivial
    · obtain ⟨hid, hpromised⟩ := h image himage
      show Backlink.Promised w.links image.id r
      rw [hid]
      exact hpromised r hr
  case getReceiptByImageId imageId =>
    rintro f ⟨row, hrow, rfl⟩
    exact h row hrow
  case persistReceipt receipt imageId status verified userId =>
    rintro f ⟨i, hi, rfl⟩
    obtain rfl : imageId = some i := hi
    exact h
  all_goals exact fun f hf => absurd hf (Set.notMem_empty f)

/-- **Every operation is a step of the links**, if `mark_analyzed` is
promised its receipt. An operation that fails is the step in which nothing
happens. -/
theorem exec_refines {op : Op} {r : Except Exn op.Ret}
    (h : w.exec settings op c = some (w', r)) (hrequires : w.Requires op) :
    Backlink.Step w.links w'.links := by
  obtain ⟨-, hissued⟩ := exec_started h
  have hfresh : ∀ {id}, id ∈ c.fresh → id ∈ w'.issued := fun hid => by
    rw [hissued]
    exact List.mem_append_left _ hid
  obtain ⟨hpossible, ⟨rfl, -⟩ | ⟨-, hperform⟩⟩ := exec_eq h
  · exact stutter (.of_eq rfl rfl)
  · cases op
    case storeImage new =>
      obtain ⟨hmem, hnew⟩ := hpossible.ids_fresh (n := 0) (Nat.zero_lt_succ 0)
      obtain ⟨row, hok, -⟩ | ⟨rfl, -⟩ := writeRow_eq hperform
      · exact step_storeImage hok hnew (hfresh hmem)
      · exact stutter (.of_eq rfl rfl)
    case persistReceipt receipt imageId status verified userId =>
      obtain ⟨hmem, hnew⟩ := hpossible.ids_fresh (n := 0) (Op.newIds_persistReceipt_pos ..)
      obtain ⟨row, hok, -⟩ | ⟨rfl, -⟩ := writeRow_eq hperform
      · exact (step_persistReceipt (w := w) hok hnew (hfresh hmem)).1
      · exact stutter (.of_eq rfl rfl)
    case markAnalyzed imageId receiptId =>
      obtain ⟨hok, -⟩ | ⟨rfl, -⟩ := write_eq hperform
      · exact step_markAnalyzed hok hrequires
      · exact stutter (.of_eq rfl rfl)
    case deleteReceipt caller receiptId =>
      obtain ⟨row, hok, -⟩ | ⟨rfl, -⟩ := writeRow?_eq hperform
      · exact step_deleteReceipt hok
      · exact stutter (.of_eq rfl rfl)
    case deleteImage imageId =>
      exact step_deleteImage (congrArg (fun p => p.1.db) hperform)
    case claimForAnalysis imageId =>
      refine stutter (sameLinks_writeRow? (w := w.started c) hperform fun image hok => ?_)
      obtain ⟨old, -, -, -, hwrite⟩ := Db.claimForAnalysis_spec (Except.ok.inj hok)
      exact .of_image hwrite fun _ => rfl
    case markFailed imageId error =>
      exact stutter (sameLinks_write (w := w.started c) hperform fun hok =>
        .of_image (Db.markFailed_spec hok) fun _ => rfl)
    case markTerminal imageId status error =>
      exact stutter (sameLinks_write (w := w.started c) hperform fun hok =>
        .of_image (Db.markTerminal_spec hok).2 fun _ => rfl)
    case updateImagePath imageId path =>
      exact stutter (sameLinks_write (w := w.started c) hperform fun hok =>
        .of_image (Db.updateImagePath_spec hok) fun _ => rfl)
    case updateImageThumbnailPath imageId path =>
      exact stutter (sameLinks_write (w := w.started c) hperform fun hok =>
        .of_image (Db.updateImageThumbnailPath_spec hok) fun _ => rfl)
    case updateAdditionalImages imageId parts =>
      exact stutter (sameLinks_write (w := w.started c) hperform fun hok =>
        .of_image (Db.updateAdditionalImages_spec hok) fun _ => rfl)
    case updateReceipt caller receiptId receipt =>
      exact stutter (sameLinks_writeRow? (w := w.started c) hperform fun row hok =>
        Db.sameLinks_updateReceipt hok)
    case verifyReceipt caller receiptId =>
      exact stutter (sameLinks_writeRow? (w := w.started c) hperform fun row hok =>
        .of_receipt (Db.verifyReceipt_spec (Except.ok.inj hok)) fun _ => rfl)
    case assign collectionId receiptId =>
      exact stutter (sameLinks_write (w := w.started c) hperform fun hok =>
        Db.sameLinks_assign hok)
    case deleteReceiptCollections receiptId =>
      have hdb : w.db.deleteReceiptCollections receiptId = w'.db :=
        congrArg (fun p => p.1.db) hperform
      exact stutter (.of_eq (congrArg Db.receipts hdb).symm (congrArg Db.images hdb).symm)
    case storePermImage path receiptId =>
      have hdb : w'.db = w.db := db_of_storePermImage (w := w.started c) hperform
      exact stutter (.of_eq (congrArg Db.receipts hdb) (congrArg Db.images hdb))
    case deleteFile path =>
      have hdb : w'.db = w.db := db_of_deleteFile (w := w.started c) hperform
      exact stutter (.of_eq (congrArg Db.receipts hdb) (congrArg Db.images hdb))
    all_goals
      -- it only reads
      have hdb : w.db = w'.db := congrArg (fun p => p.1.db) hperform
      exact stutter (.of_eq (congrArg Db.receipts hdb.symm) (congrArg Db.images hdb.symm))

omit [CaseFolding] in
/-- A receipt that names an image may be promised to be the one of that
image. -/
theorem promised_of_left {w : World} (hinv : Backlink.Inv w.links) {imageId receiptId : UUID}
    (h : w.links.left receiptId = some (some imageId)) :
    Backlink.Promised w.links imageId receiptId := by
  refine ⟨hinv.issued_right imageId (hinv.exists_right receiptId imageId h),
    hinv.issued_left receiptId (by rw [h]; simp), fun o ho _ => ?_⟩
  exact Option.some.inj (ho.symm.trans h)

/-- What an operation answers about the links is true. The thread that
gets the answer may go on with it, since nothing that is told can become
false. -/
theorem exec_tells {op : Op} {a : op.Ret} (h : w.exec settings op c = some (w', .ok a))
    (hinv' : Backlink.Inv w'.links) : w'.Tells op a := by
  obtain ⟨hmem, hissued⟩ := exec_started h
  obtain ⟨hpossible, ⟨-, e, he⟩ | ⟨-, hperform⟩⟩ := exec_eq h
  · exact absurd he (by simp)
  · cases op
    -- the row that was claimed names a receipt, which names the image, by the invariant
    case claimForAnalysis imageId =>
      intro image himage
      obtain ⟨image', hok, -, ha⟩ | ⟨-, hnone | ⟨e, he⟩⟩ :=
        writeRow?_eq (w := w.started c) hperform
      · obtain rfl : image' = image :=
          Option.some.inj ((Except.ok.inj ha).symm.trans himage)
        obtain ⟨old, hold, -, rfl, hwrite⟩ := Db.claimForAnalysis_spec (Except.ok.inj hok)
        refine ⟨(Table.get?_eq_some_iff.mp hold).2, fun r hr => promised_of_left hinv' ?_⟩
        refine hinv'.back r imageId ?_
        show (w'.db.images.get? imageId).map _ = _
        rw [hwrite.get, if_pos rfl, hold]
        exact congrArg some hr
      · exact absurd (himage.symm.trans (Except.ok.inj hnone)) (by simp)
      · exact absurd he (by simp)
    case getReceiptByImageId imageId =>
      intro row hrow
      have hw : w.started c = w' := congrArg Prod.fst hperform
      have ha : w.db.receiptOfImage? imageId = some row :=
        (Except.ok.inj (congrArg Prod.snd hperform)).trans hrow
      obtain ⟨hget, hof⟩ := Db.receiptOfImage?_spec ha
      subst hw
      refine promised_of_left hinv' ?_
      show (w.db.receipts.get? row.id).map _ = _
      rw [hget, ← hof]
      rfl
    case persistReceipt receipt imageId status verified userId =>
      cases imageId with
      | none => trivial
      | some imageId =>
        obtain ⟨hmem, hnew⟩ := hpossible.ids_fresh (n := 0) (Op.newIds_persistReceipt_pos ..)
        obtain ⟨row, hok, -, ha⟩ | ⟨-, e, he⟩ := writeRow_eq (w := w.started c) hperform
        · obtain rfl : a = row := Except.ok.inj ha
          have hissued' : c.ids 0 ∈ w'.issued := by
            rw [hissued]
            exact List.mem_append_left _ hmem
          exact promised_of_left hinv' (step_persistReceipt (w := w) hok hnew hissued').2
        · exact absurd he (by simp)
    all_goals trivial

end World

/-! ## Every handler keeps its promises

Whoever marks an image as analysed with a receipt has seen that this
receipt belongs to the image. That is a property of the text of the
handlers. -/

/-- What the handlers have to keep: the two ends agree, and promises stay.
The rely of one handler is the guarantee of all others. -/
def linksDiscipline (settings : Settings) : Discipline Op.Ret Exn World Choice where
  exec := fun _ => World.exec settings
  guard := fun _ _ _ _ => True
  Inv := fun w => Backlink.Inv w.links
  Rely := fun _ w w' => ∀ b a, Backlink.Promised w.links b a → Backlink.Promised w'.links b a
  Ok := fun _ _ _ _ => True
  rely_refl := fun _ _ _ _ h => h
  rely_trans := fun _ _ _ _ h h' b a hp => h' b a (h b a hp)

namespace Handler

variable {settings : Settings} {t : ℕ} {w : World}

theorem keeps_links {w w' : World} {op : Op} {c : Choice} {r : Except Exn op.Ret}
    (h : w.exec settings op c = some (w', r)) (hrequires : w.Requires op)
    (hinv : Backlink.Inv w.links) :
    (linksDiscipline settings).Keeps t w op w'
      ∧ ∀ b a, Backlink.Promised w.links b a → Backlink.Promised w'.links b a := by
  have hstep := World.exec_refines h hrequires
  have hgrow : ∀ id, w.links.issued id → w'.links.issued id := fun id hid => by
    show id ∈ w'.issued
    rw [(World.exec_started h).2]
    exact List.mem_append_right _ hid
  have hrely := fun b a (hp : Backlink.Promised w.links b a) => hstep.promised hgrow hp
  exact ⟨⟨hstep.inv hgrow hinv, trivial, fun _ _ => hrely⟩, hrely⟩

/-- A handler that keeps its promises, whatever it returns or raises. -/
def KeepsLinks (settings : Settings) (t : ℕ) {α : Type} (p : Handler α) (w : World) : Prop :=
  (linksDiscipline settings).wp t p (fun _ _ => True) (fun _ _ => True) w

omit [CaseFolding] in
/-- What is known stays true while promises stay, whatever the other
requests do. -/
theorem knows_of_rely {w w' : World}
    (hrely : ∀ b a, Backlink.Promised w.links b a → Backlink.Promised w'.links b a)
    {f : ImageFact} (hf : w.Knows f) : w'.Knows f := by
  cases f with
  | receipt imageId receiptId => exact hrely imageId receiptId hf
  | owner imageId userId => trivial

/-- A handler that knows what it says of images keeps its promises. -/
theorem keepsLinks_of_isInformed {α : Type} {p : Handler α} (h : IsInformed p ∅) :
    KeepsLinks settings t p w := by
  refine Discipline.wp_of_informed World.Knows (fun w w' hrely f hf => ?_)
    (fun op w c w' r hinv _ hneeds hexec => ?_) h fun f hf => absurd hf (Set.notMem_empty f)
  · exact knows_of_rely hrely hf
  · obtain ⟨hkeeps, hrely⟩ := keeps_links (t := t) hexec (World.requires_of_knows hneeds) hinv
    refine ⟨hkeeps, fun f hf => knows_of_rely hrely hf, fun a ha => ?_⟩
    subst ha
    exact ⟨World.exec_answers hexec, World.knows_of_tells (World.exec_tells hexec hkeeps.inv)⟩

/-- **Every request keeps the promises.** -/
theorem keepsLinks_handler (request : Request) :
    KeepsLinks settings t (request.handler settings) w :=
  keepsLinks_of_isInformed (isInformed_handler settings request)

end Handler

/-! ## Every interleaving keeps the links

The two sides agree after each step, although they are written by
different statements. Between the two statements the image does not name
its receipt yet, which the property allows. -/

/-- The state before the first request, with whatever files and clock. -/
def World.initial (files : Files) (clock : Timestamp) : World where
  db := Db.empty
  files := files
  clock := clock
  issued := []

omit [CaseFolding] in
theorem World.inv_initial (files : Files) (clock : Timestamp) :
    Backlink.Inv (World.initial files clock).links :=
  ⟨fun _ _ _ h => absurd h (by simp [links, initial, Db.empty, Table.empty, Table.get?]),
    fun _ _ h => absurd h (by simp [links, initial, Db.empty, Table.empty, Table.get?]),
    fun _ _ h => absurd h (by simp [links, initial, Db.empty, Table.empty, Table.get?]),
    fun _ h => absurd rfl h, fun _ h => absurd rfl h⟩

/-- The states of any requests that run at the same time, from an empty
store on. Requests may start at any time, and any operation may fail.
Every state of the running service is one of these, and so is every state
that a crash of a request leaves. -/
abbrev Interleaving (settings : Settings) (files : Files) (clock : Timestamp)
    (s : Threads Op.Ret Exn World) : Prop :=
  Transition.Reachable
    (Threads.step (Request.handler settings) fun _ => World.exec settings)
    ⟨World.initial files clock, []⟩ s

/-- **The two ends of every link agree**: at most one receipt names an
image, and the receipt that an image names is there and names the image.
The database has an index for the first half. For the second one it has a
foreign key, which does not ask whether the receipt names the image back;
that rests on the promises. -/
theorem links_agree {settings : Settings} {files : Files} {clock : Timestamp}
    {s : Threads Op.Ret Exn World} (run : Interleaving settings files clock s) :
    (∀ r ∈ s.shared.db.receipts.rows, ∀ r' ∈ s.shared.db.receipts.rows, ∀ i : UUID,
      r.imageId = some i → r'.imageId = some i → r = r')
    ∧ ∀ i ∈ s.shared.db.images.rows, ∀ receiptId : UUID, i.receiptId = some receiptId →
      ∃ r ∈ s.shared.db.receipts.rows, r.id = receiptId ∧ r.imageId = some i.id := by
  have hsafe : (linksDiscipline settings).AllSafe s := by
    refine Discipline.sound (fun request t w _ => Handler.keepsLinks_handler request)
      (World.inv_initial files clock) (run.mono fun s a _ => ?_)
    cases a with
    | start request => trivial
    | advance t choice => exact fun _ _ _ => trivial
  have hinv : Backlink.Inv s.shared.links := hsafe.1
  have hleft : ∀ {r : ReceiptRecord} {i : UUID}, r ∈ s.shared.db.receipts.rows →
      r.imageId = some i → s.shared.links.left r.id = some (some i) := by
    intro r i hr hi
    show (s.shared.db.receipts.get? r.id).map _ = _
    rw [Table.get?_eq_some_iff.mpr ⟨hr, rfl⟩, ← hi]
    rfl
  refine ⟨fun r hr r' hr' i hi hi' => ?_, fun i hi receiptId hreceipt => ?_⟩
  · exact Table.eq_of_key_eq _ hr hr' (hinv.unique r.id r'.id i (hleft hr hi) (hleft hr' hi'))
  · have hright : s.shared.links.right i.id = some (some receiptId) := by
      show (s.shared.db.images.get? i.id).map _ = _
      rw [Table.get?_eq_some_iff.mpr ⟨hi, rfl⟩, ← hreceipt]
      rfl
    obtain ⟨r, hr, himage⟩ := Option.map_eq_some_iff.mp (hinv.back receiptId i.id hright)
    obtain ⟨hmem, hid⟩ := Table.get?_eq_some_iff.mp hr
    exact ⟨r, hmem, hid, himage⟩

end Links

section OneUpload

local instance asciiFoldingOfUpload : CaseFolding := asciiFolding

/-- An upload that is analysed at once. -/
def uploadSteps : List (Threads.Action Request Choice) :=
  [.start (.upload photo),
    .advance 0 (smoothly 1 []), .advance 0 (smoothly 2 []), .advance 0 (smoothly 3 [1]),
    .advance 0 (smoothly 4 []), .advance 0 (smoothly 5 []), .advance 0 (smoothly 6 [2]),
    .advance 0 (smoothly 7 []), .advance 0 (smoothly 8 [])]

/-- The upload of a photo links it and its receipt. -/
theorem uploadSteps_agree :
    ∃ s, Interleaving plainSettings photoFiles 0 s
      ∧ (∃ i ∈ s.shared.db.images.rows, i.receiptId = some 2)
      ∧ ∀ i ∈ s.shared.db.images.rows, ∀ receiptId : UUID, i.receiptId = some receiptId →
        ∃ r ∈ s.shared.db.receipts.rows, r.id = receiptId ∧ r.imageId = some i.id := by
  obtain ⟨s, run, hlinked⟩ : ∃ s, Interleaving plainSettings photoFiles 0 s
      ∧ ∃ i ∈ s.shared.db.images.rows, i.receiptId = some 2 :=
    Transition.Run.of_exec uploadSteps (by decide +kernel)
  exact ⟨s, run, hlinked, (links_agree run).2⟩

end OneUpload

end VisionBill
