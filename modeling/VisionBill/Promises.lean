import VisionBill.Lib.Informed
import VisionBill.Handlers

/-!
# What the handlers know of an image

Two operations believe what they are told about an image: `mark_analyzed`,
that a receipt is that of the image, and `persist_receipt`, that a user is
its owner. The handlers have it from the operations that they have called
before: from storing or claiming the image, from looking for its receipt
and from persisting it. So whatever a handler says of an image has once
been true (`isInformed_handler`).

This is a statement about the texts of the handlers alone. No database
occurs in it, and no other request: a handler is followed through all
answers that its operations might give, and what it may know grows with
them. What the facts mean in a world, and that they stay true while others
work, is said where they are used, once for the receipts
(`VisionBill.Links`) and once for the owners (`VisionBill.Isolation`).

Most handlers have nothing to do with the analysis of an image. They need
no facts and forget none (`informed_apart`), so only the analysis and the
uploads are gone through.
-/

namespace VisionBill

section Promises

variable [CaseFolding]

/-- What a handler may know of an image: which receipt is its own, and who
owns it. -/
inductive ImageFact
  | receipt (imageId receiptId : UUID)
  | owner (imageId : UUID) (userId : Option UUID)

/-- What the operations need to be known of images, and what they tell.
Besides, what is always so of an answer, without which two of the handlers
could not use what they are told. -/
def imageKnowledge : Knowledge Op.Ret ImageFact where
  needs
    | .markAnalyzed imageId receiptId => {.receipt imageId receiptId}
    | .persistReceipt _ imageId _ _ userId => {f | ∃ i ∈ imageId, f = .owner i userId}
    | _ => ∅
  tells
    | .storeImage _, (row : ImageRecord) => {.owner row.id row.userId}
    | .claimForAnalysis _, (image : Option ImageRecord) =>
      {f | ∃ i ∈ image, f = .owner i.id i.userId ∨ ∃ r ∈ i.receiptId, f = .receipt i.id r}
    | .getReceiptByImageId imageId, (receipt : Option ReceiptRecord) =>
      {f | ∃ r ∈ receipt, f = .receipt imageId r.id}
    | .persistReceipt _ imageId _ _ _, (row : ReceiptRecord) =>
      {f | ∃ i ∈ imageId, f = .receipt i row.id}
    | _, _ => ∅
  Answers
    | .storeImage new, (row : ImageRecord) => row.userId = new.userId
    | .claimForAnalysis imageId, (image : Option ImageRecord) => ∀ i ∈ image, i.id = imageId
    | _, _ => True

/-- What is said of every answer is true: an image is stored with the
owner that was given, and the image that is claimed is the one that was
asked for. -/
theorem World.exec_answers {settings : Settings} {w w' : World} {op : Op} {c : Choice} {a : op.Ret}
    (h : w.exec settings op c = some (w', .ok a)) : imageKnowledge.Answers op a := by
  obtain ⟨-, ⟨-, e, he⟩ | ⟨-, hperform⟩⟩ := exec_eq h
  · exact absurd he (by simp)
  · cases op
    case storeImage new =>
      obtain ⟨row, hok, -, ha⟩ | ⟨-, e, he⟩ := writeRow_eq (w := w.started c) hperform
      · obtain rfl : a = row := Except.ok.inj ha
        exact (Db.storeImage_spec hok).2.2.2.2.2
      · exact absurd he (by simp)
    case claimForAnalysis imageId =>
      intro image himage
      obtain ⟨image', hok, -, ha⟩ | ⟨-, hnone | ⟨e, he⟩⟩ :=
        writeRow?_eq (w := w.started c) hperform
      · obtain rfl : image' = image := Option.some.inj ((Except.ok.inj ha).symm.trans himage)
        obtain ⟨old, hold, -, rfl, -⟩ := Db.claimForAnalysis_spec (Except.ok.inj hok)
        exact (Table.get?_eq_some_iff.mp hold).2
      · exact absurd (himage.symm.trans (Except.ok.inj hnone)) (by simp)
      · exact absurd he (by simp)
    all_goals trivial

namespace Handler

/-- A handler that knows what it needs, whatever it returns or raises. -/
abbrev IsInformed {α : Type} (p : Handler α) (known : Set ImageFact) : Prop :=
  p.Informed imageKnowledge (fun _ _ => True) (fun _ _ => True) known

variable {α β : Type} {known : Set ImageFact}

theorem needs_of_not_isAnalysis (op : Op) (h : ¬ op.IsAnalysis) :
    imageKnowledge.needs op = ∅ := by
  cases op
  case markAnalyzed => exact absurd trivial h
  case persistReceipt => exact absurd trivial h
  all_goals rfl

/-- A handler that has no part in the analysis needs nothing and forgets
nothing. -/
theorem informed_apart {p : Handler α} (hp : Apart p) {facts : Set ImageFact}
    (h : facts ⊆ known) :
    p.Informed imageKnowledge (fun _ known => facts ⊆ known) (fun _ known => facts ⊆ known)
      known :=
  Program.informed_of_calls (hp.mono needs_of_not_isAnalysis) h

theorem isInformed_apart {p : Handler α} (hp : Apart p) : IsInformed p known :=
  Program.informed_mono (informed_apart hp (Set.empty_subset known)) (fun _ _ _ => trivial)
    fun _ _ _ => trivial

theorem isInformed_perform {op : Op} (h : imageKnowledge.needs op ⊆ known) :
    IsInformed (perform op) known :=
  Program.informed_perform h (fun _ _ => trivial) fun _ => trivial

theorem isInformed_markFailed (imageId : UUID) (error : String) :
    IsInformed (perform (.markFailed imageId error)) known :=
  isInformed_perform (Set.empty_subset known)

theorem isInformed_markTerminal (imageId : UUID) (status : ImageStatus) (error : String) :
    IsInformed (perform (.markTerminal imageId status error)) known :=
  isInformed_perform (Set.empty_subset known)

/-- The one operation that has to know a receipt. -/
theorem isInformed_markAnalyzed {imageId receiptId : UUID}
    (h : ImageFact.receipt imageId receiptId ∈ known) :
    IsInformed (perform (.markAnalyzed imageId receiptId)) known :=
  isInformed_perform (Set.singleton_subset_iff.mpr h)

/-- If what comes after needs nothing, it may be forgotten what was
learnt. -/
theorem isInformed_bind {p : Handler α} {f : α → Handler β} (hp : IsInformed p known)
    (hf : ∀ a known, IsInformed (f a) known) : IsInformed (p >>= f) known :=
  Program.informed_bind.mpr (Program.informed_mono hp (fun a known _ => hf a known) fun _ _ h => h)

/-- After a handler that has no part in the analysis, what was known still
is. -/
theorem isInformed_apart_bind {p : Handler α} {f : α → Handler β} (hp : Apart p)
    (hf : ∀ a known', known ⊆ known' → IsInformed (f a) known') : IsInformed (p >>= f) known :=
  Program.informed_bind.mpr
    (Program.informed_mono (informed_apart hp subset_rfl) hf fun _ _ _ => trivial)

theorem isInformed_attempt {p : Handler α} (h : IsInformed p known) :
    IsInformed (attempt p) known :=
  Program.informed_handle.mpr (Program.informed_bind.mpr h)

/-! ## The analysis -/

/-- A receipt that has been persisted is the one of its image. The owner
of the image has to be known before, as the receipt is stored for this
owner. -/
theorem informed_persistReceipt (receipt : Receipt) {imageId : UUID} (status : ReceiptStatus)
    (verified : Bool) {userId : Option UUID} (h : ImageFact.owner imageId userId ∈ known) :
    (persistReceipt receipt (some imageId) status verified userId).Informed imageKnowledge
      (fun row known => ImageFact.receipt imageId row.id ∈ known) (fun _ _ => True) known := by
  refine Program.informed_bind.mpr (Program.informed_perform ?_ (fun row _ => ?_) fun _ => trivial)
  · rintro f ⟨i, hi, rfl⟩
    obtain rfl := Option.some.inj hi
    exact h
  · refine Program.informed_bind.mpr (Program.informed_mono
      (informed_apart (apart_captureToActive row.id userId)
        (Set.singleton_subset_iff.mpr (Or.inr ⟨imageId, rfl, rfl⟩))) ?_ fun _ _ _ => trivial)
    exact fun _ known' hsub => hsub rfl

/-- A receipt is persisted and then linked. -/
theorem isInformed_persistAndMark (receipt : Receipt) {imageId : UUID} (status : ReceiptStatus)
    (verified : Bool) {userId : Option UUID} (h : ImageFact.owner imageId userId ∈ known) :
    IsInformed (do
      let row ← persistReceipt receipt (some imageId) status verified userId
      perform (.markAnalyzed imageId row.id)
      return row) known := by
  refine Program.informed_bind.mpr (Program.informed_mono
    (informed_persistReceipt receipt status verified h) ?_ fun _ _ _ => trivial)
  exact fun row known' hrow => Program.informed_bind.mpr (isInformed_markAnalyzed hrow)

/-- The receipt that is persisted is linked at once, so nothing has to be
remembered across a failure. -/
theorem isInformed_storeAnalysis (image : ImageRecord) (path : FilePath) (receipt : Receipt)
    (h : ImageFact.owner image.id image.userId ∈ known) :
    IsInformed (storeAnalysis image path receipt) known := by
  refine isInformed_bind (isInformed_attempt (isInformed_persistAndMark _ _ _ h))
    fun stored known => ?_
  cases stored with
  | error e => exact isInformed_bind (isInformed_markFailed _ _) fun _ _ => trivial
  | ok row =>
    dsimp only
    split
    · exact isInformed_bind (isInformed_apart (apart_attempt (apart_moveAll ..))) fun _ _ => trivial
    · trivial

theorem isInformed_analyzeFile (image : ImageRecord) (path : FilePath) (modelId : String)
    (h : ImageFact.owner image.id image.userId ∈ known) :
    IsInformed (analyzeFile image path modelId) known := by
  refine isInformed_apart_bind (apart_attempt (apart_perform id)) fun analysis known' hsub => ?_
  split
  · exact isInformed_storeAnalysis _ _ _ (hsub h)
  · exact isInformed_bind (isInformed_markTerminal _ _ _) fun _ _ => trivial
  · exact isInformed_bind (isInformed_markTerminal _ _ _) fun _ _ => trivial
  · exact isInformed_bind (isInformed_markFailed _ _) fun _ _ => trivial

/-- The worker trusts the receipt of the image that it has claimed, or the
one that it finds. -/
theorem isInformed_analyzeOne {image : ImageRecord} (modelId : String)
    (howner : ImageFact.owner image.id image.userId ∈ known)
    (hreceipt : ∀ r ∈ image.receiptId, ImageFact.receipt image.id r ∈ known) :
    IsInformed (analyzeOne image modelId) known := by
  unfold analyzeOne
  split
  · next receiptId hsome =>
    exact Program.informed_bind.mpr (isInformed_markAnalyzed (hreceipt receiptId hsome))
  · refine Program.informed_bind.mpr (Program.informed_perform (Set.empty_subset known)
      (fun existing _ => ?_) fun _ => trivial)
    cases existing with
    | some existing =>
      exact Program.informed_bind.mpr (isInformed_markAnalyzed (Or.inr ⟨existing, rfl, rfl⟩))
    | none =>
      dsimp only
      split
      · exact isInformed_bind (isInformed_markFailed _ _) fun _ _ => trivial
      · refine isInformed_apart_bind (apart_perform id) fun found known' hsub => ?_
        cases found with
        | true => exact isInformed_analyzeFile _ _ _ (hsub (Or.inl howner))
        | false => exact isInformed_bind (isInformed_markFailed _ _) fun _ _ => trivial

/-- The loop of a worker. What is known of one image is not used for the
next. -/
theorem isInformed_processImages (models : List String) (modelId : String)
    (images : List ImageRecord) : IsInformed (processImages models modelId images) known := by
  induction images generalizing known with
  | nil => trivial
  | cons image images ih =>
    refine Program.informed_bind.mpr (Program.informed_perform (Set.empty_subset known)
      (fun claimed _ => ?_) fun _ => trivial)
    cases claimed with
    | none => exact ih
    | some claimed =>
      refine isInformed_bind (isInformed_analyzeOne _ (Or.inr ⟨claimed, rfl, .inl rfl⟩) ?_) ?_
      · exact fun r hr => Or.inr ⟨claimed, rfl, .inr ⟨r, hr, rfl⟩⟩
      · exact fun _ _ => isInformed_bind ih fun _ _ => trivial

theorem isInformed_processPending (settings : Settings) :
    IsInformed (processPending settings) known := by
  refine isInformed_bind (isInformed_apart (apart_attempt (apart_perform id)))
    fun models known => ?_
  split
  · trivial
  · trivial
  · exact isInformed_bind (isInformed_apart (apart_perform id)) fun _ _ =>
      isInformed_processImages _ _ _

/-! ## Uploads -/

/-- What follows a claim: the upload goes on with the row that it has
claimed. -/
theorem isInformed_uploadClaimed (settings : Settings) (new : NewImage) (first : String)
    (models : List String) (image : ImageRecord) (h : ImageFact.owner image.id new.userId ∈ known) :
    IsInformed (uploadClaimed settings new first models image) known := by
  refine isInformed_apart_bind (apart_attempt (apart_perform id)) fun analysis known' hsub => ?_
  split
  · exact isInformed_bind (isInformed_markTerminal _ _ _) fun _ _ => trivial
  · exact isInformed_bind (isInformed_markTerminal _ _ _) fun _ _ => trivial
  · exact isInformed_bind (isInformed_markFailed _ _) fun _ _ => trivial
  · refine Program.informed_bind.mpr (Program.informed_mono
      (informed_persistReceipt _ _ _ (hsub h)) (fun row known'' hrow => ?_) fun _ _ h => h)
    refine isInformed_bind (isInformed_markAnalyzed hrow) fun _ _ => ?_
    split
    · exact isInformed_bind (isInformed_apart (apart_attempt (apart_movePrimary ..)))
        fun _ _ => trivial
    · trivial

/-- The owner of the image that is claimed is that of the image that was
stored. -/
theorem isInformed_uploadImage (settings : Settings) (new : NewImage) :
    IsInformed (uploadImage settings new) known := by
  refine isInformed_bind (isInformed_apart (apart_discoverModels new)) fun models known => ?_
  refine Program.informed_bind.mpr (Program.informed_handle.mpr (Program.informed_perform
    (Set.empty_subset known) (fun image himage => ?_) fun e => Program.informed_bind.mpr
      (Program.informed_mono (isInformed_apart (apart_deleteFiles _)) (fun _ _ _ => trivial)
        fun _ _ h => h)))
  split
  · trivial
  · cases models with
    | nil => trivial
    | cons first models =>
      refine Program.informed_bind.mpr (Program.informed_perform (Set.empty_subset _)
        (fun claimed hclaimed => ?_) fun _ => trivial)
      cases claimed with
      | none => trivial
      | some claimed =>
        have hid : claimed.id = image.id := hclaimed claimed rfl
        have howner : image.userId = new.userId := himage
        refine isInformed_uploadClaimed settings new first models claimed (Or.inl (Or.inr ?_))
        rw [hid, ← howner]
        exact Set.mem_singleton _

/-- **Every request knows what it says of images.** -/
theorem isInformed_handler (settings : Settings) (request : Request) :
    IsInformed (request.handler settings) known := by
  cases request with
  | upload new => exact isInformed_bind (isInformed_uploadImage settings new) fun _ _ => trivial
  | processPending => exact isInformed_bind (isInformed_processPending settings) fun _ _ => trivial
  | updateReceipt caller receiptId receipt =>
    exact isInformed_bind (isInformed_apart (apart_updateReceipt ..)) fun _ _ => trivial
  | verifyReceipt caller receiptId =>
    exact isInformed_bind (isInformed_apart (apart_verifyReceipt ..)) fun _ _ => trivial
  | deleteReceipt caller receiptId => exact isInformed_apart (apart_deleteReceipt ..)
  | deleteImage caller imageId => exact isInformed_apart (apart_deleteImage ..)

end Handler

end Promises

end VisionBill
