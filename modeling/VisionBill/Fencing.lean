import VisionBill.Lib.Lease
import VisionBill.Links

/-!
# Whose analysis it is

An image is claimed for fifteen minutes, by the worker or by the upload
request, and whoever has claimed it writes the receipt and the status
later, by the id of the image alone. After fifteen minutes another party
may claim the image, and the first one is not told.

A claim is therefore good only while its time is kept. The worlds of this
module remember who has claimed what (`LoggedWorld`), which no operation
ever reads; each operation is a step of `Lease`. If every party writes
within the fifteen minutes, then no step of a superseded party changes the
image or its receipt, and an analyzed image stays analyzed; with any
longer time there is a run in which a receipt that a user has verified is
replaced (`fenced_iff`).

## Claims on record

Nothing in the database says who has claimed an image: the row has a
status and a time. To say that a party is superseded one has to know which
claims were made by whom. So a world is extended by a list of claims, each
with the thread, the image and the time, and the runs with and without
this list are the same runs (`interleaving_iff`).

## The argument

In the library an object has one owner at a time, the party of the latest
claim, and a party whose claim has not run out is the owner. Each
operation of the program is idle there, a claim, or a write by the party
whose image it is, given that it is in time (`exec_refines`). That a
handler only ever writes to images that its thread has claimed is a
property of the program text. It is shown with a discipline: what a thread
knows of its images is kept by the steps of others, and each handler,
piece by piece, calls its operations with what it knows
(`staysFenced_handler`).

## The bound is exact

The source has no time limit on an analysis, so whether parties are in
time is an assumption. With the length of the lease as bound it suffices.
With one microsecond more it does not: an upload is late, the worker
analyses the image, a user verifies the receipt, and then the upload
stores its own over it.
-/

namespace VisionBill

section Fencing

variable [CaseFolding]

/-! ## Worlds with a record of the claims

The database has the time of the last claim of an image and no name of who
made it. The record adds the names; it changes nothing of what can happen,
and is not read by any program. -/

/-- An image as a job of the queue. -/
def ImageRecord.job (image : ImageRecord) : Lease.Job ImageStatus :=
  match image.status with
  | .pending | .failed => .free
  | .processing => image.processingAt.elim .free .held
  | .analyzed | .timedOut | .unreadable => .ended image.status

/-- How far the analysis of an image has come: its status, and when it was
claimed. No column says who has claimed it. -/
def ImageRecord.stage (image : ImageRecord) : ImageStatus × Option Timestamp :=
  (image.status, image.processingAt)

/-- The job of an image, by its stage. -/
def jobOf : ImageStatus × Option Timestamp → Lease.Job ImageStatus
  | (.pending, _) | (.failed, _) => .free
  | (.processing, since) => since.elim .free .held
  | (status, _) => .ended status

omit [CaseFolding] in
theorem ImageRecord.jobOf_stage (image : ImageRecord) : jobOf image.stage = image.job := by
  unfold stage job
  cases image.status <;> rfl

omit [CaseFolding] in
/-- An image may be claimed when its job may. -/
theorem ImageRecord.claimable_iff (now : Timestamp) (image : ImageRecord) :
    image.Claimable now ↔ image.job.Claimable leaseTime now := by
  unfold Claimable job
  cases hstatus : image.status with
  | processing =>
    cases image.processingAt with
    | none => simp [Lease.Job.Claimable]
    | some since => simp [Lease.Job.Claimable, lt_sub_iff_add_lt]
  | _ => simp [Lease.Job.Claimable]

omit [CaseFolding] in
theorem ImageRecord.job_eq_ended {image : ImageRecord} {status : ImageStatus}
    (h : image.job = .ended status) : image.status = status := by
  unfold job at h
  split at h
  · exact absurd h (by simp)
  · exact absurd h (by simp)
  · cases hat : image.processingAt with
    | none => rw [hat] at h; exact absurd h (by simp)
    | some since => rw [hat] at h; exact absurd h (by simp)
  all_goals exact Lease.Job.ended.inj h

/-- A world that remembers the claims, the latest first. The list grows
with each claim and is read by no operation. -/
structure LoggedWorld extends World where
  claims : List (Lease.Claim UUID ℕ)

/-- The images of a world as jobs. -/
def LoggedWorld.leases (w : LoggedWorld) : Lease.State UUID ℕ ImageStatus where
  job := fun i => (w.db.images.get? i).map ImageRecord.job
  claims := w.claims
  clock := w.clock
  issued := fun id => id ∈ w.issued

/-- The claim that an operation of a thread has made. The row has the time
of the last claim only, and these are recorded to tell whose it was. -/
def claimsBy (t : ℕ) (c : Choice) : (op : Op) → Except Exn op.Ret → List (Lease.Claim UUID ℕ)
  | .claimForAnalysis imageId, r =>
    match (r : Except Exn (Option ImageRecord)) with
    | .ok (some _) => [⟨imageId, t, c.now⟩]
    | _ => []
  | _, _ => []

/-- An operation of a thread, with its claim on record. -/
def LoggedWorld.exec (settings : Settings) (t : ℕ) (w : LoggedWorld) (op : Op) (c : Choice) :
    Option (LoggedWorld × Except Exn op.Ret) :=
  (w.toWorld.exec settings op c).map fun (w', r) => (⟨w', claimsBy t c op r ++ w.claims⟩, r)

/-- The state before the first request. -/
def LoggedWorld.initial (files : Files) (clock : Timestamp) : LoggedWorld :=
  ⟨World.initial files clock, []⟩

/-- One step of any requests that run at the same time. -/
abbrev LoggedWorld.step (settings : Settings) (s : Threads Op.Ret Exn LoggedWorld)
    (a : Threads.Action Request Choice) : Option (Threads Op.Ret Exn LoggedWorld) :=
  s.step (Request.handler settings) (LoggedWorld.exec settings) a

/-- The threads without the record of the claims. -/
def withoutClaims (s : Threads Op.Ret Exn LoggedWorld) : Threads Op.Ret Exn World :=
  ⟨s.shared.toWorld, s.threads⟩

/-- The record changes nothing. No operation reads it, so a run with a
record is a run when it is left out, step by step. -/
theorem step_withoutClaims (settings : Settings) (s : Threads Op.Ret Exn LoggedWorld)
    (a : Threads.Action Request Choice) :
    (withoutClaims s).step (Request.handler settings) (fun _ => World.exec settings) a
      = (LoggedWorld.step settings s a).map withoutClaims := by
  cases a with
  | start request => rfl
  | advance t choice =>
    unfold LoggedWorld.step Threads.step
    dsimp only [withoutClaims]
    split
    · next op k hthread =>
      dsimp only [LoggedWorld.exec]
      rw [Option.map_map, Option.map_map]
      rfl
    · rfl

/-- **The runs with a record of the claims are the runs.** So what is said
with the record is said of the program, which itself has no such record:
it stores the time of the last claim and not who made it. -/
theorem interleaving_iff {settings : Settings} {files : Files} {clock : Timestamp}
    {s : Threads Op.Ret Exn World} :
    Interleaving settings files clock s
      ↔ ∃ s', Transition.Reachable (LoggedWorld.step settings) ⟨.initial files clock, []⟩ s'
        ∧ withoutClaims s' = s := by
  constructor
  · intro run
    induction run with
    | start => exact ⟨_, .start, rfl⟩
    | next a _ _ hstep ih =>
      obtain ⟨s', run', rfl⟩ := ih
      rw [step_withoutClaims] at hstep
      obtain ⟨s'', hstep', rfl⟩ := Option.map_eq_some_iff.mp hstep
      exact ⟨s'', .next a run' trivial hstep', rfl⟩
  · rintro ⟨s', run, rfl⟩
    induction run with
    | start => exact .start
    | next a _ _ hstep ih =>
      refine .next a ih trivial ?_
      rw [step_withoutClaims, hstep]
      rfl

/-! ## What is asked of a step

A step is in time if it comes at most a bound after the claim of the party
that makes it. This is asked only of the writes that end an analysis. -/

/-- The image whose analysis an operation writes down. -/
def Op.analysisOf : Op → Option UUID
  | .markAnalyzed imageId _ | .markFailed imageId _ | .markTerminal imageId _ _ => some imageId
  | .persistReceipt _ imageId _ _ _ => imageId
  | _ => none

/-- A party writes at most `bound` after its claim. Only the writes count
that end an analysis; moving files may take as long as it likes. -/
def Timely (bound : ℤ) (t : ℕ) (w : LoggedWorld) (op : Op) (c : Choice) : Prop :=
  ∀ i ∈ op.analysisOf, ∀ claim ∈ w.leases.own t i, c.now ≤ claim.time + bound

instance (bound : ℤ) (t : ℕ) (w : LoggedWorld) (op : Op) (c : Choice) :
    Decidable (Timely bound t w op c) := by
  unfold Timely
  infer_instance

/-- An image is the same, and so are its receipts, with their line items
and taxes. This is what a user means by a submission. -/
structure Db.SameSubmission (db : Db) (i : UUID) (db' : Db) : Prop where
  image : db'.images.get? i = db.images.get? i
  receipts : ∀ r : ReceiptRecord, r.imageId = some i →
    (db'.receipts.get? r.id = some r ↔ db.receipts.get? r.id = some r)
  lineItems : ∀ r : ReceiptRecord, db.receipts.get? r.id = some r → r.imageId = some i →
    db'.listLineItems r.id = db.listLineItems r.id
  taxes : ∀ r : ReceiptRecord, db.receipts.get? r.id = some r → r.imageId = some i →
    db'.taxesOf r.id = db.taxesOf r.id

/-- A superseded party changes nothing, unless it claims the image again,
and an analyzed image stays analyzed until it is deleted. -/
structure Fenced (t : ℕ) (w : LoggedWorld) (op : Op) (w' : LoggedWorld) : Prop where
  superseded : ∀ i, w.leases.Superseded t i → op ≠ .claimForAnalysis i →
    w.db.SameSubmission i w'.db
  analyzed : ∀ i image image', w.db.images.get? i = some image → image.status = .analyzed →
    w'.db.images.get? i = some image' → image'.status = .analyzed

/-! ## What an operation does to the jobs

An image is a job that may be claimed, and each operation does one of a
few things to it. So all operations are instances of the steps of the
library, and its invariant is theirs. -/

namespace Db

/-- The images are the same jobs. -/
def SameJobs (db db' : Db) : Prop :=
  ∀ i, (db'.images.get? i).map ImageRecord.job = (db.images.get? i).map ImageRecord.job

/-- The images are at the same stages of their analysis. -/
def SameStages (db db' : Db) : Prop :=
  ∀ i, (db'.images.get? i).map ImageRecord.stage = (db.images.get? i).map ImageRecord.stage

omit [CaseFolding] in
theorem SameJobs.of_eq {db db' : Db} (h : db'.images = db.images) : db.SameJobs db' := fun i => by
  rw [h]

omit [CaseFolding] in
theorem SameStages.of_eq {db db' : Db} (h : db'.images = db.images) : db.SameStages db' :=
  fun i => by rw [h]

omit [CaseFolding] in
/-- What an image is as a job depends on its stage. -/
theorem SameStages.sameJobs {db db' : Db} (h : db.SameStages db') : db.SameJobs db' := by
  intro i
  have hjob : ImageRecord.job = jobOf ∘ ImageRecord.stage :=
    funext fun image => image.jobOf_stage.symm
  rw [hjob, ← Option.map_map, ← Option.map_map, h i]

omit [CaseFolding] in
theorem SameStages.of_image {db db' : Db} {imageId : UUID} {f : ImageRecord → ImageRecord}
    (h : WritesImage db imageId f db') (hf : ∀ i, (f i).stage = i.stage) : db.SameStages db' := by
  intro i
  rw [h.get]
  split
  · next heq =>
    rw [Option.map_map, heq]
    exact Option.map_congr fun i _ => hf i
  · rfl

theorem images_updateReceipt {db db' : Db} {fresh : ℕ → UUID} {receiptId : UUID}
    {receipt : ReceiptUpdate} {caller : Caller} {row : ReceiptRecord}
    (h : db.updateReceipt fresh receiptId receipt caller = .ok (some (db', row))) :
    db'.images = db.images := by
  obtain ⟨old, values, decisions, rows, taxRows, -, heffect⟩ := updateReceipt_spec h
  exact heffect.writesReceipt.images

end Db

theorem sameStages_write {w w' : World} {c : Choice} {result : Except DbError Db}
    {r : Except Exn Unit} (h : (w.started c).write result = (w', r))
    (hdb : result = .ok w'.db → w.db.SameStages w'.db) :
    w.db.SameStages w'.db := by
  obtain ⟨hok, -⟩ | ⟨rfl, -⟩ := World.write_eq h
  · exact hdb hok
  · exact .of_eq rfl

theorem sameStages_writeRow? {w w' : World} {c : Choice} {α : Type}
    {result : Except DbError (Option (Db × α))} {r : Except Exn (Option α)}
    (h : (w.started c).writeRow? result = (w', r))
    (hdb : ∀ a, result = .ok (some (w'.db, a)) → w.db.SameStages w'.db) :
    w.db.SameStages w'.db := by
  obtain ⟨a, hok, -⟩ | ⟨rfl, -⟩ := World.writeRow?_eq h
  · exact hdb a hok
  · exact .of_eq rfl

/-- The operations that may take an image to another stage. -/
def Op.IsStage : Op → Prop
  | .storeImage _ | .deleteImage _ | .claimForAnalysis _ | .markAnalyzed _ _ | .markFailed _ _
  | .markTerminal _ _ _ => True
  | _ => False

/-- **All other operations leave the images at their stages.** This is one
case for each operation, and the reason why only a few of them matter
below. -/
theorem World.exec_sameStages {settings : Settings} {w w' : World} {op : Op} {c : Choice}
    {r : Except Exn op.Ret} (h : w.exec settings op c = some (w', r)) (hop : ¬ op.IsStage) :
    w.db.SameStages w'.db := by
  obtain ⟨-, ⟨rfl, -⟩ | ⟨-, hperform⟩⟩ := exec_eq h
  · exact .of_eq rfl
  · cases op
    -- a receipt is stored without a look at its image
    case persistReceipt receipt imageId status verified userId =>
      obtain ⟨row, hok, -⟩ | ⟨rfl, -⟩ := World.writeRow_eq hperform
      · have himages : w'.db.images = (w.started c).db.images := Db.images_persistReceipt hok
        exact .of_eq himages
      · exact .of_eq rfl
    case updateImagePath imageId path =>
      exact sameStages_write hperform fun hok =>
        .of_image (Db.updateImagePath_spec hok) fun _ => rfl
    case updateImageThumbnailPath imageId path =>
      exact sameStages_write hperform fun hok =>
        .of_image (Db.updateImageThumbnailPath_spec hok) fun _ => rfl
    case updateAdditionalImages imageId parts =>
      exact sameStages_write hperform fun hok =>
        .of_image (Db.updateAdditionalImages_spec hok) fun _ => rfl
    case updateReceipt caller receiptId receipt =>
      exact sameStages_writeRow? hperform fun row hok => .of_eq (Db.images_updateReceipt hok)
    case verifyReceipt caller receiptId =>
      exact sameStages_writeRow? hperform fun row hok =>
        .of_eq (Db.verifyReceipt_spec (Except.ok.inj hok)).images
    case deleteReceipt caller receiptId =>
      refine sameStages_writeRow? hperform fun row hok i => ?_
      rw [(Db.deleteReceipt_spec hok).2.2, Option.map_map]
      rfl
    case assign collectionId receiptId =>
      refine sameStages_write hperform fun hok => .of_eq ?_
      rw [Db.assign_frame hok]
      rfl
    case deleteReceiptCollections receiptId =>
      have hdb : w.db.deleteReceiptCollections receiptId = w'.db :=
        congrArg (fun p => p.1.db) hperform
      exact .of_eq (congrArg Db.images hdb).symm
    case storePermImage path receiptId =>
      exact .of_eq (congrArg Db.images (db_of_storePermImage (w := w.started c) hperform))
    case deleteFile path =>
      exact .of_eq (congrArg Db.images (db_of_deleteFile (w := w.started c) hperform))
    all_goals first
      | exact absurd trivial hop
      | -- it only reads
        exact .of_eq (congrArg Db.images (congrArg (fun p => p.1.db) hperform)).symm

/-- What an operation other than a claim records. -/
theorem claimsBy_of_ne {t : ℕ} {c : Choice} {op : Op} (h : ∀ i, op ≠ .claimForAnalysis i)
    (r : Except Exn op.Ret) : claimsBy t c op r = [] := by
  cases op
  case claimForAnalysis imageId => exact absurd rfl (h imageId)
  all_goals rfl

theorem claimsBy_error {t : ℕ} {c : Choice} {op : Op} (e : Exn) :
    claimsBy t c op (.error e) = [] := by
  cases op <;> rfl

namespace LoggedWorld

variable {settings : Settings} {t : ℕ} {w w' : LoggedWorld} {c : Choice}

/-- What an operation does besides recording a claim. -/
theorem exec_world {op : Op} {r : Except Exn op.Ret}
    (h : LoggedWorld.exec settings t w op c = some (w', r)) :
    w.toWorld.exec settings op c = some (w'.toWorld, r)
      ∧ w'.claims = claimsBy t c op r ++ w.claims := by
  obtain ⟨⟨w₁, r₁⟩, hexec, heq⟩ := Option.map_eq_some_iff.mp h
  obtain ⟨rfl, rfl⟩ := Prod.mk.inj heq
  exact ⟨hexec, rfl⟩

theorem exec_later {op : Op} {r : Except Exn op.Ret}
    (h : LoggedWorld.exec settings t w op c = some (w', r)) : w.leases.Later w'.leases := by
  obtain ⟨hexec, -⟩ := exec_world h
  obtain ⟨hclock, hissued⟩ := World.exec_started hexec
  refine ⟨?_, fun id hid => ?_⟩
  · show w.clock ≤ w'.clock
    rw [hclock]
    exact (World.exec_eq hexec).1.1
  · show id ∈ w'.issued
    rw [hissued]
    exact List.mem_append_right _ hid

omit [CaseFolding] in
/-- The jobs and the claims are as before. -/
theorem step_idle (hjobs : w.db.SameJobs w'.db) (hclaims : w'.claims = w.claims) :
    Lease.Step leaseTime t w.leases w'.leases :=
  .idle (funext hjobs) hclaims

omit [CaseFolding] in
/-- The analysis of an image is written down by the party whose image it
is. -/
theorem step_finish {imageId : UUID} {f : ImageRecord → ImageRecord} {new : Lease.Job ImageStatus}
    (h : WritesImage w.db imageId f w'.db) (hf : ∀ i, (f i).job = new)
    (hmine : w.leases.Mine t imageId) (hclaims : w'.claims = w.claims) :
    Lease.Step leaseTime t w.leases w'.leases := by
  refine .finish imageId new hmine (fun x => ?_) hclaims
  show (w'.db.images.get? x).map _ = _
  rw [h.get]
  split
  · show _ = ((w.db.images.get? imageId).map ImageRecord.job).map _
    rw [Option.map_map, Option.map_map]
    exact Option.map_congr fun i _ => hf i
  · rfl

theorem step_write {imageId : UUID} (f : ImageRecord → ImageRecord) (new : Lease.Job ImageStatus)
    {result : Except DbError Db} {r : Except Exn Unit}
    (h : (w.started c).write result = (w'.toWorld, r))
    (hwrites : result = .ok w'.db → WritesImage w.db imageId f w'.db ∧ ∀ i, (f i).job = new)
    (hmine : w.leases.Mine t imageId) (hclaims : w'.claims = w.claims) :
    Lease.Step leaseTime t w.leases w'.leases := by
  obtain ⟨hok, -⟩ | ⟨hsame, -⟩ := World.write_eq h
  · exact step_finish (hwrites hok).1 (hwrites hok).2 hmine hclaims
  · refine step_idle (.of_eq ?_) hclaims
    rw [hsame]
    rfl

/-- **Every operation is a step of the jobs**, if the analysis of an image
is written down by the party whose image it is. The source does not check
the condition; it is what the discipline of the handlers provides. -/
theorem exec_refines {op : Op} {r : Except Exn op.Ret}
    (h : LoggedWorld.exec settings t w op c = some (w', r))
    (hmine : ∀ i ∈ op.analysisOf, w.leases.Mine t i) :
    Lease.Step leaseTime t w.leases w'.leases := by
  obtain ⟨hexec, hclaims⟩ := exec_world h
  obtain ⟨hclock, hissued⟩ := World.exec_started hexec
  obtain ⟨hpossible, ⟨hsame, e, rfl⟩ | ⟨-, hperform⟩⟩ := World.exec_eq hexec
  · refine step_idle (.of_eq ?_) (hclaims.trans (by rw [claimsBy_error]; rfl))
    rw [hsame]
    rfl
  · cases op
    -- a claim is the one step that makes somebody the party of an image
    case claimForAnalysis imageId =>
      obtain ⟨image, hok, -, rfl⟩ | ⟨hsame, hr⟩ := World.writeRow?_eq hperform
      · obtain ⟨old, hold, hclaimable, -, hwrites⟩ := Db.claimForAnalysis_spec (Except.ok.inj hok)
        have hnow : w'.leases.clock = c.now := hclock
        refine .claim imageId old.job ?_ ?_ (fun x => ?_) ?_
        · exact congrArg (Option.map ImageRecord.job) hold
        · rw [hnow]
          exact (ImageRecord.claimable_iff c.now old).mp hclaimable
        · show (w'.db.images.get? x).map _ = _
          rw [hwrites.get, hnow]
          split
          · rw [hold]
            rfl
          · rfl
        · rw [hnow]
          exact hclaims
      · refine step_idle (.of_eq ?_) ?_
        · rw [hsame]
          rfl
        · obtain rfl | ⟨e, rfl⟩ := hr
          · exact hclaims
          · exact hclaims
    case storeImage new =>
      obtain ⟨hmem, hnew⟩ := hpossible.ids_fresh (n := 0) (Nat.zero_lt_succ 0)
      obtain ⟨row, hok, -⟩ | ⟨hsame, -⟩ := World.writeRow_eq hperform
      · obtain ⟨hid, hstatus, -, hget, -⟩ := Db.storeImage_spec hok
        refine .create (c.ids 0) hnew ?_ (fun x => ?_) hclaims
        · show c.ids 0 ∈ w'.issued
          rw [hissued]
          exact List.mem_append_left _ hmem
        show (w'.db.images.get? x).map _ = _
        rw [hget]
        split
        · refine congrArg some ?_
          unfold ImageRecord.job
          rw [hstatus]
        · rfl
      · exact step_idle (.of_eq (by rw [hsame]; rfl)) hclaims
    case deleteImage imageId =>
      have hdb : w.db.deleteImage imageId = w'.db := congrArg (fun p => p.1.db) hperform
      refine .drop imageId (fun x => ?_) hclaims
      show (w'.db.images.get? x).map _ = _
      rw [← hdb, (w.db.deleteImage_spec imageId).1]
      split <;> rfl
    -- three ways to write down how an analysis has ended
    case markAnalyzed imageId receiptId =>
      exact step_write (Db.analyzed c.now receiptId) (.ended .analyzed) hperform
        (fun hok => ⟨(Db.markAnalyzed_spec hok).2, fun _ => rfl⟩) (hmine imageId rfl) hclaims
    case markFailed imageId error =>
      exact step_write (Db.stopped .failed error) .free hperform
        (fun hok => ⟨Db.markFailed_spec hok, fun _ => rfl⟩) (hmine imageId rfl) hclaims
    case markTerminal imageId status error =>
      refine step_write (Db.stopped status error) (.ended status) hperform (fun hok => ?_)
        (hmine imageId rfl) hclaims
      obtain ⟨hstatus, hwrites⟩ := Db.markTerminal_spec hok
      refine ⟨hwrites, fun _ => ?_⟩
      obtain rfl | rfl := hstatus <;> rfl
    all_goals exact step_idle (World.exec_sameStages hexec id).sameJobs hclaims

end LoggedWorld

/-! ## What an operation leaves alone

An analysis that was superseded must not change the submission: image,
receipt, line items and taxes. The operations that could are few, and each
of them names the image or its receipt. -/

namespace Db

variable {db db' : Db} {i : UUID}

omit [CaseFolding] in
theorem SameSubmission.of_eq (himages : db'.images.get? i = db.images.get? i)
    (hreceipts : db'.receipts = db.receipts) (hlineItems : db'.lineItems = db.lineItems)
    (htaxes : db'.taxes = db.taxes) : db.SameSubmission i db' := by
  refine ⟨himages, fun r _ => by rw [hreceipts], fun r _ _ => ?_, fun r _ _ => ?_⟩
  · unfold listLineItems
    rw [hlineItems]
  · unfold taxesOf
    rw [htaxes]

omit [CaseFolding] in
theorem SameSubmission.refl (db : Db) (i : UUID) : db.SameSubmission i db := .of_eq rfl rfl rfl rfl

omit [CaseFolding] in
/-- A write to another image. -/
theorem SameSubmission.of_image {imageId : UUID} {f : ImageRecord → ImageRecord}
    (h : WritesImage db imageId f db') (hne : i ≠ imageId) : db.SameSubmission i db' := by
  refine .of_eq ?_ ?_ ?_ ?_
  · rw [h.get, if_neg hne]
  all_goals rw [h.frame]

/-- The receipt of another image is persisted. Neither the row that is
rewritten nor the one that is inserted is one of this image, and line
items and taxes go with their receipt. -/
theorem SameSubmission.of_persistReceipt {now : Timestamp} {fresh : ℕ → UUID} {receipt : Receipt}
    {imageId : Option UUID} {status : ReceiptStatus} {verified : Bool} {userId : Option UUID}
    {row : ReceiptRecord}
    (h : db.persistReceipt now fresh receipt imageId status verified userId = .ok (db', row))
    (hne : imageId ≠ some i) : db.SameSubmission i db' := by
  obtain ⟨values, history, rows, taxRows, heffect⟩ := persistReceipt_spec h
  obtain ⟨db₁, hwrite, hdb⟩ := heffect.writes
  have hreceipts : db'.receipts = db₁.receipts := by rw [hdb]
  -- the row that is written is not one of a receipt of the image, before or after
  have hrow : ∀ r : ReceiptRecord, r.imageId = some i →
      (db₁.receipts.get? r.id = some r ↔ db.receipts.get? r.id = some r)
        ∧ (db.receipts.get? r.id = some r → r.id ≠ row.id) := by
    intro r hr
    cases writeReceipt_spec hwrite with
    | updated j old himage hold hrow hdb₁ =>
      obtain ⟨hget, hof⟩ := receiptOfImage?_spec hold
      have hother : old.imageId ≠ some i := fun heq => hne (himage.trans (hof.symm.trans heq))
      have hwrites : WritesReceipt db old.id (rewritten values status verified userId) db₁ :=
        writesReceipt_update (fun _ => rfl) (by rw [hdb₁]) (by rw [hdb₁])
      rw [hwrites.get]
      split
      · next heq =>
        rw [heq, hget]
        refine ⟨⟨fun hsome => ?_, fun hsome => ?_⟩, fun hsome => ?_⟩
        · exact absurd ((congrArg ReceiptRecord.imageId (Option.some.inj hsome)).trans hr) hother
        · exact absurd ((congrArg ReceiptRecord.imageId (Option.some.inj hsome)).trans hr) hother
        · exact absurd ((congrArg ReceiptRecord.imageId (Option.some.inj hsome)).trans hr) hother
      · next hid => exact ⟨Iff.rfl, fun _ => by rw [hrow]; exact hid⟩
    | inserted hnone hfree hexists hrow hinsert hdb₁ =>
      have hother : row.imageId ≠ some i := by
        rw [hrow]
        exact hne
      have hnew : db.receipts.get? row.id = none := by
        refine Table.get?_eq_none_iff.mpr fun r' hr' heq => ?_
        exact (Table.insert_eq_some_iff.mp hinsert).1 (heq ▸ List.mem_map_of_mem hr')
      have hkeep : db.receipts.get? r.id = some r → r.id ≠ row.id := fun hsome heq =>
        absurd (hsome.symm.trans (heq ▸ hnew)) (by simp)
      refine ⟨?_, hkeep⟩
      rw [Table.get?_insert hinsert]
      split
      · next heq =>
        refine ⟨fun hsome => ?_, fun hsome => absurd heq.symm (hkeep hsome)⟩
        exact absurd ((congrArg ReceiptRecord.imageId (Option.some.inj hsome)).trans hr) hother
      · exact Iff.rfl
  refine ⟨?_, fun r hr => ?_, fun r hget hr => ?_, fun r hget hr => ?_⟩
  · rw [images_persistReceipt h]
  · rw [hreceipts]
    exact (hrow r hr).1
  · exact heffect.replaces.listLineItems_of_ne heffect.stores ((hrow r hr).2 hget)
  · exact heffect.replaces.taxesOf_of_ne heffect.storesTaxes ((hrow r hr).2 hget)

end Db

/-- The operations of an analysis that do not touch an image: they write
to another one, or they read. Requests that change receipts have no part
in an analysis, and are dealt with apart. -/
def Op.LeavesAlone (i : UUID) : Op → Prop
  | .claimForAnalysis imageId | .markAnalyzed imageId _ | .markFailed imageId _
  | .markTerminal imageId _ _ | .updateImagePath imageId _ | .updateImageThumbnailPath imageId _
  | .updateAdditionalImages imageId _ => i ≠ imageId
  | .persistReceipt _ imageId _ _ _ => imageId ≠ some i
  | .getReceiptByImageId _ | .listPendingImages | .activeCollection _ | .assign _ _
  | .getAvailableModels | .analyse _ _ | .fileExists _ | .storePermImage _ _ => True
  | _ => False

theorem sameSubmission_write {w w' : World} {c : Choice} {i : UUID} {result : Except DbError Db}
    {r : Except Exn Unit} (h : (w.started c).write result = (w', r))
    (hdb : result = .ok w'.db → w.db.SameSubmission i w'.db) : w.db.SameSubmission i w'.db := by
  obtain ⟨hok, -⟩ | ⟨rfl, -⟩ := World.write_eq h
  · exact hdb hok
  · exact .refl _ _

/-- **What an operation leaves alone.** An operation that is about another
image, and about no receipt of this one, leaves all that was submitted
with the image as it was. -/
theorem World.exec_leavesAlone {settings : Settings} {w w' : World} {op : Op} {c : Choice}
    {r : Except Exn op.Ret} {i : UUID} (h : w.exec settings op c = some (w', r))
    (hop : op.LeavesAlone i) : w.db.SameSubmission i w'.db := by
  obtain ⟨-, ⟨rfl, -⟩ | ⟨-, hperform⟩⟩ := exec_eq h
  · exact .refl _ _
  · cases op
    case claimForAnalysis imageId =>
      obtain ⟨image, hok, -⟩ | ⟨rfl, -⟩ := writeRow?_eq hperform
      · obtain ⟨old, -, -, -, hwrites⟩ := Db.claimForAnalysis_spec (Except.ok.inj hok)
        exact .of_image hwrites hop
      · exact .refl _ _
    case markAnalyzed imageId receiptId =>
      exact sameSubmission_write hperform fun hok => .of_image (Db.markAnalyzed_spec hok).2 hop
    case markFailed imageId error =>
      exact sameSubmission_write hperform fun hok => .of_image (Db.markFailed_spec hok) hop
    case markTerminal imageId status error =>
      exact sameSubmission_write hperform fun hok => .of_image (Db.markTerminal_spec hok).2 hop
    case updateImagePath imageId path =>
      exact sameSubmission_write hperform fun hok => .of_image (Db.updateImagePath_spec hok) hop
    case updateImageThumbnailPath imageId path =>
      exact sameSubmission_write hperform fun hok =>
        .of_image (Db.updateImageThumbnailPath_spec hok) hop
    case updateAdditionalImages imageId parts =>
      exact sameSubmission_write hperform fun hok =>
        .of_image (Db.updateAdditionalImages_spec hok) hop
    case persistReceipt receipt imageId status verified userId =>
      obtain ⟨row, hok, -⟩ | ⟨rfl, -⟩ := writeRow_eq hperform
      · exact .of_persistReceipt hok hop
      · exact .refl _ _
    case assign collectionId receiptId =>
      refine sameSubmission_write hperform fun hok => ?_
      rw [Db.assign_frame hok]
      exact .of_eq rfl rfl rfl rfl
    case storePermImage path receiptId =>
      rw [db_of_storePermImage (w := w.started c) hperform]
      exact .refl _ _
    all_goals first
      | exact absurd hop id
      | (obtain ⟨rfl, -⟩ := Prod.mk.inj hperform
         exact .refl _ _)

/-! ## Parties keep to their own images

Every request and every cycle is a party. It makes the steps of an
analysis only for images that it has claimed, and this is shown for its
program once, whatever others do meanwhile. -/

namespace LoggedWorld

/-- A thread that has claimed nothing. -/
def Unclaimed (t : ℕ) (w : LoggedWorld) : Prop := ∀ i, w.leases.own t i = none

/-- What a thread may rely on while others run: a claim of its own that
has not run out is still the latest one, an image that it is done with
stays so, and nobody claims in its name. -/
structure Relies (t : ℕ) (w w' : LoggedWorld) : Prop where
  unclaimed : w.Unclaimed t → w'.Unclaimed t
  running : ∀ i time, Lease.State.Running leaseTime t i time w.leases →
    Lease.State.Running leaseTime t i time w'.leases
  closed : ∀ i, w.leases.Closed t i → w'.leases.Closed t i

end LoggedWorld

/-- What the handlers have to keep: what a thread knows of its own images.
The operations are to be in time, and to write to its own images only. -/
def fencingDiscipline (settings : Settings) : Discipline Op.Ret Exn LoggedWorld Choice where
  exec := LoggedWorld.exec settings
  guard := Timely leaseTime
  Inv := fun w => w.leases.Inv
  Rely := LoggedWorld.Relies
  Ok := Fenced
  rely_refl := fun _ _ => ⟨id, fun _ _ => id, fun _ => id⟩
  rely_trans := fun _ _ _ _ h h' => ⟨h'.unclaimed ∘ h.unclaimed,
    fun i time => h'.running i time ∘ h.running i time, fun i => h'.closed i ∘ h.closed i⟩

namespace Handler

variable {settings : Settings} {t : ℕ} {w : LoggedWorld}

/-- An operation that leaves the images of others alone. It is a step of
the library's leases, from which the rest of the discipline follows. -/
theorem fencing_keeps {w w' : LoggedWorld} {op : Op} {c : Choice} {r : Except Exn op.Ret}
    (h : LoggedWorld.exec settings t w op c = some (w', r)) (hinv : w.leases.Inv)
    (hmine : ∀ i ∈ op.analysisOf, w.leases.Mine t i)
    (halone : ∀ i, w.leases.Superseded t i → op ≠ .claimForAnalysis i →
      w.db.SameSubmission i w'.db) :
    (fencingDiscipline settings).Keeps t w op w' := by
  have hstep := LoggedWorld.exec_refines h hmine
  have hlater := LoggedWorld.exec_later h
  refine ⟨hstep.inv hlater hinv, ⟨halone, fun i image image' himage hstatus himage' => ?_⟩,
    fun t' hne => ⟨fun hun i => (hstep.own hne i).trans (hun i),
      fun i time => hstep.running hlater hinv hne, fun i => hstep.closed hinv⟩⟩
  have hended : w.leases.job i = some (.ended .analyzed) := by
    show (w.db.images.get? i).map _ = _
    rw [himage]
    refine congrArg some ?_
    unfold ImageRecord.job
    rw [hstatus]
  have hjob : w'.leases.job i = some image'.job := congrArg (Option.map ImageRecord.job) himage'
  rcases hstep.ended hinv hended with hstays | hgone
  · exact ImageRecord.job_eq_ended (Option.some.inj (hjob.symm.trans hstays))
  · exact absurd (hjob.symm.trans hgone) (by simp)

/-- A handler that has no part in the analysis, of a thread that has
claimed nothing. -/
theorem fencing_apart {α : Type} {p : Handler α} (hp : Apart p) (hw : w.Unclaimed t) :
    (fencingDiscipline settings).wp t p (fun _ w => w.Unclaimed t)
      (fun _ w => w.Unclaimed t) w := by
  refine Discipline.wp_of_calls (I := fun w : LoggedWorld => w.Unclaimed t)
    (fun (w w' : LoggedWorld) h (hrely : w.Relies t w') => hrely.unclaimed h) ?_ hp hw
  intro op hop w hw hinv c r w' _ hexec
  have hclaim : ∀ i, op ≠ .claimForAnalysis i := by
    rintro i rfl
    exact hop trivial
  have hnone : op.analysisOf = none := by
    cases op
    case markAnalyzed => exact absurd trivial hop
    case markFailed => exact absurd trivial hop
    case markTerminal => exact absurd trivial hop
    case persistReceipt => exact absurd trivial hop
    all_goals rfl
  have hclaims : w'.claims = w.claims := by
    rw [(LoggedWorld.exec_world hexec).2, claimsBy_of_ne hclaim]
    rfl
  refine ⟨fencing_keeps hexec hinv (by rw [hnone]; simp) fun i hsuperseded _ => ?_, fun i => ?_⟩
  · obtain ⟨hsome, -⟩ := hsuperseded
    rw [hw i] at hsome
    exact absurd hsome (by simp)
  · exact (Lease.State.own_congr hclaims t i).trans (hw i)

/-- An operation that may be performed in the middle of an analysis. -/
def IsIdle (op : Op) : Prop := op.analysisOf = none ∧ ∀ i, op.LeavesAlone i

theorem IsIdle.ne_claim {op : Op} (h : IsIdle op) (i : UUID) : op ≠ .claimForAnalysis i := by
  rintro rfl
  exact h.2 i rfl

/-- A handler of idle operations, and what a thread knows while it runs.
Most handlers are of this kind, and their proofs are this lemma. -/
theorem fencing_idle {α : Type} {p : Handler α} (hp : p.Calls IsIdle) {I : LoggedWorld → Prop}
    (hrely : ∀ w w', I w → w.Relies t w' → I w')
    (hidle : ∀ w w' : LoggedWorld, I w → w.leases.Later w'.leases →
      (∀ i, w'.leases.job i = w.leases.job i) → w'.claims = w.claims → I w')
    (hw : I w) : (fencingDiscipline settings).wp t p (fun _ => I) (fun _ => I) w := by
  refine Discipline.wp_of_calls hrely ?_ hp hw
  intro op hop w hw hinv c r w' _ hexec
  obtain ⟨hworld, hclaims⟩ := LoggedWorld.exec_world hexec
  have hsame := fun i => World.exec_leavesAlone hworld (hop.2 i)
  rw [claimsBy_of_ne hop.ne_claim] at hclaims
  refine ⟨fencing_keeps hexec hinv (by rw [hop.1]; simp) fun i _ _ => hsame i, ?_⟩
  exact hidle w w' hw (LoggedWorld.exec_later hexec)
    (fun i => congrArg (Option.map ImageRecord.job) (hsame i).image) hclaims

theorem fencing_idle_running {α : Type} {p : Handler α} (hp : p.Calls IsIdle) {i : UUID} {time : ℤ}
    (hw : Lease.State.Running leaseTime t i time w.leases) :
    (fencingDiscipline settings).wp t p
      (fun _ w => Lease.State.Running leaseTime t i time w.leases)
      (fun _ w => Lease.State.Running leaseTime t i time w.leases) w :=
  fencing_idle hp (fun _ _ h hrely => hrely.running i time h)
    (fun _ _ h hlater hjob hclaims => h.of_idle hlater (hjob i) hclaims) hw

/-- The files of an image that has been analysed are moved. Its analysis
is closed by then, and the paths that are written are those of this
image. -/
theorem fencing_moves {α : Type} {p : Handler α} {i : UUID}
    (hp : p.Calls fun op => op.analysisOf = none ∧ (∀ j, op ≠ .claimForAnalysis j)
      ∧ ∀ j, j ≠ i → op.LeavesAlone j)
    (hw : w.leases.Closed t i) :
    (fencingDiscipline settings).wp t p (fun _ _ => True) (fun _ _ => True) w := by
  refine Discipline.wp_mono (Discipline.wp_of_calls
    (I := fun w : LoggedWorld => w.leases.Closed t i)
    (fun (w w' : LoggedWorld) h (hrely : w.Relies t w') => hrely.closed i h) ?_ hp hw)
    (fun _ _ _ => trivial) fun _ _ _ => trivial
  intro op hop w hw hinv c r w' _ hexec
  obtain ⟨hnone, hclaim, halone⟩ := hop
  have hmine : ∀ j ∈ op.analysisOf, w.leases.Mine t j := by
    rw [hnone]
    simp
  obtain ⟨hworld, -⟩ := LoggedWorld.exec_world hexec
  refine ⟨fencing_keeps hexec hinv hmine fun j hsuperseded _ => ?_,
    (LoggedWorld.exec_refines hexec hmine).closed hinv hw⟩
  refine World.exec_leavesAlone hworld (halone j ?_)
  rintro rfl
  exact hw.not_superseded hsuperseded

/-- An image is claimed. From here on the thread knows that it owns it,
and since when. -/
theorem fencing_claim (imageId : UUID) :
    (fencingDiscipline settings).wp t (perform (.claimForAnalysis imageId))
      (fun claimed w => ∀ image : ImageRecord, claimed = some image →
        ∃ time, Lease.State.Running leaseTime t image.id time w.leases)
      (fun _ _ => True) w := by
  refine Discipline.wp_perform fun w₁ _ hinv c r w₂ _ hexec => ?_
  obtain ⟨hworld, hclaims⟩ := LoggedWorld.exec_world hexec
  refine ⟨fencing_keeps hexec hinv (by simp [Op.analysisOf]) fun i _ hne =>
    World.exec_leavesAlone hworld fun heq => hne (congrArg Op.claimForAnalysis heq.symm), ?_,
    fun _ _ => trivial⟩
  intro claimed hr image himage
  subst hr himage
  obtain ⟨hclock, -⟩ := World.exec_started hworld
  obtain ⟨-, ⟨-, e, he⟩ | ⟨-, hperform⟩⟩ := World.exec_eq hworld
  · exact absurd he (by simp)
  · obtain ⟨image', hok, -, heq⟩ | ⟨-, heq | ⟨e, heq⟩⟩ := World.writeRow?_eq hperform
    · obtain ⟨old, hold, -, rfl, hwrites⟩ := Db.claimForAnalysis_spec (Except.ok.inj hok)
      obtain rfl : image = Db.claimed c.now old := Option.some.inj (Except.ok.inj heq)
      have hid : (Db.claimed c.now old).id = imageId := (Table.get?_eq_some_iff.mp hold).2
      have hnow : w₂.leases.clock = c.now := hclock
      refine ⟨w₂.leases.clock, .of_claim (s := w₁.leases) ?_ ?_⟩
      · rw [hid, hnow]
        show (w₂.db.images.get? imageId).map _ = _
        rw [hwrites.get, if_pos rfl, hold]
        rfl
      · rw [hid, hnow]
        exact hclaims
    · exact absurd (Except.ok.inj heq) (by simp)
    · exact absurd heq (by simp)

/-- A party writes down the analysis of its image in time. After that the
image is nobody's, whatever the thread does next. -/
theorem fencing_write {op : Op} {i : UUID} {time : ℤ} {Q : op.Ret → LoggedWorld → Prop}
    {R : Exn → LoggedWorld → Prop} (hop : op.analysisOf = some i)
    (halone : ∀ j, j ≠ i → op.LeavesAlone j)
    (hw : Lease.State.Running leaseTime t i time w.leases)
    (hQ : ∀ (w w' : LoggedWorld) (c : Choice) (r : Except Exn op.Ret),
      Lease.State.Running leaseTime t i time w.leases → w.leases.Mine t i →
      LoggedWorld.exec settings t w op c = some (w', r) →
      (∀ a, r = .ok a → Q a w') ∧ ∀ e, r = .error e → R e w') :
    (fencingDiscipline settings).wp t (perform op) Q R w := by
  refine Discipline.wp_perform fun w₁ hrely hinv c r w₂ hguard hexec => ?_
  have hrun := hrely.running i time hw
  obtain ⟨hworld, -⟩ := LoggedWorld.exec_world hexec
  have hmine : w₁.leases.Mine t i :=
    hrun.mine (World.exec_eq hworld).1.1 fun claim hclaim => hguard i hop claim hclaim
  refine ⟨fencing_keeps hexec hinv ?_ fun j hsuperseded _ => ?_, hQ w₁ w₂ c r hrun hmine hexec⟩
  · intro j hj
    obtain rfl := Option.some.inj (hop.symm.trans hj)
    exact hmine
  · refine World.exec_leavesAlone hworld (halone j ?_)
    rintro rfl
    exact hmine.not_superseded hsuperseded

/-- A handler that keeps to its own images, whatever it returns or
raises. -/
def StaysFenced (settings : Settings) (t : ℕ) {α : Type} (p : Handler α) (w : LoggedWorld) : Prop :=
  (fencingDiscipline settings).wp t p (fun _ _ => True) (fun _ _ => True) w

variable {α β : Type} {i : UUID} {time : ℤ}

theorem staysFenced_bind {p : Handler α} {f : α → Handler β} (hp : StaysFenced settings t p w)
    (hf : ∀ a w, StaysFenced settings t (f a) w) : StaysFenced settings t (p >>= f) w :=
  Discipline.wp_bind.mpr (Discipline.wp_mono hp (fun a w' _ => hf a w') fun _ _ h => h)

theorem staysFenced_attempt {p : Handler α} (h : StaysFenced settings t p w) :
    StaysFenced settings t (attempt p) w :=
  Discipline.wp_handle.mpr (Discipline.wp_bind.mpr h)

/-- `attempt` hands an exception on as a value. -/
theorem fencing_attempt {p : Handler α} {Q : Except Exn α → LoggedWorld → Prop}
    {R : Exn → LoggedWorld → Prop}
    (h : (fencingDiscipline settings).wp t p (fun a => Q (.ok a)) (fun e => Q (.error e)) w) :
    (fencingDiscipline settings).wp t (attempt p) Q R w :=
  Discipline.wp_handle.mpr (Discipline.wp_bind.mpr h)

theorem isIdle_captureToActive (receiptId : UUID) (userId : Option UUID) :
    (captureToActive receiptId userId).Calls IsIdle :=
  calls_captureToActive (fun _ => ⟨rfl, fun _ => trivial⟩) fun _ => ⟨rfl, fun _ => trivial⟩

/-- The receipt of the image that a party has claimed is persisted. The
image itself is not written, so the party is in charge before and after,
also when the statement fails. -/
theorem fencing_persistReceipt (receipt : Receipt) (status : ReceiptStatus) (verified : Bool)
    (userId : Option UUID) (hw : Lease.State.Running leaseTime t i time w.leases) :
    (fencingDiscipline settings).wp t (persistReceipt receipt (some i) status verified userId)
      (fun _ w => Lease.State.Running leaseTime t i time w.leases)
      (fun _ w => Lease.State.Running leaseTime t i time w.leases) w := by
  refine Discipline.wp_bind.mpr (fencing_write rfl (fun j hne => ?_) hw ?_)
  · exact fun heq => hne (Option.some.inj heq).symm
  · intro w w' c r hrun _ hexec
    obtain ⟨hworld, hclaims⟩ := LoggedWorld.exec_world hexec
    have himages : w'.db.images = w.db.images := by
      obtain ⟨-, ⟨hsame, -⟩ | ⟨-, hperform⟩⟩ := World.exec_eq hworld
      · rw [hsame]
        rfl
      · obtain ⟨row, hok, -⟩ | ⟨hsame, -⟩ := World.writeRow_eq hperform
        · exact Db.images_persistReceipt hok
        · rw [hsame]
          rfl
    have hrun' : Lease.State.Running leaseTime t i time w'.leases := by
      refine hrun.of_idle (LoggedWorld.exec_later hexec) ?_ hclaims
      show (w'.db.images.get? i).map _ = (w.db.images.get? i).map _
      rw [himages]
    refine ⟨fun row _ => ?_, fun _ _ => hrun'⟩
    exact Discipline.wp_bind.mpr (fencing_idle_running (isIdle_captureToActive row.id userId) hrun')

/-- The image that a party has claimed is marked. This ends its analysis;
if the statement fails, the party is still in charge. -/
theorem fencing_markAnalyzed (receiptId : UUID)
    (hw : Lease.State.Running leaseTime t i time w.leases) :
    (fencingDiscipline settings).wp t (perform (.markAnalyzed i receiptId))
      (fun _ w => w.leases.Closed t i)
      (fun _ w => Lease.State.Running leaseTime t i time w.leases) w := by
  refine fencing_write rfl (fun j hne => hne) hw fun w w' c r hrun hmine hexec => ?_
  obtain ⟨hworld, hclaims⟩ := LoggedWorld.exec_world hexec
  obtain ⟨hr, hresult⟩ | ⟨⟨e, hr⟩, hsame⟩ := World.exec_write (World.exec_cases hworld)
  · refine ⟨fun _ _ => hmine.closed .analyzed ?_ hclaims, fun e he => ?_⟩
    · show (w'.db.images.get? i).map _ = ((w.db.images.get? i).map _).map _
      rw [(Db.markAnalyzed_spec hresult).2.get, if_pos rfl, Option.map_map, Option.map_map]
      rfl
    · exact absurd (hr.symm.trans he) (by simp)
  · refine ⟨fun a ha => absurd (hr.symm.trans ha) (by simp), fun _ _ => ?_⟩
    refine hrun.of_idle (LoggedWorld.exec_later hexec) ?_ hclaims
    show (w'.db.images.get? i).map _ = (w.db.images.get? i).map _
    rw [hsame]

theorem staysFenced_markAnalyzed (receiptId : UUID)
    (hw : Lease.State.Running leaseTime t i time w.leases) :
    StaysFenced settings t (perform (.markAnalyzed i receiptId)) w :=
  Discipline.wp_mono (fencing_markAnalyzed receiptId hw) (fun _ _ _ => trivial) fun _ _ _ => trivial

theorem staysFenced_markFailed (error : String)
    (hw : Lease.State.Running leaseTime t i time w.leases) :
    StaysFenced settings t (perform (.markFailed i error)) w :=
  fencing_write rfl (fun _ hne => hne) hw fun _ _ _ _ _ _ _ =>
    ⟨fun _ _ => trivial, fun _ _ => trivial⟩

theorem staysFenced_markTerminal (status : ImageStatus) (error : String)
    (hw : Lease.State.Running leaseTime t i time w.leases) :
    StaysFenced settings t (perform (.markTerminal i status error)) w :=
  fencing_write rfl (fun _ hne => hne) hw fun _ _ _ _ _ _ _ =>
    ⟨fun _ _ => trivial, fun _ _ => trivial⟩

/-- The photos of an image that has been analysed are moved. -/
theorem staysFenced_movePrimary (path : FilePath) (receiptId : UUID)
    (hw : w.leases.Closed t i) : StaysFenced settings t (movePrimary i path receiptId) w :=
  fencing_moves (calls_movePrimary ⟨rfl, by simp, fun _ _ => trivial⟩
    (fun _ => ⟨rfl, by simp, fun _ hne => hne⟩) fun _ => ⟨rfl, by simp, fun _ hne => hne⟩) hw

theorem staysFenced_moveAll (path : FilePath) (receiptId : UUID) (parts : List ImagePart)
    (hw : w.leases.Closed t i) :
    StaysFenced settings t (do
      movePrimary i path receiptId
      if parts ≠ [] then moveAdditionalImages i receiptId [] parts) w := by
  refine fencing_moves (Program.calls_bind (calls_movePrimary ⟨rfl, by simp, fun _ _ => trivial⟩
    (fun _ => ⟨rfl, by simp, fun _ hne => hne⟩) fun _ => ⟨rfl, by simp, fun _ hne => hne⟩)
    fun _ => ?_) hw
  split
  · exact calls_moveAdditionalImages (fun _ => ⟨rfl, by simp, fun _ _ => trivial⟩)
      (fun _ => ⟨rfl, by simp, fun _ hne => hne⟩) [] parts
  · trivial

theorem staysFenced_storeAnalysis {image : ImageRecord} (path : FilePath) (receipt : Receipt)
    (hw : Lease.State.Running leaseTime t image.id time w.leases) :
    StaysFenced settings t (storeAnalysis image path receipt) w := by
  -- what is known afterwards depends on whether the image was marked
  have hstored : (fencingDiscipline settings).wp t (do
      let row ← persistReceipt receipt (some image.id)
        (if image.bypassReview then .verified else .unverified) image.bypassReview image.userId
      perform (.markAnalyzed image.id row.id)
      return row) (fun _ w => w.leases.Closed t image.id)
      (fun _ w => Lease.State.Running leaseTime t image.id time w.leases) w := by
    refine Discipline.wp_bind.mpr (Discipline.wp_mono (fencing_persistReceipt _ _ _ _ hw) ?_
      fun _ _ h => h)
    exact fun row w' hrun => Discipline.wp_bind.mpr (fencing_markAnalyzed row.id hrun)
  refine Discipline.wp_bind.mpr (fencing_attempt (Discipline.wp_mono hstored
    (fun row w hclosed => ?_) fun e w hrun => ?_))
  · dsimp only
    split
    · exact staysFenced_bind (staysFenced_attempt (staysFenced_moveAll path row.id _ hclosed))
        fun _ _ => trivial
    · trivial
  · exact staysFenced_bind (staysFenced_markFailed _ hrun) fun _ _ => trivial

theorem staysFenced_analyzeFile {image : ImageRecord} (path : FilePath) (modelId : String)
    (hw : Lease.State.Running leaseTime t image.id time w.leases) :
    StaysFenced settings t (analyzeFile image path modelId) w := by
  refine Discipline.wp_bind.mpr (Discipline.wp_mono (fencing_idle_running
    (calls_attempt (Program.calls_perform (by exact ⟨rfl, fun _ => trivial⟩))) hw) ?_
    fun _ _ _ => trivial)
  intro analysis w hrun
  split
  · exact staysFenced_storeAnalysis path _ hrun
  · exact staysFenced_bind (staysFenced_markTerminal _ _ hrun) fun _ _ => trivial
  · exact staysFenced_bind (staysFenced_markTerminal _ _ hrun) fun _ _ => trivial
  · exact staysFenced_bind (staysFenced_markFailed _ hrun) fun _ _ => trivial

theorem staysFenced_analyzeOne {image : ImageRecord} (modelId : String)
    (hw : Lease.State.Running leaseTime t image.id time w.leases) :
    StaysFenced settings t (analyzeOne image modelId) w := by
  unfold analyzeOne
  split
  · exact staysFenced_bind (staysFenced_markAnalyzed _ hw) fun _ _ => trivial
  · refine Discipline.wp_bind.mpr (Discipline.wp_mono (fencing_idle_running
      (Program.calls_perform (by exact ⟨rfl, fun _ => trivial⟩)) hw) ?_ fun _ _ _ => trivial)
    intro existing w hrun
    cases existing with
    | some existing => exact staysFenced_bind (staysFenced_markAnalyzed _ hrun) fun _ _ => trivial
    | none =>
      dsimp only
      split
      · exact staysFenced_bind (staysFenced_markFailed _ hrun) fun _ _ => trivial
      · refine Discipline.wp_bind.mpr (Discipline.wp_mono (fencing_idle_running
          (Program.calls_perform (by exact ⟨rfl, fun _ => trivial⟩)) hrun) ?_ fun _ _ _ => trivial)
        intro found w hrun
        cases found with
        | true => exact staysFenced_analyzeFile _ _ hrun
        | false => exact staysFenced_bind (staysFenced_markFailed _ hrun) fun _ _ => trivial

theorem staysFenced_processImages (models : List String) (modelId : String)
    (images : List ImageRecord) :
    StaysFenced settings t (processImages models modelId images) w := by
  induction images generalizing w with
  | nil => trivial
  | cons image images ih =>
    refine Discipline.wp_bind.mpr (Discipline.wp_mono (fencing_claim image.id) ?_
      fun _ _ _ => trivial)
    intro claimed w hclaimed
    cases claimed with
    | none => exact ih
    | some claimed =>
      obtain ⟨time, hrun⟩ := hclaimed claimed rfl
      exact staysFenced_bind (staysFenced_analyzeOne _ hrun) fun _ _ =>
        staysFenced_bind ih fun _ _ => trivial

/-- An idle handler stays fenced, whatever is known. -/
theorem staysFenced_idle {p : Handler α} (hp : p.Calls IsIdle) : StaysFenced settings t p w :=
  fencing_idle hp (fun _ _ _ _ => trivial) (fun _ _ _ _ _ _ => trivial) trivial

theorem staysFenced_processPending : StaysFenced settings t (processPending settings) w := by
  refine staysFenced_bind (staysFenced_idle
    (calls_attempt (Program.calls_perform (by exact ⟨rfl, fun _ => trivial⟩)))) fun models w => ?_
  split
  · trivial
  · trivial
  · exact staysFenced_bind (staysFenced_idle
      (Program.calls_perform (by exact ⟨rfl, fun _ => trivial⟩)))
      fun _ _ => staysFenced_processImages _ _ _

theorem staysFenced_uploadClaimed (new : NewImage) (first : String) (models : List String)
    {image : ImageRecord} (hw : Lease.State.Running leaseTime t image.id time w.leases) :
    StaysFenced settings t (uploadClaimed settings new first models image) w := by
  refine Discipline.wp_bind.mpr (Discipline.wp_mono (fencing_idle_running
    (calls_attempt (Program.calls_perform (by exact ⟨rfl, fun _ => trivial⟩))) hw) ?_
    fun _ _ _ => trivial)
  intro analysis w hrun
  split
  · exact staysFenced_bind (staysFenced_markTerminal _ _ hrun) fun _ _ => trivial
  · exact staysFenced_bind (staysFenced_markTerminal _ _ hrun) fun _ _ => trivial
  · exact staysFenced_bind (staysFenced_markFailed _ hrun) fun _ _ => trivial
  · refine Discipline.wp_bind.mpr (Discipline.wp_mono (fencing_persistReceipt _ _ _ _ hrun) ?_
      fun _ _ _ => trivial)
    refine fun row w' hrun' => Discipline.wp_bind.mpr (Discipline.wp_mono
      (fencing_markAnalyzed row.id hrun') (fun _ w'' hclosed => ?_) fun _ _ _ => trivial)
    split
    · exact staysFenced_bind (staysFenced_attempt (staysFenced_movePrimary _ row.id hclosed))
        fun _ _ => trivial
    · trivial

/-- A handler that has no part in the analysis stays fenced if its thread
has claimed nothing. -/
theorem staysFenced_apart {p : Handler α} (hp : Apart p) (hw : w.Unclaimed t) :
    StaysFenced settings t p w :=
  Discipline.wp_mono (fencing_apart hp hw) (fun _ _ _ => trivial) fun _ _ _ => trivial

theorem staysFenced_uploadImage (new : NewImage) (hw : w.Unclaimed t) :
    StaysFenced settings t (uploadImage settings new) w := by
  refine Discipline.wp_bind.mpr (Discipline.wp_mono (fencing_apart (apart_discoverModels new) hw)
    (fun models w hw => ?_) fun _ _ _ => trivial)
  refine staysFenced_bind (Discipline.wp_handle.mpr (Discipline.wp_mono
    (fencing_apart (apart_perform id) hw) (fun _ _ _ => trivial) fun e w hw =>
      staysFenced_apart (Program.calls_bind (apart_deleteFiles _) fun _ => trivial) hw)) ?_
  intro image w
  split
  · trivial
  · cases models with
    | nil => trivial
    | cons first models =>
      refine Discipline.wp_bind.mpr (Discipline.wp_mono (fencing_claim image.id) ?_
        fun _ _ _ => trivial)
      intro claimed w hclaimed
      cases claimed with
      | none => trivial
      | some claimed =>
        obtain ⟨time, hrun⟩ := hclaimed claimed rfl
        exact staysFenced_uploadClaimed _ _ _ hrun

/-- **Every request stays fenced**, from its start on. All but two of them
have no part in an analysis; the worker and the upload are gone through
piece by piece. -/
theorem staysFenced_handler (request : Request) (hw : w.Unclaimed t) :
    StaysFenced settings t (request.handler settings) w := by
  cases request with
  | upload new => exact staysFenced_bind (staysFenced_uploadImage new hw) fun _ _ => trivial
  | processPending => exact staysFenced_bind staysFenced_processPending fun _ _ => trivial
  | updateReceipt caller receiptId receipt =>
    exact staysFenced_bind (staysFenced_apart (apart_updateReceipt ..) hw) fun _ _ => trivial
  | verifyReceipt caller receiptId =>
    exact staysFenced_bind (staysFenced_apart (apart_verifyReceipt ..) hw) fun _ _ => trivial
  | deleteReceipt caller receiptId => exact staysFenced_apart (apart_deleteReceipt ..) hw
  | deleteImage caller imageId => exact staysFenced_apart (apart_deleteImage ..) hw

end Handler

/-! ## Every run in time is fenced

If every step of an analysis is in time, none of them finds its image
claimed by somebody else. A party that was superseded may still take
steps, but none that writes. -/

/-- The steps of a run are in time. -/
def TimelyStep (bound : ℤ) (s : Threads Op.Ret Exn LoggedWorld) :
    Threads.Action Request Choice → Prop
  | .start _ => True
  | .advance t choice => ∀ op k, s.threads[t]? = some (.call op k) →
    Timely bound t s.shared op choice

/-- The runs of any requests in which every party writes at most `bound`
after its claim. -/
abbrev TimelyRun (bound : ℤ) (settings : Settings) (files : Files) (clock : Timestamp)
    (s : Threads Op.Ret Exn LoggedWorld) : Prop :=
  Transition.Run (LoggedWorld.step settings) (TimelyStep bound) ⟨.initial files clock, []⟩ s

omit [CaseFolding] in
theorem LoggedWorld.inv_initial (files : Files) (clock : Timestamp) :
    (LoggedWorld.initial files clock).leases.Inv :=
  ⟨fun _ h => absurd rfl h, fun _ h => absurd h (by simp [leases, initial])⟩

/-- A step of a run in time is fenced. The discipline makes it so for
every thread, and what it asks of a step is that the claim behind it has
not run out. -/
theorem TimelyRun.fenced {settings : Settings} {files : Files} {clock : Timestamp}
    {s s' : Threads Op.Ret Exn LoggedWorld} {t : ℕ} {choice : Choice} {op : Op}
    {k : Except Exn op.Ret → Handler Unit} (run : TimelyRun leaseTime settings files clock s)
    (hthread : s.threads[t]? = some (.call op k))
    (htimely : TimelyStep leaseTime s (.advance t choice))
    (hstep : LoggedWorld.step settings s (.advance t choice) = some s') :
    Fenced t s.shared op s'.shared := by
  have hsafe : (fencingDiscipline settings).AllSafe s := by
    refine Discipline.sound_of_new (fun t (w : LoggedWorld) => w.Unclaimed t)
      (fun t w w' (hrely : w.Relies t w') => hrely.unclaimed)
      (fun request t w _ hw => Handler.staysFenced_handler request hw)
      (LoggedWorld.inv_initial files clock) (fun _ _ => rfl) (run.mono fun s a h => ?_)
    cases a with
    | start request => trivial
    | advance t choice => exact h
  have hguard : (fencingDiscipline settings).stepGuard s
      (.advance t choice : Threads.Action Request Choice) := htimely
  obtain ⟨op', k', hthread', hok⟩ := hsafe.ok hguard hstep
  obtain ⟨rfl, -⟩ := Program.call.inj (Option.some.inj (hthread.symm.trans hthread'))
  exact hok

end Fencing

/-! ## The time that a party has

The bound is exact. With any longer time there is a run in which a party
persists its receipt after another has claimed the image, and overwrites
what that other has stored. -/

/-- Every step of every run is fenced in which parties write at most
`bound` after their claims. It is a property of the bound alone, as it is
about all settings, all files and all requests. So one may ask for which
bounds it holds. -/
def FencedWithin (bound : ℤ) : Prop :=
  ∀ [CaseFolding] settings files clock s t choice op k s',
    TimelyRun bound settings files clock s → s.threads[t]? = some (.call op k) →
    TimelyStep bound s (.advance t choice) →
    LoggedWorld.step settings s (.advance t choice) = some s' → Fenced t s.shared op s'.shared

section LateWrite

local instance asciiFoldingOfLate : CaseFolding := asciiFolding

instance (bound : ℤ) (s : Threads Op.Ret Exn LoggedWorld) (a : Threads.Action Request Choice) :
    Decidable (TimelyStep bound s a) :=
  match a with
  | .start _ => isTrue trivial
  | .advance t choice =>
    match h : s.threads[t]? with
    | some (.call op _) =>
      decidable_of_iff (Timely bound t s.shared op choice)
        ⟨fun htimely op' k' h' => by
          obtain ⟨rfl, -⟩ := Program.call.inj (Option.some.inj (h.symm.trans h'))
          exact htimely, fun hstep => hstep op _ h⟩
    | some (.done _) => isTrue fun op k h' => absurd (h.symm.trans h') (by simp)
    | some (.raise _) => isTrue fun op k h' => absurd (h.symm.trans h') (by simp)
    | none => isTrue fun op k h' => absurd (h.symm.trans h') (by simp)

/-- The operation that a thread performs next. -/
def nextOp (s : Threads Op.Ret Exn LoggedWorld) (t : ℕ) : Option Op :=
  match s.threads[t]? with
  | some (.call op _) => some op
  | _ => none

/-- A receipt is persisted next. -/
def Op.isPersist : Op → Bool
  | .persistReceipt _ _ _ _ _ => true
  | _ => false

/-- When the claim of the upload has run out. -/
def tooLate : Timestamp := 4 + leaseTime + 1

/-- An upload claims its photo, and is late: the worker claims the photo
after fifteen minutes and stores the receipt, and the user verifies it.
All of this is in time, and only the next step is late. -/
def lateSteps : List (Threads.Action Request Choice) :=
  [.start (.upload photo),
    .advance 0 (smoothly 1 []), .advance 0 (smoothly 2 []), .advance 0 (smoothly 3 [1]),
    .advance 0 (smoothly 4 []), .advance 0 (smoothly 5 []), .start .processPending]
    ++ [[], [], [], [], [], [], [2], [], []].map (fun fresh => .advance 1 (smoothly tooLate fresh))
    ++ [.start (.verifyReceipt ⟨1, false⟩ 2)]
    ++ List.replicate 5 (.advance 2 (smoothly tooLate []))

/-- The upload goes on. -/
def lateStep : Threads.Action Request Choice := .advance 0 (smoothly tooLate [3])

set_option maxRecDepth 10000 in
/-- The receipt that the user has verified is replaced, one microsecond
after the claim of the upload has run out. -/
theorem late_overwrites :
    ∃ s, TimelyRun (leaseTime + 1) plainSettings photoFiles 0 s
      ∧ TimelyStep (leaseTime + 1) s lateStep ∧ (nextOp s 0).any Op.isPersist = true
      ∧ s.shared.leases.own 0 1 = some ⟨1, 0, 4⟩
      ∧ s.shared.leases.last 1 = some ⟨1, 1, tooLate⟩
      ∧ ((s.shared.db.receipts.get? 2).any fun r => r.status = .verified ∧ r.imageId = some 1)
      ∧ (LoggedWorld.step plainSettings s lateStep).any fun s' =>
        (s'.shared.db.receipts.get? 2).any fun r => r.status = .unverified := by
  exact Transition.Run.of_exec lateSteps (by decide +kernel)

/-- The late step is not fenced. It comes one microsecond after the claim
has run out, so that the bound is exact. -/
theorem late_not_fenced :
    ∃ s op k s', TimelyRun (leaseTime + 1) plainSettings photoFiles 0 s
      ∧ TimelyStep (leaseTime + 1) s lateStep ∧ s.threads[0]? = some (.call op k)
      ∧ LoggedWorld.step plainSettings s lateStep = some s'
      ∧ ¬ Fenced 0 s.shared op s'.shared := by
  obtain ⟨s, run, htimely, hnext, hown, hlast, hverified, hlate⟩ := late_overwrites
  obtain ⟨s', hstep, hunverified⟩ := (Option.any_eq_true _ _).mp hlate
  obtain ⟨op, k, -, -, hthread, -⟩ := Threads.step_advance hstep
  have hpersist : op.isPersist = true := by
    unfold nextOp at hnext
    rw [hthread] at hnext
    exact hnext
  refine ⟨s, op, k, s', run, htimely, hthread, hstep, fun hfenced => ?_⟩
  have hsuperseded : s.shared.leases.Superseded 0 1 :=
    ⟨by rw [hown]; rfl, _, hlast, by decide⟩
  have hsame : s.shared.db.SameSubmission 1 s'.shared.db := by
    refine hfenced.superseded 1 hsuperseded ?_
    rintro rfl
    exact absurd hpersist (by decide)
  obtain ⟨r, hr, hrow⟩ := (Option.any_eq_true _ _).mp hverified
  obtain ⟨r', hr', hrow'⟩ := (Option.any_eq_true _ _).mp hunverified
  obtain ⟨hstatus, himage⟩ := of_decide_eq_true hrow
  have hid : r.id = 2 := (Table.get?_eq_some_iff.mp hr).2
  have hkept := (hsame.receipts r himage).mpr (by rw [hid]; exact hr)
  rw [hid, hr'] at hkept
  obtain rfl := Option.some.inj hkept
  exact absurd (hstatus.symm.trans (of_decide_eq_true hrow')) (by simp)

/-- **A verified receipt is replaced by a party that is no longer in
charge.** -/
theorem lateUpload_not_fenced :
    ∃ s op k s', Transition.Reachable (LoggedWorld.step plainSettings)
        ⟨.initial photoFiles 0, []⟩ s
      ∧ s.threads[0]? = some (.call op k)
      ∧ LoggedWorld.step plainSettings s lateStep = some s'
      ∧ ¬ Fenced 0 s.shared op s'.shared := by
  obtain ⟨s, op, k, s', run, -, hthread, hstep, hnot⟩ := late_not_fenced
  exact ⟨s, op, k, s', run.mono fun _ _ _ => trivial, hthread, hstep, hnot⟩

end LateWrite

theorem TimelyStep.mono [CaseFolding] {bound bound' : ℤ} (h : bound ≤ bound')
    {s : Threads Op.Ret Exn LoggedWorld} {a : Threads.Action Request Choice}
    (hstep : TimelyStep bound s a) : TimelyStep bound' s a := by
  cases a with
  | start request => trivial
  | advance t choice =>
    exact fun op k hthread i hi claim hclaim =>
      (hstep op k hthread i hi claim hclaim).trans (Int.add_le_add_left h claim.time)

/-- **Analyses are fenced exactly by the time of the lease**: when parties
write at most `bound` after their claims, no superseded party changes an
image or its receipt and no analyzed image stops being one, if `bound` is
at most fifteen minutes; and for every longer bound there is a run in
which that happens. -/
theorem fenced_iff (bound : ℤ) : FencedWithin bound ↔ bound ≤ leaseTime := by
  constructor
  · intro hfenced
    by_contra hlong
    have hbound : leaseTime + 1 ≤ bound := Int.add_one_le_of_lt (not_le.mp hlong)
    obtain ⟨s, op, k, s', run, htimely, hthread, hstep, hnot⟩ := late_not_fenced
    let : CaseFolding := asciiFolding
    exact hnot (hfenced _ _ _ s 0 _ op k s' (run.mono fun _ _ => TimelyStep.mono hbound) hthread
      (htimely.mono hbound) hstep)
  · intro hshort _ settings files clock s t choice op k s' run hthread htimely hstep
    exact TimelyRun.fenced (run.mono fun _ _ => TimelyStep.mono hshort) hthread
      (htimely.mono hshort) hstep

end VisionBill
