import VisionBill.Handlers
import VisionBill.Creation
import VisionBill.BenchmarkScoring

/-!
# The photos that a benchmark examines

What `_execute` and `reevaluate` hand to the provider, and what
`_analyze_one` does. The receipt detail has one path, that of the primary
photo, and the benchmark hands over that one. The scheduler hands over all
photos of the image. So a receipt that was photographed in several parts
is examined by its first part alone, and compared with what was read from
all of them.

## What is called

The question is not what these functions return but which call of the
provider they make. A program is a tree of calls here, and `Performs` says
that some run of it gets as far as calling an operation. For the benchmark
that is decided by what it reads, so the calls it makes can be said
exactly (`examines_iff`, `reevaluates_iff`): one call, with the one path
that the details of the receipt have, if the receipt can be expected and
the photo is there. For the scheduler it is the list of all photos, the
primary one first (`analyzes_iff`).

The two are programs of different systems, since a benchmark never writes.
They are compared by the paths alone. That the photos of the image are
still where they were when it was analysed is a hypothesis; what the paths
become when a receipt is verified is a matter of other modules.
-/

namespace VisionBill

section BenchmarkPhotos

variable [CaseFolding]

/-! ## What a benchmark calls

The worker and the reevaluation read the expected receipt with the path of
its photo, look whether the file is there, and hand it to the provider.
The scheduler, in contrast, hands over all photos of a submission. -/

/-- `AnalysisResult`. -/
structure AnalysisResult where
  receipt : Receipt
  attempts : ℤ
  elapsedMs : Float

/-- What the benchmark service raises. Only a `ValueError` and a missing
file end a task for good, so what is raised is told apart. -/
inductive BenchmarkExn
  /-- What the expected receipt raises. -/
  | expected (e : CreationError)
  /-- `FileNotFoundError`. -/
  | fileNotFound (message : String)
  /-- What `score_receipts` raises. -/
  | score (e : PyError)
  /-- Any other exception. -/
  | other (message : String)

/-- An atomic operation of the benchmark service. It reads the database
and the files, and calls the provider. -/
inductive BenchmarkOp
  | getRun (runId : ℕ)
  | timeout (runId : ℕ)
  | getReceiptWithDetails (receiptId : UUID)
  | isFile (path : FilePath)
  | analyse (modelId : String) (paths : List FilePath)

/-- What an operation returns. -/
def BenchmarkOp.Ret : BenchmarkOp → Type
  | .getRun _ => Option RunRow
  | .timeout _ => ℤ
  | .getReceiptWithDetails _ => Option ReceiptWithDetails
  | .isFile _ => Bool
  | .analyse _ _ => AnalysisResult

/-- A part of the benchmark service. -/
abbrev BenchmarkProgram (α : Type) := Program BenchmarkOp.Ret BenchmarkExn α

/-- `_expected_receipt_and_path`, once the details have been read. The
path is that of the primary photo: the details have no other one. -/
def expectedReceiptAndPath (details : Option ReceiptWithDetails) :
    Except CreationError (Receipt × Option FilePath) :=
  match details with
  | none => .error (.valueError "Benchmark data must be a verified receipt")
  | some details =>
    if details.receipt.verified then
      ((Receipt.modelValidate details.payload).mapError .invalid).map (·, details.imagePath)
    else .error (.valueError "Benchmark data must be a verified receipt")

/-- The expected receipt of a new run is the one that is examined later.
The source reads it in two functions, and with the path the second
time. -/
theorem Db.expectedReceipt_eq (db : Db) (receiptId : UUID) :
    db.expectedReceipt receiptId
      = (expectedReceiptAndPath (db.getReceiptWithDetails everyone receiptId)).map Prod.fst := by
  unfold Db.expectedReceipt
  cases db.getReceiptWithDetails everyone receiptId with
  | none => rfl
  | some details =>
    unfold expectedReceiptAndPath
    dsimp only
    split
    · cases Receipt.modelValidate details.payload <;> rfl
    · rfl

namespace BenchmarkService

/-- A single operation. -/
abbrev perform (op : BenchmarkOp) : BenchmarkProgram op.Ret := Program.perform op

/-- What has been computed, or raised. -/
def lift {ε α : Type} (wrap : ε → BenchmarkExn) : Except ε α → BenchmarkProgram α
  | .ok a => pure a
  | .error e => throw (wrap e)

/-- The photo of an expected receipt, which has to be there. An empty path
counts as none, and a path to which no file belongs as well. -/
def requirePhoto (message : String) (expected : Receipt × Option FilePath) :
    BenchmarkProgram (Receipt × FilePath) :=
  match Handler.givenPath expected.2 with
  | none => throw (.fileNotFound message)
  | some path => do
    let found : Bool ← perform (.isFile path)
    if found then return (expected.1, path) else throw (.fileNotFound message)

/-- The expected receipt and its photo. -/
def expectedWithPhoto (message : String) (receiptId : UUID) :
    BenchmarkProgram (Receipt × FilePath) := do
  let details : Option ReceiptWithDetails ← perform (.getReceiptWithDetails receiptId)
  let expected ← lift .expected (expectedReceiptAndPath details)
  requirePhoto message expected

/-- The photo is analysed, and the result is scored. -/
def analyseAndScore (modelId : String) (expected : Receipt × FilePath) :
    BenchmarkProgram (Scores × AnalysisResult) := do
  let result : AnalysisResult ← perform (.analyse modelId [expected.2])
  let scores ← lift .score (scoreReceipts expected.1 result.receipt)
  return (scores, result)

/-- The examination of a task by `_execute`: what is expected, the photo,
the analysis and its score. -/
def examine (task : TaskRow) (run : RunRow) : BenchmarkProgram (Scores × AnalysisResult) := do
  let expected ← expectedWithPhoto "Image missing" task.receiptId
  let _ ← perform (.timeout run.id)
  analyseAndScore task.modelId expected

/-- `reevaluate`, up to the texts that are made of its result. -/
def reevaluate (runId : ℕ) (receiptId : UUID) (modelId : String) :
    BenchmarkProgram (Scores × AnalysisResult) := do
  let run : Option RunRow ← perform (.getRun runId)
  match run.filter (fun run =>
    receiptId ∈ run.request.receiptIds ∧ modelId ∈ run.request.modelIds) with
  | none => throw (.expected (.valueError "Receipt/model is not part of this benchmark run"))
  | some _ => do
    let expected ← expectedWithPhoto "Verified receipt image is unavailable" receiptId
    analyseAndScore modelId expected

end BenchmarkService

/-! ## What is read -/

/-- What the benchmark service reads. It only reads, so that no operation
of its programs changes the world. -/
structure BenchmarkWorld where
  db : Db
  files : Files
  runs : List RunRow

/-- What an operation does not control. Neither the provider nor the
connection to the database is part of the world. -/
structure BenchmarkChoice where
  /-- What the provider answers. -/
  analysis : Except BenchmarkExn AnalysisResult
  /-- An exception by which the operation fails. -/
  failure : Option BenchmarkExn

namespace BenchmarkWorld

/-- The run with an id. -/
def run? (w : BenchmarkWorld) (runId : ℕ) : Option RunRow :=
  w.runs.find? fun run => run.id = runId

/-- An operation that does not fail. Only the analysis depends on the
choice, all others on what is stored. -/
def perform (w : BenchmarkWorld) (c : BenchmarkChoice) :
    (op : BenchmarkOp) → Except BenchmarkExn op.Ret
  | .getRun runId => .ok (w.run? runId)
  | .timeout runId =>
    match w.run? runId with
    | some run => .ok run.request.timeout
    | none => .error (.other "int() argument must be a number")
  | .getReceiptWithDetails receiptId => .ok (w.db.getReceiptWithDetails everyone receiptId)
  | .isFile path => .ok (w.files.exists? path)
  | .analyse _ _ => c.analysis

/-- An operation with a choice, by which it may fail. Nothing is
written. -/
def exec (w : BenchmarkWorld) (op : BenchmarkOp) (c : BenchmarkChoice) :
    Option (BenchmarkWorld × Except BenchmarkExn op.Ret) :=
  match c.failure with
  | some e => some (w, .error e)
  | none => some (w, w.perform c op)

/-- A choice without a failure. -/
def calm : BenchmarkChoice := ⟨.error (.other "not asked"), none⟩

variable {w w' : BenchmarkWorld} {op o : BenchmarkOp} {α : Type}

theorem exec_ok {c : BenchmarkChoice} {a : op.Ret} (h : w.exec op c = some (w', .ok a)) :
    w' = w ∧ w.perform c op = .ok a := by
  unfold exec at h
  split at h
  · exact absurd (Prod.mk.inj (Option.some.inj h)).2 (by simp)
  · obtain ⟨rfl, hperform⟩ := Prod.mk.inj (Option.some.inj h)
    exact ⟨rfl, hperform⟩

/-- What is called after an operation whose answer the world determines.
This turns a statement about all runs of a program into one about its only
continuation. -/
theorem performs_call_iff {k : Except BenchmarkExn op.Ret → BenchmarkProgram α} {a : op.Ret}
    (hne : op ≠ o) (ha : w.perform calm op = .ok a)
    (hsame : ∀ c, w.perform c op = w.perform calm op)
    (hraise : ∀ e, ¬ Program.Performs exec (k (.error e)) w o) :
    Program.Performs exec (.call op k) w o ↔ Program.Performs exec (k (.ok a)) w o := by
  constructor
  · rintro (hop | ⟨c, w', r, hexec, hrest⟩)
    · exact absurd hop hne
    · cases r with
      | ok b =>
        obtain ⟨rfl, hperform⟩ := exec_ok hexec
        obtain rfl := Except.ok.inj (ha.symm.trans ((hsame c).symm.trans hperform))
        exact hrest
      | error e =>
        have hw : w' = w := by
          unfold exec at hexec
          split at hexec <;> exact (Prod.mk.inj (Option.some.inj hexec)).1.symm
        exact absurd (hw ▸ hrest) (hraise e)
  · intro h
    exact .inr ⟨calm, w, .ok a, by rw [← ha]; rfl, h⟩

end BenchmarkWorld

/-! ## What is handed to the provider

A call of the provider is found in the trace of a run. It is shown for
both callers that there is such a call exactly if the expected receipt and
the photo are found, and that it is made with this one photo. -/

namespace BenchmarkService

/-- `_execute` hands photos to the provider. The other arguments of the
call are those of the task and its run. A call is found in the trace of a
run, whatever the choices are, so it is said that it can come about and
not that it must. -/
def Examines (w : BenchmarkWorld) (task : TaskRow) (run : RunRow) (paths : List FilePath) : Prop :=
  Program.Performs BenchmarkWorld.exec (examine task run) w (.analyse task.modelId paths)

/-- `reevaluate` hands photos to the provider. It is said in the same way
as of the worker, since the two are to be compared. -/
def Reevaluates (w : BenchmarkWorld) (runId : ℕ) (receiptId : UUID) (modelId : String)
    (paths : List FilePath) : Prop :=
  Program.Performs BenchmarkWorld.exec (reevaluate runId receiptId modelId) w
    (.analyse modelId paths)

/-- The expected receipt and the photo of a verified receipt. Both are
there exactly if a benchmark can be made on the receipt at all. -/
structure Finds (w : BenchmarkWorld) (receiptId : UUID) (expected : Receipt) (path : FilePath) :
    Prop where
  expected : expectedReceiptAndPath (w.db.getReceiptWithDetails everyone receiptId)
    = .ok (expected, some path)
  given : path ≠ ""
  found : w.files.exists? path = true

variable {w : BenchmarkWorld} {receiptId : UUID} {modelId : String} {paths : List FilePath}

/-- What follows the search for a photo is called if it is there. Where it
is not, an exception is raised, and no photo is handed over. -/
theorem performs_requirePhoto {α : Type} {message : String} {expected : Receipt × Option FilePath}
    {f : Receipt × FilePath → BenchmarkProgram α} :
    Program.Performs BenchmarkWorld.exec (requirePhoto message expected >>= f) w
        (.analyse modelId paths)
      ↔ ∃ path, expected.2 = some path ∧ path ≠ "" ∧ w.files.exists? path = true
        ∧ Program.Performs BenchmarkWorld.exec (f (expected.1, path)) w
          (.analyse modelId paths) := by
  unfold requirePhoto
  split
  · next hnone =>
    refine ⟨fun h => False.elim h, ?_⟩
    rintro ⟨path, hpath, hne, -⟩
    exact absurd (Option.filter_eq_none_iff.mp hnone path hpath) (by simpa using hne)
  · next path hgiven =>
    obtain ⟨hpath, hne⟩ := Option.filter_eq_some_iff.mp hgiven
    refine (BenchmarkWorld.performs_call_iff (by simp) rfl (fun c => rfl) ?_).trans ?_
    · exact fun e h => False.elim h
    -- the path is there; now the file
    show Program.Performs BenchmarkWorld.exec ((if w.files.exists? path then
      pure (expected.1, path) else throw (.fileNotFound message)) >>= f) w _ ↔ _
    split
    · next hfound =>
      refine ⟨fun h => ⟨path, hpath, of_decide_eq_true hne, hfound, h⟩, ?_⟩
      rintro ⟨path', hpath', -, -, h⟩
      obtain rfl := Option.some.inj (hpath.symm.trans hpath')
      exact h
    · next hfound =>
      refine ⟨fun h => False.elim h, ?_⟩
      rintro ⟨path', hpath', -, hfound', -⟩
      obtain rfl := Option.some.inj (hpath.symm.trans hpath')
      exact absurd hfound' hfound

/-- What follows the search for the expected receipt and its photo is
called if both are found. -/
theorem performs_expectedWithPhoto {α : Type} {message : String}
    {f : Receipt × FilePath → BenchmarkProgram α} :
    Program.Performs BenchmarkWorld.exec (expectedWithPhoto message receiptId >>= f) w
        (.analyse modelId paths)
      ↔ ∃ expected path, Finds w receiptId expected path
        ∧ Program.Performs BenchmarkWorld.exec (f (expected, path)) w (.analyse modelId paths) := by
  refine (BenchmarkWorld.performs_call_iff (by simp) rfl (fun c => rfl) ?_).trans ?_
  · exact fun e h => False.elim h
  show Program.Performs BenchmarkWorld.exec ((lift .expected
      (expectedReceiptAndPath (w.db.getReceiptWithDetails everyone receiptId))
    >>= requirePhoto message) >>= f) w _ ↔ _
  cases hexpected : expectedReceiptAndPath (w.db.getReceiptWithDetails everyone receiptId) with
  | error e =>
    refine ⟨fun h => False.elim h, ?_⟩
    rintro ⟨expected, path, hfinds, -⟩
    exact absurd (hexpected.symm.trans hfinds.expected) (by simp)
  | ok expected =>
    refine performs_requirePhoto.trans ⟨?_, ?_⟩
    · rintro ⟨path, hpath, hne, hfound, h⟩
      exact ⟨expected.1, path, ⟨by rw [hexpected, ← hpath], hne, hfound⟩, h⟩
    · rintro ⟨e, path, hfinds, h⟩
      obtain rfl := Except.ok.inj (hexpected.symm.trans hfinds.expected)
      exact ⟨path, rfl, hfinds.given, hfinds.found, h⟩

/-- One photo is analysed. The provider is called with a list of one path,
whatever the image of the receipt has besides. -/
theorem performs_analyseAndScore {expected : Receipt × FilePath} :
    Program.Performs BenchmarkWorld.exec (analyseAndScore modelId expected) w
        (.analyse modelId paths)
      ↔ paths = [expected.2] := by
  constructor
  · rintro (hop | ⟨c, w', r, -, hrest⟩)
    · exact (BenchmarkOp.analyse.inj hop).2.symm
    · cases r with
      | error e => exact hrest.elim
      | ok result =>
        -- scoring calls nothing
        have hscore : Program.Performs BenchmarkWorld.exec
            (lift .score (scoreReceipts expected.1 result.receipt) >>= fun scores =>
              pure (scores, result)) w' (.analyse modelId paths) := hrest
        cases hs : scoreReceipts expected.1 result.receipt with
        | error e =>
          rw [hs] at hscore
          exact hscore.elim
        | ok scores =>
          rw [hs] at hscore
          exact hscore.elim
  · rintro rfl
    exact .inl rfl

/-- What `_execute` hands over is the one photo that it finds. The
operations in between only read the timeout of the run, and so the path is
still the same. -/
theorem examines_iff {task : TaskRow} {run : RunRow} (hrun : w.run? run.id = some run) :
    Examines w task run paths
      ↔ ∃ expected path, Finds w task.receiptId expected path ∧ paths = [path] := by
  have hafter : ∀ expected path,
      Program.Performs BenchmarkWorld.exec (perform (.timeout run.id) >>= fun _ =>
          analyseAndScore task.modelId (expected, path)) w (.analyse task.modelId paths)
        ↔ paths = [path] := by
    intro expected path
    have htimeout : w.perform BenchmarkWorld.calm (.timeout run.id) = .ok run.request.timeout := by
      unfold BenchmarkWorld.perform
      dsimp only
      rw [hrun]
    refine (BenchmarkWorld.performs_call_iff (by simp) htimeout (fun c => rfl) ?_).trans
      performs_analyseAndScore
    exact fun e h => False.elim h
  unfold Examines examine
  rw [performs_expectedWithPhoto]
  simp only [hafter]

/-- What `reevaluate` hands over is that photo, too. It finds it in the
same way, after it has looked for the receipt and the model in the request
of the run. -/
theorem reevaluates_iff {run : RunRow} (hrun : w.run? run.id = some run)
    (hreceipt : receiptId ∈ run.request.receiptIds) (hmodel : modelId ∈ run.request.modelIds) :
    Reevaluates w run.id receiptId modelId paths
      ↔ ∃ expected path, Finds w receiptId expected path ∧ paths = [path] := by
  have hfilter : (some run).filter (fun run => receiptId ∈ run.request.receiptIds
      ∧ modelId ∈ run.request.modelIds) = some run :=
    Option.filter_eq_some_iff.mpr ⟨rfl, decide_eq_true ⟨hreceipt, hmodel⟩⟩
  have hread : w.perform BenchmarkWorld.calm (.getRun run.id) = .ok (some run) := by
    show Except.ok (w.run? run.id) = _
    rw [hrun]
    rfl
  refine (BenchmarkWorld.performs_call_iff (by simp) hread (fun c => rfl) ?_).trans ?_
  · exact fun e h => False.elim h
  show Program.Performs BenchmarkWorld.exec (match (some run).filter (fun run =>
      receiptId ∈ run.request.receiptIds ∧ modelId ∈ run.request.modelIds) with
    | none => throw (.expected (.valueError "Receipt/model is not part of this benchmark run"))
    | some _ => expectedWithPhoto "Verified receipt image is unavailable" receiptId
      >>= analyseAndScore modelId) w _ ↔ _
  rw [hfilter]
  dsimp only
  rw [performs_expectedWithPhoto]
  simp only [performs_analyseAndScore]

end BenchmarkService

/-! ## What the scheduler hands over

The same question is asked of the analysis in which the receipt was made.
It hands over the primary photo and the additional ones, in their
order. -/

namespace Handler

/-- The paths of the photos of an image, in capture order. -/
def photos (image : ImageRecord) : List FilePath := image.parts.map ImagePart.imagePath

/-- `_analyze_one` hands photos to the provider. It is said of the program
and of the operation that it performs, since nothing of the photos is left
when it returns. -/
def Analyzes (settings : Settings) (w : World) (image : ImageRecord) (modelId : String)
    (paths : List FilePath) : Prop :=
  Program.Performs (World.exec settings) (analyzeOne image modelId) w (.analyse modelId paths)

omit [CaseFolding] in
/-- A single photo is handed over as the path that it is. -/
theorem photos_eq {image : ImageRecord} {path : FilePath} (hpath : image.imagePath = some path) :
    (if image.additionalImages ≠ [] then photos image else [path]) = photos image := by
  split
  · rfl
  · next hnone =>
    unfold photos ImageRecord.parts
    rw [not_not.mp hnone, hpath]
    rfl

section Calls

variable {P : Op → Prop} {image : ImageRecord} {path : FilePath} {modelId : String}

/-- The end of an analysis has no call of the provider, whichever of its
exceptions are raised. So the photos that are handed over are those of its
beginning. -/
theorem calls_storeAnalysis {receipt : Receipt}
    (hP : ∀ op, (∀ m paths, op ≠ .analyse m paths) → P op) :
    (storeAnalysis image path receipt).Calls P := by
  have hperform : ∀ op, (∀ m paths, op ≠ .analyse m paths) → (perform op).Calls P :=
    fun op hop => Program.calls_perform (hP op hop)
  refine Program.calls_bind (calls_attempt (Program.calls_bind (Program.calls_bind
    (hperform _ (by simp)) fun row => Program.calls_bind ?_ fun _ => trivial) fun row =>
      Program.calls_bind (hperform _ (by simp)) fun _ => trivial)) fun stored => ?_
  · exact calls_captureToActive (fun _ => hP _ (by simp)) fun _ => hP _ (by simp)
  · cases stored with
    | error e => exact Program.calls_bind (hperform _ (by simp)) fun _ => trivial
    | ok row =>
      dsimp only
      split
      · refine Program.calls_bind (calls_attempt (Program.calls_bind
          (calls_movePrimary (hP _ (by simp)) (fun _ => hP _ (by simp)) fun _ => hP _ (by simp))
          fun _ => ?_)) fun _ => trivial
        split
        · exact calls_moveAdditionalImages (fun _ => hP _ (by simp)) (fun _ => hP _ (by simp)) _ _
        · trivial
      · trivial

/-- An analysis hands over the photos of its image. There is one call of
the provider in it, and it is made before anything is stored. -/
theorem calls_analyzeFile (hpath : image.imagePath = some path)
    (hP : ∀ op, (∀ m paths, op ≠ .analyse m paths) → P op)
    (hanalyse : P (.analyse modelId (photos image))) :
    (analyzeFile image path modelId).Calls P := by
  unfold analyzeFile
  dsimp only
  refine Program.calls_bind (calls_attempt (Program.calls_perform ?_)) fun analysis => ?_
  · rw [show (if image.additionalImages ≠ [] then image.parts.map ImagePart.imagePath else [path])
      = photos image from photos_eq hpath]
    exact hanalyse
  · have hrecord : ∀ (op : Op) (result : PendingImageResult),
        (∀ m paths, op ≠ .analyse m paths) →
          (perform op >>= fun _ => pure result : Handler PendingImageResult).Calls P :=
      fun op result hop => Program.calls_bind (Program.calls_perform (hP op hop)) fun _ => trivial
    split
    · exact calls_storeAnalysis hP
    · exact hrecord _ _ (by simp)
    · exact hrecord _ _ (by simp)
    · exact hrecord _ _ (by simp)

/-- `_analyze_one` hands over nothing else. -/
theorem calls_analyzeOne (hP : ∀ op, (∀ m paths, op ≠ .analyse m paths) → P op)
    (hanalyse : P (.analyse modelId (photos image))) : (analyzeOne image modelId).Calls P := by
  have hrecord : ∀ (op : Op) (result : PendingImageResult),
      (∀ m paths, op ≠ .analyse m paths) →
        (perform op >>= fun _ => pure result : Handler PendingImageResult).Calls P :=
    fun op result hop => Program.calls_bind (Program.calls_perform (hP op hop)) fun _ => trivial
  unfold analyzeOne
  split
  · exact hrecord _ _ (by simp)
  · refine Program.calls_bind (Program.calls_perform (hP _ (by simp))) fun existing => ?_
    cases existing with
    | some existing => exact hrecord _ _ (by simp)
    | none =>
      dsimp only
      split
      · exact hrecord _ _ (by simp)
      · next path hgiven =>
        refine Program.calls_bind (Program.calls_perform (hP _ (by simp))) fun found => ?_
        split
        · exact calls_analyzeFile (Option.filter_eq_some_iff.mp hgiven).1 hP hanalyse
        · exact hrecord _ _ (by simp)

end Calls

/-- A choice that changes nothing. -/
def calm (w : World) : Choice where
  now := w.clock
  fresh := []
  hex := ""
  connected := true
  models := []
  analysis := .error (.other "not asked")
  benchmarked := false
  failure := none

/-- **The scheduler hands over all photos**, in capture order, of an image
that has no receipt yet. So what a benchmark has to be compared with is
the list `photos image`, and not the path of its first photo. -/
theorem analyzes_iff {settings : Settings} {w : World} {image : ImageRecord} {modelId : String}
    {paths : List FilePath} {path : FilePath} (hnew : image.receiptId = none)
    (hfree : w.db.receiptOfImage? image.id = none) (hpath : image.imagePath = some path)
    (hne : path ≠ "") (hfound : w.files.exists? path = true) :
    Analyzes settings w image modelId paths ↔ paths = photos image := by
  constructor
  · intro h
    have hcalls : (analyzeOne image modelId).Calls fun op =>
        ∀ m paths, op = .analyse m paths → paths = photos image := by
      refine calls_analyzeOne (fun op hop m paths heq => absurd heq (hop m paths)) ?_
      intro m paths heq
      exact (Op.analyse.inj heq).2.symm
    exact h.of_calls hcalls modelId paths rfl
  · rintro rfl
    have hgiven : givenPath image.imagePath = some path :=
      Option.filter_eq_some_iff.mpr ⟨hpath, decide_eq_true hne⟩
    -- a run in which nothing fails and the photo is found
    have hpossible : ∀ (w : World) (op : Op), op.newIds = 0 →
        (∀ path receiptId, op ≠ .storePermImage path receiptId) → w.Possible settings op (calm w) := by
      intro w op hids hstore
      refine ⟨le_refl _, hids.symm, List.nodup_nil, fun id hid => absurd hid List.not_mem_nil, ?_⟩
      cases op with
      | storePermImage path receiptId => exact absurd rfl (hstore path receiptId)
      | _ => trivial
    have hexisting : World.exec settings w (.getReceiptByImageId image.id) (calm w)
        = some (w.started (calm w), .ok none) := by
      unfold World.exec
      rw [if_pos (hpossible w _ rfl (by simp)), ← hfree]
      rfl
    have hexists : World.exec settings (w.started (calm w)) (.fileExists path)
        (calm (w.started (calm w)))
        = some ((w.started (calm w)).started (calm (w.started (calm w))), .ok true) := by
      unfold World.exec
      rw [if_pos (hpossible _ _ rfl (by simp)), ← hfound]
      rfl
    unfold Analyzes analyzeOne
    rw [hnew]
    refine Program.performs_after hexisting ?_
    dsimp only
    rw [hgiven]
    refine Program.performs_after hexists ?_
    show Program.Performs _ (analyzeFile image path modelId) _ _
    unfold analyzeFile
    dsimp only
    rw [show (if image.additionalImages ≠ [] then image.parts.map ImagePart.imagePath else [path])
      = photos image from photos_eq hpath]
    exact Program.Performs.bind (Program.Performs.handle
      (Program.Performs.bind Program.performs_perform _) _) _

end Handler

/-! ## The theorem -/

omit [CaseFolding] in
/-- The first of the photos is the one that the receipt detail has. -/
theorem imagePath_of_photos {image : ImageRecord} {files : Files}
    (h : ∀ path ∈ Handler.photos image, path ≠ "" ∧ files.exists? path = true) :
    ∃ path, image.imagePath = some path ∧ path ≠ "" ∧ files.exists? path = true := by
  have hfirst := h (image.imagePath.getD "") List.mem_cons_self
  cases hpath : image.imagePath with
  | none =>
    rw [hpath] at hfirst
    exact absurd rfl hfirst.1
  | some path =>
    rw [hpath] at hfirst
    exact ⟨path, rfl, hfirst⟩

omit [CaseFolding] in
/-- The path in the receipt detail is that of its image. -/
theorem imagePath_of_details {db : Db} {receiptId i : UUID} {details : ReceiptWithDetails}
    {image : ImageRecord} (hdetails : db.getReceiptWithDetails everyone receiptId = some details)
    (himage : details.receipt.imageId = some i) (hget : db.images.get? i = some image) :
    details.imagePath = image.imagePath := by
  obtain ⟨row, -, rfl⟩ := Option.map_eq_some_iff.mp hdetails
  show (row.imageId.bind db.images.get?).bind ImageRecord.imagePath = _
  rw [show row.imageId = some i from himage, Option.bind_some, hget, Option.bind_some]

/-- What a benchmark finds of a verified receipt: the path of the image
row, that is of its first photo, and the receipt as it validates. -/
theorem BenchmarkService.finds_iff {w : BenchmarkWorld} {receiptId : UUID}
    {details : ReceiptWithDetails} {path : FilePath}
    (hdetails : w.db.getReceiptWithDetails everyone receiptId = some details)
    (hverified : details.receipt.verified = true) (hpath : details.imagePath = some path)
    (hne : path ≠ "") (hfound : w.files.exists? path = true) {expected : Receipt}
    {path' : FilePath} :
    Finds w receiptId expected path'
      ↔ path' = path ∧ Receipt.modelValidate details.payload = .ok expected := by
  have hread : expectedReceiptAndPath (w.db.getReceiptWithDetails everyone receiptId)
      = ((Receipt.modelValidate details.payload).mapError .invalid).map (·, some path) := by
    rw [hdetails, ← hpath]
    exact if_pos hverified
  constructor
  · intro h
    obtain ⟨e, he, heq⟩ := map_eq_ok (hread.symm.trans h.expected)
    obtain ⟨rfl, hp⟩ := Prod.mk.inj heq
    refine ⟨(Option.some.inj hp).symm, ?_⟩
    cases hvalid : Receipt.modelValidate details.payload with
    | error e' =>
      rw [hvalid] at he
      exact absurd he (by simp [Except.mapError])
    | ok e' =>
      rw [hvalid] at he
      exact congrArg _ (Except.ok.inj he)
  · rintro ⟨rfl, he⟩
    refine ⟨?_, hne, hfound⟩
    rw [hread, he]
    rfl

/-- **A benchmark examines the photos of the extraction** if there is only
one, and the stored receipt can be expected. With several it never does,
whatever the rest of the state is. -/
theorem benchmark_photos_iff {settings : Settings} {w : BenchmarkWorld} {w₀ : World}
    {task : TaskRow} {run : RunRow} {i : UUID} {details : ReceiptWithDetails}
    {image image₀ : ImageRecord} {modelId : String} (hrun : w.run? run.id = some run)
    (hreceipt : task.receiptId ∈ run.request.receiptIds)
    (hmodel : task.modelId ∈ run.request.modelIds)
    (hdetails : w.db.getReceiptWithDetails everyone task.receiptId = some details)
    (hverified : details.receipt.verified = true)
    (himage : details.receipt.imageId = some i) (hget : w.db.images.get? i = some image)
    (hfiles : ∀ path ∈ Handler.photos image, path ≠ "" ∧ w.files.exists? path = true)
    (hpath₀ : image₀.imagePath = image.imagePath)
    (hadditional₀ : image₀.additionalImages = image.additionalImages)
    (hnew : image₀.receiptId = none) (hfree : w₀.db.receiptOfImage? image₀.id = none)
    (hfiles₀ : ∀ path ∈ Handler.photos image, w₀.files.exists? path = true) :
    ((∀ paths, BenchmarkService.Examines w task run paths
          ↔ Handler.Analyzes settings w₀ image₀ modelId paths)
        ∧ ∀ paths, BenchmarkService.Reevaluates w run.id task.receiptId task.modelId paths
          ↔ Handler.Analyzes settings w₀ image₀ modelId paths)
      ↔ image.additionalImages = [] ∧ ∃ e, Receipt.modelValidate details.payload = .ok e := by
  obtain ⟨path, hpath, hne, hfound⟩ := imagePath_of_photos hfiles
  have hphotos : Handler.photos image₀ = path :: image.additionalImages.map ImagePart.imagePath := by
    unfold Handler.photos ImageRecord.parts
    rw [hpath₀, hadditional₀, hpath]
    rfl
  have hfound₀ : w₀.files.exists? path = true := by
    refine hfiles₀ path ?_
    unfold Handler.photos ImageRecord.parts
    rw [hpath]
    exact List.mem_cons_self
  have hscheduler : ∀ paths, Handler.Analyzes settings w₀ image₀ modelId paths
      ↔ paths = path :: image.additionalImages.map ImagePart.imagePath := by
    intro paths
    rw [Handler.analyzes_iff hnew hfree (hpath₀.trans hpath) hne hfound₀, hphotos]
  have hbenchmark : ∀ paths, (∃ e path', BenchmarkService.Finds w task.receiptId e path'
        ∧ paths = [path'])
      ↔ paths = [path] ∧ ∃ e, Receipt.modelValidate details.payload = .ok e := by
    intro paths
    simp only [BenchmarkService.finds_iff hdetails hverified
      ((imagePath_of_details hdetails himage hget).trans hpath) hne hfound]
    constructor
    · rintro ⟨e, path', ⟨rfl, he⟩, rfl⟩
      exact ⟨rfl, e, he⟩
    · rintro ⟨rfl, e, he⟩
      exact ⟨e, path, ⟨rfl, he⟩, rfl⟩
  -- one photo on the one side and a list of photos on the other
  simp only [BenchmarkService.examines_iff hrun, BenchmarkService.reevaluates_iff hrun hreceipt hmodel,
    hbenchmark, hscheduler, and_self]
  constructor
  · intro h
    obtain ⟨hone, he⟩ := (h _).mpr rfl
    exact ⟨List.map_eq_nil_iff.mp (List.cons.inj hone).2, he⟩
  · rintro ⟨hone, he⟩ paths
    rw [hone]
    exact ⟨fun h => h.1, fun h => ⟨h, he⟩⟩

end BenchmarkPhotos

/-! ## A receipt on two photos -/

section TwoParts

local instance asciiFoldingOfParts : CaseFolding := asciiFolding

/-- An analysed image with additional photos. -/
def photographed (additional : List ImagePart) : ImageRecord where
  id := 3
  originalFilename := none
  mediaType := none
  sizeBytes := none
  imagePath := some "top.jpg"
  thumbnailPath := none
  status := .analyzed
  error := none
  receiptId := some 7
  bypassReview := false
  userId := some 1
  createdAt := 0
  analyzedAt := some 0
  processingAt := none
  additionalImages := additional
  modelId := none

/-- The image before it was analysed. -/
def uploaded (additional : List ImagePart) : ImageRecord :=
  { photographed additional with
    status := .processing
    receiptId := none
    analyzedAt := none
    processingAt := some 0 }

/-- A run over one receipt. -/
def llavaRun : RunRow where
  id := 5
  status := .queued
  request := {
    modelIds := ["llava"]
    receiptIds := [7]
    fingerprint := ""
    modelDigests := []
    timeout := 300
    policy := .all
    absolute := none
    relative := none
    applyFlags := false
    promptVersion := promptVersion
    scoringVersion := scoringVersion }
  createdAt := 0
  completedAt := none

/-- Its task. -/
def llavaTask : TaskRow := TaskKey.queued ⟨5, "llava", 7⟩

/-- Both photos are there. -/
def partFiles : Files := fun path =>
  if path = "top.jpg" ∨ path = "bottom.jpg" then some [] else none

/-- What a benchmark reads of a verified receipt with an image. -/
def photographedWorld (additional : List ImagePart) : BenchmarkWorld where
  db := { Db.empty with
    receipts := ⟨[{ emptyRow 7 1 with status := .verified, verified := true, imageId := some 3 }],
      List.nodup_singleton _⟩
    images := ⟨[photographed additional], List.nodup_singleton _⟩ }
  files := partFiles
  runs := [llavaRun]

/-- The world before the image was analysed. -/
def beforeAnalysis : World := ⟨Db.empty, partFiles, 0, []⟩

/-- The settings of the scheduler. -/
def photoSettings : Settings := ⟨"llava", "receipts"⟩

/-- The detail of the receipt. -/
def photographedDetails : ReceiptWithDetails where
  receipt := { emptyRow 7 1 with status := .verified, verified := true, imageId := some 3 }
  lineItems := []
  taxes := []
  imagePath := some "top.jpg"
  collectionIds := []

/-- The detail can be expected. -/
theorem photographedDetails_valid :
    ∃ e, Receipt.modelValidate photographedDetails.payload = .ok e := by
  have hvalid : (Receipt.modelValidate photographedDetails.payload).isOk = true := by
    decide +kernel
  cases he : Receipt.modelValidate photographedDetails.payload with
  | error e =>
    rw [he] at hvalid
    exact absurd hvalid (by simp [Except.isOk, Except.toBool])
  | ok e => exact ⟨e, rfl⟩

theorem photographedWorld_details (additional : List ImagePart) :
    (photographedWorld additional).db.getReceiptWithDetails everyone llavaTask.receiptId
      = some photographedDetails := rfl

/-- **The second photo is not examined**: the scheduler hands over both,
and the benchmark the first one. What is printed on the second photo then
counts as missed by the model. -/
theorem twoParts_differ :
    BenchmarkService.Examines (photographedWorld [{ imagePath := "bottom.jpg" }]) llavaTask llavaRun
        ["top.jpg"]
      ∧ ¬ Handler.Analyzes photoSettings beforeAnalysis
        (uploaded [{ imagePath := "bottom.jpg" }]) "llava" ["top.jpg"] := by
  constructor
  · obtain ⟨e, he⟩ := photographedDetails_valid
    refine (BenchmarkService.examines_iff rfl).mpr ⟨e, "top.jpg", ?_, rfl⟩
    exact (BenchmarkService.finds_iff (photographedWorld_details _) rfl rfl (by decide)
      (by decide)).mpr ⟨rfl, he⟩
  · intro h
    have hall := (Handler.analyzes_iff rfl rfl rfl (by decide) (by decide)).mp h
    exact absurd hall (by decide)

/-- A single photo is examined. The image has no others, so that the
benchmark and the scheduler hand over the same list. -/
theorem onePart_agrees :
    (∀ paths, BenchmarkService.Examines (photographedWorld []) llavaTask llavaRun paths
        ↔ Handler.Analyzes photoSettings beforeAnalysis (uploaded []) "llava" paths)
      ∧ ∀ paths, BenchmarkService.Reevaluates (photographedWorld []) llavaRun.id
          llavaTask.receiptId llavaTask.modelId paths
        ↔ Handler.Analyzes photoSettings beforeAnalysis (uploaded []) "llava" paths := by
  have hget : (photographedWorld []).db.images.get? 3 = some (photographed []) := rfl
  have hfiles : ∀ path ∈ Handler.photos (photographed []),
      path ≠ "" ∧ (photographedWorld []).files.exists? path = true := by decide
  have hfiles₀ : ∀ path ∈ Handler.photos (photographed []),
      beforeAnalysis.files.exists? path = true := by decide
  have hrun : (photographedWorld []).run? llavaRun.id = some llavaRun := rfl
  have hpath₀ : (uploaded []).imagePath = (photographed []).imagePath := rfl
  exact (benchmark_photos_iff hrun (by decide) (by decide) (photographedWorld_details []) rfl rfl
    hget hfiles hpath₀ rfl rfl rfl hfiles₀).mpr ⟨rfl, photographedDetails_valid⟩

end TwoParts

end VisionBill
