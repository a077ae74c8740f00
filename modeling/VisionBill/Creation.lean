import VisionBill.BenchmarkAccounting
import VisionBill.Queries

/-!
# The creation of a benchmark run

`BenchmarkService.create_run` selects models and receipts, and then
inserts the run, its tasks and its summaries in three statements that are
committed one by one. What it checks before is enough for the second and
the third statement to succeed, as long as nothing is selected twice: a
model that is named twice, or a verified receipt, violates the primary key
of the tasks when the run is stored already (`createRun_allOrNothing`).

## Why it is not a transaction

The connections of the pool commit each statement. A run whose tasks were
refused is therefore stored, without tasks and without summaries. It is
listed, it is never claimed, since there is nothing to claim, and it is
never completed, since completion is what the last task of a run does
(`llavaTwice_leavesRun`).

## What could refuse the later statements

A foreign key: the receipts are read just before and the run is there. A
column: everything that is inserted was read from the database or is a
constant. A primary key: the tasks of a run are the pairs of its models
and receipts, so they are distinct exactly if the models are and the
receipts are. The selection makes both distinct where it chooses itself.
Where the request names them, a name may occur twice; identifiers of
receipts that are not verified are dropped before, so that only verified
ones count.

`createRun` is the sequence of the three statements without anything in
between. `BenchmarkDb.exec_createRun` connects it to the system in which
workers do other things meanwhile.
-/

namespace VisionBill

section Creation

variable [CaseFolding]

/-! ## Requests

What a request may ask for is bounded by its model: receipts by name or by
filters, models by name or all of them. Bounds that the model checks are
fields of the structure. -/

/-- `BenchmarkCreate`. Models and receipts may be left out, and either
list may contain something twice. -/
structure BenchmarkCreate where
  modelIds : Option (List String)
  receiptIds : Option (List UUID)
  category : Option String
  maxSourceConfidence : Option ℤ
  limit : Option ℕ
  requestTimeoutSeconds : ℤ
  councilPolicy : CouncilPolicy
  councilAbsoluteThreshold : Option ℚ
  councilRelativeThreshold : Option ℚ
  applyCouncilFlags : Bool
  maxSourceConfidence_range : ∀ c ∈ maxSourceConfidence, 0 ≤ c ∧ c ≤ 100
  limit_pos : ∀ n ∈ limit, 1 ≤ n
  requestTimeoutSeconds_pos : 1 ≤ requestTimeoutSeconds
  councilAbsoluteThreshold_nonneg : ∀ x ∈ councilAbsoluteThreshold, 0 ≤ x
  councilRelativeThreshold_nonneg : ∀ x ∈ councilRelativeThreshold, 0 ≤ x

/-- What the provider tells of a model. The digest says which weights it
is, and is not told by every provider. -/
structure ModelInfo where
  id : String
  digest : Option String

/-- How a creation fails. All of these are raised before the first
statement that writes, except what a statement raises. -/
inductive CreationError
  /-- `ValueError`, with its message. -/
  | valueError (message : String)
  /-- What `Receipt.model_validate` raises. -/
  | invalid (e : PyError)
  /-- What a statement raises. -/
  | database (e : DbError)
  /-- What `get_available_models` raises. -/
  | provider

/-! ## The selection

What a request names is taken as it is named, and what it leaves open is
chosen, each model and each receipt once. Models that are named have to be
known to the provider. -/

/-- The elements of a list in the order of their first occurrences: the
keys of a dictionary, as Python keeps them. -/
def firstOccurrences {α : Type} [DecidableEq α] (l : List α) : List α := l.reverse.dedup.reverse

/-- The keys of `available`. -/
def availableIds (models : List ModelInfo) : List String :=
  firstOccurrences (models.map ModelInfo.id)

/-- `{m.id: m.digest for m in models}`: the last model with an id
counts. -/
def modelDigests (models : List ModelInfo) : List (String × Option String) :=
  (availableIds models).map fun id =>
    (id, (models.reverse.find? (fun m => m.id = id)).bind ModelInfo.digest)

/-- `request.model_ids or list(available)`. -/
def selectedModels (models : List ModelInfo) (request : BenchmarkCreate) : List String :=
  match request.modelIds with
  | none | some [] => availableIds models
  | some ids => ids

/-- The selected models that are not available. -/
def unknownModels (models : List ModelInfo) (request : BenchmarkCreate) : List String :=
  (selectedModels models request).dedup.filter (fun m => m ∉ availableIds models)

/-- A call without a user is not restricted. -/
def everyone : Caller := ⟨0, true⟩

namespace Db

/-- Whether there is a receipt with an id that is verified. -/
def IsVerified (db : Db) (receiptId : UUID) : Prop :=
  ∃ row ∈ db.receiptFor? everyone receiptId, row.verified = true

instance (db : Db) (receiptId : UUID) : Decidable (db.IsVerified receiptId) :=
  inferInstanceAs (Decidable (∃ row ∈ db.receiptFor? everyone receiptId, _))

/-- `list_receipts(limit=limit, status=["verified"])`. -/
def listVerified (db : Db) (limit : ℕ) : List ReceiptRecord :=
  (orderBy (fun a b => b.date ≤ a.date)
    (db.receipts.rows.filter (fun row => row.status = .verified))).take limit

/-- `_select_receipts`. The receipts that are named, if they are verified,
or the most recent ones. -/
def selectReceipts (db : Db) (request : BenchmarkCreate) : List UUID :=
  match request.receiptIds with
  | some ids => ids.filter (fun id => db.IsVerified id)
  | none =>
    ((db.listVerified (request.limit.getD 10000)).filter (fun row =>
      (∀ category ∈ request.category, row.category = category)
        ∧ ∀ c ∈ request.maxSourceConfidence, row.confidence ≤ c)).map ReceiptRecord.id

end Db

/-! ## The expected receipts

What is expected of a model is rebuilt from the rows of a verified receipt
and validated again. That can fail for rows that no validated receipt
leads to, and it does so before anything is written. -/

/-- `float(x)` of a stored number, which has at most ten digits. -/
def floatOfColumn (x : ℚ) : PyFloat := .finite (⌊x / floatUnit⌋ * floatUnit) ⟨_, rfl⟩

/-- `float(x)` of a stored rate. -/
def floatOfRate : PyDecimal → PyFloat
  | .finite x => floatOfColumn x
  | .inf negative => .inf negative
  | .nan => .nan

/-- What `_expected_receipt_and_path` validates: the stored values. It is
no receipt yet, since a stored value need not be one that the models of
the receipt accept. -/
def ReceiptWithDetails.payload (details : ReceiptWithDetails) : ReceiptPayload where
  confidence := details.receipt.confidence
  merchantName := details.receipt.merchantName
  merchantAddress := details.receipt.merchantAddress
  receiptNumber := details.receipt.receiptNumber
  date := details.receipt.date
  time := details.receipt.time.map Time.isoformat
  currency := details.receipt.currency
  category := details.receipt.category
  lineItems := details.lineItems.map fun x =>
    { description := x.description
      spendingCategory := some x.spendingCategory.code
      quantity := floatOfColumn x.quantity
      unitPrice := .finite x.unitPrice
      totalPrice := .finite x.totalPrice
      tags := x.tags }
  taxes := details.taxes.map fun x =>
    { name := x.name, rate := x.rate.map floatOfRate, amount := .finite x.amount }
  subtotal := .finite details.receipt.subtotal
  discountTotal := .finite details.receipt.discountTotal
  taxTotal := .finite details.receipt.taxTotal
  tip := details.receipt.tip.map .finite
  total := .finite details.receipt.total
  paymentMethod := details.receipt.paymentMethod

/-- `_expected_receipt`. A receipt that is not verified is refused with
the same text as one that is not there. -/
def Db.expectedReceipt (db : Db) (receiptId : UUID) : Except CreationError Receipt :=
  match db.getReceiptWithDetails everyone receiptId with
  | none => .error (.valueError "Benchmark data must be a verified receipt")
  | some details =>
    if details.receipt.verified then
      (Receipt.modelValidate details.payload).mapError .invalid
    else .error (.valueError "Benchmark data must be a verified receipt")

/-- What is selected, with the receipts as they are expected. The
fingerprint is made of the latter, and the tasks of the former. -/
structure Selection where
  modelIds : List String
  receiptIds : List UUID
  expected : List Receipt

/-- `create_run` up to the call of `BenchmarkDB`, once the models are
known. It reads, checks and validates, and writes nothing. -/
def Db.select (db : Db) (models : List ModelInfo) (request : BenchmarkCreate) :
    Except CreationError Selection :=
  if selectedModels models request = [] then
    .error (.valueError "No vision models are available")
  else if unknownModels models request ≠ [] then
    .error (.valueError ("Selected model(s) unavailable: "
      ++ ", ".intercalate (orderBy (fun a b => a ≤ b) (unknownModels models request))))
  else if db.selectReceipts request = [] then
    .error (.valueError "No verified receipts match the selection")
  else
    ((db.selectReceipts request).mapM db.expectedReceipt).map fun expected =>
      ⟨selectedModels models request, db.selectReceipts request, expected⟩

/-! ## The statements

The run, its tasks and its summaries are inserted one after another, and
each insertion is committed by itself. So an insertion that fails leaves
those before it. -/

/-- `PROMPT_VERSION`. -/
def promptVersion : String := "4"

/-- `SCORING_VERSION`. -/
def scoringVersion : String := "2"

namespace BenchmarkDb

/-- `BenchmarkDB.create_run`: what is stored afterwards, and the run or
what a statement has raised. What was inserted before stays. Whether the
values of the run fit its columns is for the database to say
(`stores`). -/
def createRun (stores : RunRequest → Bool) (b : BenchmarkDb) (receipts : List UUID) (id : ℕ)
    (now : Timestamp) (request : RunRequest) : BenchmarkDb × Except CreationError RunRow :=
  match if stores request then b.insertRun id request now else none with
  | none => (b, .error (.database
      (if stores request ∧ request.timeout ≤ int4Max then .uniqueViolation else .dataError)))
  | some b₁ =>
    match b₁.insertTasks id request.modelIds request.receiptIds receipts with
    | none => (b₁, .error (.database
        (if (taskKeys id request.modelIds request.receiptIds).Nodup then .foreignKeyViolation
        else .uniqueViolation)))
    | some b₂ =>
      match b₂.insertSummaries id request.modelIds request.modelDigests with
      | none => (b₂, .error (.database .uniqueViolation))
      | some b₃ => (b₃, .ok
        { id := id, status := .queued, request := request, createdAt := now,
          completedAt := none })

end BenchmarkDb

/-! ## The service -/

/-- `dataset_fingerprint`. `modelDumpJson exclude r` is the JSON text of
`r` without the fields that are named: two receipts that have the same
numbers may still be printed with different digits, so the text is a
parameter. -/
def datasetFingerprint {ρ : Type} (modelDumpJson : List String → ρ → String)
    (sha256 : String → String) (receipts : List ρ) : String :=
  let rows := receipts.map (modelDumpJson ["confidence"])
  sha256 ("\n".intercalate (orderBy (fun a b => a ≤ b) rows))

section Service

variable (modelDumpJson : List String → Receipt → String)
  (sha256 : String → String) (stores : RunRequest → Bool)

/-- The values of the run that is inserted. The fingerprint is that of the
receipts as they are expected at this moment. -/
def Selection.runRequest (selection : Selection) (models : List ModelInfo)
    (request : BenchmarkCreate) : RunRequest where
  modelIds := selection.modelIds
  receiptIds := selection.receiptIds
  fingerprint := datasetFingerprint modelDumpJson sha256 selection.expected
  modelDigests := modelDigests models
  timeout := request.requestTimeoutSeconds
  policy := request.councilPolicy
  absolute := request.councilAbsoluteThreshold
  relative := request.councilRelativeThreshold
  applyFlags := request.applyCouncilFlags
  promptVersion := promptVersion
  scoringVersion := scoringVersion

/-- `BenchmarkService.create_run`. `models` are the models that the
provider lists, unless that raises, and `id` is the identifier that is
made for the run. -/
def createRun (models : Option (List ModelInfo)) (db : Db) (b : BenchmarkDb) (id : ℕ)
    (now : Timestamp) (request : BenchmarkCreate) : BenchmarkDb × Except CreationError RunRow :=
  match models with
  | none => (b, .error .provider)
  | some models =>
    match db.select models request with
    | .error e => (b, .error e)
    | .ok selection =>
      b.createRun stores (db.receipts.rows.map ReceiptRecord.id) id now
        (selection.runRequest modelDumpJson sha256 models request)

end Service

omit [CaseFolding] in
/-- **What `create_run` stores when it returns is what its three steps
store** in the system of all workers, when no other step comes between
them. There each statement is a step of its own. -/
theorem BenchmarkDb.exec_createRun {stores : RunRequest → Bool} {s : BenchmarkSystem}
    {receipts : List UUID} {id : ℕ} {now : Timestamp} {request : RunRequest} {b' : BenchmarkDb}
    {run : RunRow} (hnew : ∀ c ∈ s.creations, c.id ≠ id)
    (h : s.db.createRun stores receipts id now request = (b', .ok run)) :
    ∃ s', Transition.exec BenchmarkSystem.step (fun _ _ => True) s
        [.insertRun id request now, .insertTasks id receipts, .insertSummaries id] = some s'
      ∧ s'.db = b' := by
  have hadvance : ∀ stage, s.creations.map (fun c => if c.id = id then { c with stage := stage }
      else c) = s.creations := fun stage =>
    (List.map_congr_left fun c hc => if_neg (hnew c hc)).trans (List.map_id' _)
  have hnone : ∀ stage, s.creations.find?
      (fun c => decide (c.id = id) && decide (c.stage = stage)) = none := fun stage =>
    List.find?_eq_none.mpr fun c hc => by simp [hnew c hc]
  unfold createRun at h
  split at h
  · exact absurd (Prod.mk.inj h).2 (by simp)
  · next b₁ hrun =>
    split at hrun
    · split at h
      · exact absurd (Prod.mk.inj h).2 (by simp)
      · next b₂ htasks =>
        split at h
        · exact absurd (Prod.mk.inj h).2 (by simp)
        · next b₃ hsummaries =>
          obtain ⟨rfl, -⟩ := Prod.mk.inj h
          refine ⟨⟨b₃, s.creations ++ [⟨id, request, .returned⟩], s.held, s.counted⟩, ?_, rfl⟩
          simp [Transition.exec, BenchmarkSystem.step, BenchmarkSystem.creation?,
            BenchmarkSystem.advance, hrun, htasks, hsummaries, List.find?_append, hnone, hadvance]
    · exact absurd hrun (by simp)

/-! ## All or nothing

Once the run has been inserted, the other insertions can only fail for a
key that is used twice. Keys are made of the run, so those of other runs
are never in the way. -/

/-- The constraints of the tables: their primary keys, and the foreign
keys to the runs. They are what the database guarantees in every state,
and nothing more. -/
structure BenchmarkDb.Consistent (b : BenchmarkDb) : Prop where
  tasks_nodup : (b.tasks.map TaskRow.toTaskKey).Nodup
  tasks_run : ∀ row ∈ b.tasks, row.runId ∈ b.runs.map RunRow.id
  summaries_nodup : (b.summaries.map fun row => (row.runId, row.modelId)).Nodup
  summaries_run : ∀ row ∈ b.summaries, row.runId ∈ b.runs.map RunRow.id

/-- **A run is created**: it is stored, its tasks are the pairs of its
models and receipts, each of them once, and it has one summary for each
model. -/
structure BenchmarkDb.Created (b : BenchmarkDb) (run : RunRow) : Prop where
  stored : run ∈ b.runs
  tasks : ∀ key : TaskKey, key.runId = run.id → (b.tasks.map TaskRow.toTaskKey).count key
    = if key.modelId ∈ run.request.modelIds ∧ key.receiptId ∈ run.request.receiptIds then 1 else 0
  summaries : ∀ m, (b.summaries.map fun row => (row.runId, row.modelId)).count (run.id, m)
    = if m ∈ run.request.modelIds then 1 else 0

omit [CaseFolding] in
theorem mem_taskKeys {id : ℕ} {ms : List String} {rs : List ℕ} {key : TaskKey} :
    key ∈ taskKeys id ms rs ↔ key.runId = id ∧ key.modelId ∈ ms ∧ key.receiptId ∈ rs := by
  unfold taskKeys
  simp only [List.mem_flatMap, List.mem_map]
  constructor
  · rintro ⟨m, hm, r, hr, rfl⟩
    exact ⟨rfl, hm, hr⟩
  · rintro ⟨rfl, hm, hr⟩
    exact ⟨key.modelId, hm, key.receiptId, hr, rfl⟩

omit [CaseFolding] in
/-- The tasks of a run are distinct if nothing is selected twice. -/
theorem nodup_taskKeys {id : ℕ} {ms : List String} {rs : List ℕ} (hms : ms.Nodup)
    (hrs : rs.Nodup) : (taskKeys id ms rs).Nodup := by
  unfold taskKeys
  refine List.nodup_flatMap.mpr ⟨fun m _ => hrs.map fun r r' h => (TaskKey.mk.inj h).2.2, ?_⟩
  refine hms.imp fun {m m'} hne key hkey hkey' => ?_
  obtain ⟨r, -, rfl⟩ := List.mem_map.mp hkey
  obtain ⟨r', -, h⟩ := List.mem_map.mp hkey'
  exact hne (TaskKey.mk.inj h).2.1.symm

omit [CaseFolding] in
/-- And only then. -/
theorem nodup_of_taskKeys {id : ℕ} {ms : List String} {rs : List ℕ} (hms : ms ≠ []) (hrs : rs ≠ [])
    (h : (taskKeys id ms rs).Nodup) : ms.Nodup ∧ rs.Nodup := by
  unfold taskKeys at h
  obtain ⟨hreceipts, hpairs⟩ := List.nodup_flatMap.mp h
  constructor
  · obtain ⟨r, hr⟩ := List.exists_mem_of_ne_nil rs hrs
    refine hpairs.imp fun {m m'} hdisjoint heq => ?_
    exact hdisjoint (List.mem_map_of_mem hr) (heq ▸ List.mem_map_of_mem hr)
  · obtain ⟨m, hm⟩ := List.exists_mem_of_ne_nil ms hms
    exact (hreceipts m hm).of_map _

namespace BenchmarkDb

variable {stores : RunRequest → Bool} {b : BenchmarkDb} {receipts : List UUID} {id : ℕ}
  {now : Timestamp} {request : RunRequest}

/-- Whether the database accepts the row of a run: its values fit the
columns, its identifier is new, and its timeout is in the range of the
column. What fits the other columns depends on their types and is a
parameter; the two other statements do not depend on it. -/
def Admits (stores : RunRequest → Bool) (b : BenchmarkDb) (id : ℕ) (request : RunRequest) : Prop :=
  stores request = true ∧ id ∉ b.runs.map RunRow.id ∧ request.timeout ≤ int4Max

/-- The row of a run as it is inserted. -/
def newRun (id : ℕ) (now : Timestamp) (request : RunRequest) : RunRow where
  id := id
  status := .queued
  request := request
  createdAt := now
  completedAt := none

omit [CaseFolding] in
theorem insertRun_of_admits (h : b.Admits stores id request) :
    (if stores request then b.insertRun id request now else none)
      = some { b with runs := b.runs ++ [newRun id now request] } := by
  rw [if_pos h.1, insertRun, if_neg (not_or.mpr ⟨h.2.1, not_lt.mpr h.2.2⟩)]
  rfl

omit [CaseFolding] in
theorem insertRun_of_not_admits (h : ¬ b.Admits stores id request) :
    (if stores request then b.insertRun id request now else none) = none := by
  split
  · next hstores =>
    refine if_pos ?_
    by_contra hnot
    exact h ⟨hstores, (not_or.mp hnot).1, not_lt.mp (not_or.mp hnot).2⟩
  · rfl

omit [CaseFolding] in
/-- A run that is refused leaves nothing. -/
theorem createRun_of_not_admits (h : ¬ b.Admits stores id request) :
    ∃ e, b.createRun stores receipts id now request = (b, .error e) := by
  unfold createRun
  rw [insertRun_of_not_admits h]
  exact ⟨_, rfl⟩

omit [CaseFolding] in
/-- Nothing is there yet for an identifier that no run has. -/
theorem Consistent.count_eq_zero (hb : b.Consistent) (hid : id ∉ b.runs.map RunRow.id) :
    (∀ key : TaskKey, key.runId = id → key ∉ b.tasks.map TaskRow.toTaskKey)
      ∧ ∀ m, (id, m) ∉ b.summaries.map fun row => (row.runId, row.modelId) := by
  constructor
  · rintro key rfl hkey
    obtain ⟨row, hrow, rfl⟩ := List.mem_map.mp hkey
    exact hid (hb.tasks_run row hrow)
  · intro m hm
    obtain ⟨row, hrow, heq⟩ := List.mem_map.mp hm
    obtain ⟨rfl, -⟩ := Prod.mk.inj heq
    exact hid (hb.summaries_run row hrow)

omit [CaseFolding] in
/-- What is selected twice is found out when the run is stored already.
The tasks have one key twice, and the statement that inserts them is not
the one that inserted the run. -/
theorem createRun_of_repeats (h : b.Admits stores id request)
    (hrepeats : ¬ (taskKeys id request.modelIds request.receiptIds).Nodup) :
    ∃ e, b.createRun stores receipts id now request
      = ({ b with runs := b.runs ++ [newRun id now request] }, .error e) := by
  have htasks : ({ b with runs := b.runs ++ [newRun id now request] } : BenchmarkDb).insertTasks id
      request.modelIds request.receiptIds receipts = none :=
    if_neg fun hkeys => hrepeats hkeys.1.of_append_right
  unfold createRun
  rw [insertRun_of_admits h]
  dsimp only
  rw [htasks]
  exact ⟨_, rfl⟩

omit [CaseFolding] in
/-- And otherwise the run is created. All keys are new since the
identifier of the run is, and distinct since models and receipts are. -/
theorem createRun_of_nodup (hb : b.Consistent) (h : b.Admits stores id request)
    (hms : request.modelIds.Nodup) (hrs : request.receiptIds.Nodup)
    (hreceipts : ∀ r ∈ request.receiptIds, r ∈ receipts) :
    ∃ b', b.createRun stores receipts id now request = (b', .ok (newRun id now request))
      ∧ b'.Created (newRun id now request) := by
  obtain ⟨hnewTasks, hnewSummaries⟩ := hb.count_eq_zero h.2.1
  have hkeys : (taskKeys id request.modelIds request.receiptIds).Nodup := nodup_taskKeys hms hrs
  have hpairs : (request.modelIds.map fun m => (id, m)).Nodup :=
    hms.map fun m m' heq => (Prod.mk.inj heq).2
  -- the three insertions, none of which meets a row that is there
  let b₁ : BenchmarkDb := { b with runs := b.runs ++ [newRun id now request] }
  let b₂ : BenchmarkDb := { b₁ with
    tasks := b₁.tasks
      ++ (taskKeys id request.modelIds request.receiptIds).map TaskKey.queued }
  let b₃ : BenchmarkDb := { b₂ with
    summaries := b₂.summaries
      ++ request.modelIds.map (SummaryRow.fresh id request.modelDigests) }
  have htasks : b₁.insertTasks id request.modelIds request.receiptIds receipts = some b₂ := by
    refine if_pos ⟨List.nodup_append'.mpr ⟨hb.tasks_nodup, hkeys, fun key hold hnew => ?_⟩,
      fun key hkey => hreceipts _ (mem_taskKeys.mp hkey).2.2⟩
    exact hnewTasks key (mem_taskKeys.mp hnew).1 hold
  have hsummaries : b₂.insertSummaries id request.modelIds request.modelDigests = some b₃ := by
    refine if_pos (List.nodup_append'.mpr ⟨hb.summaries_nodup, hpairs, fun key hold hnew => ?_⟩)
    obtain ⟨m, -, rfl⟩ := List.mem_map.mp hnew
    exact hnewSummaries m hold
  refine ⟨b₃, ?_, ?_, fun key hkey => ?_, fun m => ?_⟩
  · unfold createRun
    rw [insertRun_of_admits h]
    dsimp only
    rw [htasks]
    dsimp only
    rw [hsummaries]
    rfl
  · exact List.mem_append_right _ (List.mem_singleton_self _)
  · have hmap : b₃.tasks.map TaskRow.toTaskKey = b.tasks.map TaskRow.toTaskKey
        ++ taskKeys id request.modelIds request.receiptIds := by
      show (b.tasks ++ (taskKeys id request.modelIds request.receiptIds).map TaskKey.queued).map
        TaskRow.toTaskKey = _
      rw [List.map_append, List.map_map]
      exact congrArg _ (List.map_id' _)
    rw [hmap, List.count_append, List.count_eq_zero_of_not_mem (hnewTasks key hkey), zero_add]
    split
    · next hmem => exact List.count_eq_one_of_mem hkeys (mem_taskKeys.mpr ⟨hkey, hmem⟩)
    · next hmem =>
      exact List.count_eq_zero_of_not_mem fun hkey' => hmem (mem_taskKeys.mp hkey').2
  · have hmap : b₃.summaries.map (fun row => (row.runId, row.modelId))
        = b.summaries.map (fun row => (row.runId, row.modelId))
          ++ request.modelIds.map fun m => (id, m) := by
      show (b.summaries ++ request.modelIds.map (SummaryRow.fresh id request.modelDigests)).map _ = _
      rw [List.map_append, List.map_map]
      rfl
    rw [hmap, List.count_append]
    have hold : (b.summaries.map fun row => (row.runId, row.modelId)).count (id, m) = 0 :=
      List.count_eq_zero_of_not_mem (hnewSummaries m)
    show (b.summaries.map fun row => (row.runId, row.modelId)).count (id, m) + _ = _
    rw [hold, zero_add]
    split
    · next hmem => exact List.count_eq_one_of_mem hpairs (List.mem_map_of_mem hmem)
    · next hmem =>
      refine List.count_eq_zero_of_not_mem fun hm => ?_
      obtain ⟨m', hm', heq⟩ := List.mem_map.mp hm
      exact hmem ((Prod.mk.inj heq).2 ▸ hm')

end BenchmarkDb

/-! ## What is selected

The receipts that are selected by filters have different identifiers,
since they are rows of one table. Those that are named by the request are
taken as they are named. -/

/-- A request that names no model and no verified receipt twice. Receipts
that are not verified are dropped before the run is stored, and may be
named as often as one likes. A request that leaves the choice open names
nothing. -/
def BenchmarkCreate.NamesNothingTwice (request : BenchmarkCreate) (db : Db) : Prop :=
  (∀ ids ∈ request.modelIds, ids.Nodup)
    ∧ ∀ ids ∈ request.receiptIds, (ids.filter fun id => db.IsVerified id).Nodup

instance (request : BenchmarkCreate) (db : Db) : Decidable (request.NamesNothingTwice db) :=
  inferInstanceAs (Decidable (_ ∧ _))

section Selection

variable {db : Db} {models : List ModelInfo} {request : BenchmarkCreate}

omit [CaseFolding] in
/-- The available models are distinct, so only a request can repeat one.
The source passes the names of a request on as they are. -/
theorem nodup_selectedModels :
    (selectedModels models request).Nodup ↔ ∀ ids ∈ request.modelIds, ids.Nodup := by
  have havailable : (availableIds models).Nodup := List.nodup_reverse.mpr (List.nodup_dedup _)
  unfold selectedModels
  split
  · next hnone =>
    rw [hnone]
    exact iff_of_true havailable fun ids h => absurd h (Option.not_mem_none ids)
  · next hnil =>
    rw [hnil]
    exact iff_of_true havailable fun ids h => Option.mem_some_iff.mp h ▸ List.nodup_nil
  · next ids _ hsome =>
    rw [hsome]
    exact ⟨fun h ids' hids' => Option.mem_some_iff.mp hids' ▸ h, fun h => h ids rfl⟩

omit [CaseFolding] in
/-- The rows that are listed are rows of the table, each of them once. -/
theorem listVerified_spec (db : Db) (limit : ℕ) :
    ((db.listVerified limit).map ReceiptRecord.id).Nodup
      ∧ ∀ row ∈ db.listVerified limit, row ∈ db.receipts.rows := by
  have hperm := perm_orderBy (fun a b : ReceiptRecord => b.date ≤ a.date)
    (db.receipts.rows.filter (fun row => row.status = .verified))
  refine ⟨?_, fun row hrow => ?_⟩
  · refine List.Nodup.sublist ((List.take_sublist _ _).map _) ?_
    exact (hperm.map ReceiptRecord.id).nodup_iff.mpr
      (db.receipts.nodup.sublist (List.filter_sublist.map _))
  · exact (List.mem_filter.mp (hperm.mem_iff.mp (List.mem_of_mem_take hrow))).1

omit [CaseFolding] in
/-- Only a request can repeat a receipt, and only a verified one: the
others are left out before they are counted. -/
theorem nodup_selectReceipts :
    (db.selectReceipts request).Nodup
      ↔ ∀ ids ∈ request.receiptIds, (ids.filter fun id => db.IsVerified id).Nodup := by
  unfold Db.selectReceipts
  split
  · next ids hsome =>
    rw [hsome]
    exact ⟨fun h ids' hids' => Option.mem_some_iff.mp hids' ▸ h, fun h => h ids rfl⟩
  · next hnone =>
    rw [hnone]
    refine iff_of_true ?_ fun ids h => absurd h (Option.not_mem_none ids)
    exact (listVerified_spec db _).1.sublist (List.filter_sublist.map _)

omit [CaseFolding] in
/-- What is selected are receipts. -/
theorem mem_receipts_of_mem_selectReceipts {id : UUID} (h : id ∈ db.selectReceipts request) :
    id ∈ db.receipts.rows.map ReceiptRecord.id := by
  unfold Db.selectReceipts at h
  split at h
  · obtain ⟨row, hrow, -⟩ := of_decide_eq_true (List.mem_filter.mp h).2
    obtain ⟨hmem, rfl⟩ := Table.get?_eq_some_iff.mp (Option.filter_eq_some_iff.mp hrow).1
    exact List.mem_map_of_mem hmem
  · obtain ⟨row, hrow, rfl⟩ := List.mem_map.mp h
    exact List.mem_map_of_mem ((listVerified_spec db _).2 row (List.mem_filter.mp hrow).1)

/-- What `create_run` has selected when its checks have passed. The checks
ask for no more than that there is something of both. -/
theorem select_spec {selection : Selection} (h : db.select models request = .ok selection) :
    selection.modelIds = selectedModels models request ∧ selection.modelIds ≠ []
      ∧ selection.receiptIds = db.selectReceipts request ∧ selection.receiptIds ≠ [] := by
  unfold Db.select at h
  split at h
  · exact absurd h (by simp)
  · next hmodels =>
    split at h
    · exact absurd h (by simp)
    · split at h
      · exact absurd h (by simp)
      · next hreceipts =>
        obtain ⟨expected, -, rfl⟩ := map_eq_ok h
        exact ⟨rfl, hmodels, rfl, hreceipts⟩

end Selection

/-! ## The theorem

The property has two halves: a request that is refused changes nothing,
and one that is accepted stores all of its rows. Both are decided by the
request and by the database before it. -/

section Service

variable (modelDumpJson : List String → Receipt → String)
  (sha256 : String → String) (stores : RunRequest → Bool)
  (models : Option (List ModelInfo)) (db : Db) (b : BenchmarkDb) (id : ℕ) (now : Timestamp)
  (request : BenchmarkCreate)

/-- Whether `create_run` gives up before anything is stored: the provider
does not answer, a check fails, or the database does not accept the row of
the run. Then there is nothing to undo. Everything that can go wrong later
is about the rows after it. -/
def IsRefused : Prop :=
  ∀ ms ∈ models, ∀ selection, db.select ms request = .ok selection →
    ¬ b.Admits stores id (selection.runRequest modelDumpJson sha256 ms request)

/-- **All or nothing**: the run that is returned is created, of the models
and receipts that are selected; and nothing has changed if an exception is
raised. It is a statement about what is stored and what is answered
together. -/
def AllOrNothing : BenchmarkDb × Except CreationError RunRow → Prop
  | (b', .ok run) => b'.Created run
    ∧ (∃ ms ∈ models, run.request.modelIds = selectedModels ms request)
    ∧ run.request.receiptIds = db.selectReceipts request
  | (b', .error _) => b' = b

variable {b}

/-- **Creating a run is all or nothing exactly if it is refused or nothing
is named twice.** A request that names a model or a verified receipt
twice, and passes the checks, leaves a run without tasks. -/
theorem createRun_allOrNothing (hb : b.Consistent) :
    AllOrNothing models db b request
        (createRun modelDumpJson sha256 stores models db b id now request)
      ↔ IsRefused modelDumpJson sha256 stores models db b id request
        ∨ request.NamesNothingTwice db := by
  cases models with
  | none => exact iff_of_true rfl (.inl fun ms h => absurd h (Option.not_mem_none ms))
  | some ms =>
    cases hselect : db.select ms request with
    | error e =>
      have hcreate : createRun modelDumpJson sha256 stores (some ms) db b id now request
          = (b, .error e) := by
        unfold createRun
        dsimp only
        rw [hselect]
      rw [hcreate]
      refine iff_of_true rfl (.inl fun ms' hms' selection hselection => ?_)
      obtain rfl := Option.mem_some_iff.mp hms'
      exact absurd (hselect.symm.trans hselection) (by simp)
    | ok selection =>
      obtain ⟨hmodels, hmodels_ne, hreceipts, hreceipts_ne⟩ := select_spec hselect
      set row := selection.runRequest modelDumpJson sha256 ms request with hrow
      have hcreate : createRun modelDumpJson sha256 stores (some ms) db b id now request
          = b.createRun stores (db.receipts.rows.map ReceiptRecord.id) id now row := by
        unfold createRun
        dsimp only
        rw [hselect]
      rw [hcreate]
      have hrefused : IsRefused modelDumpJson sha256 stores (some ms) db b id request
          ↔ ¬ b.Admits stores id row := by
        refine ⟨fun h => h ms rfl selection hselect, fun h ms' hms' selection' hselection' => ?_⟩
        obtain rfl := Option.mem_some_iff.mp hms'
        obtain rfl := Except.ok.inj (hselect.symm.trans hselection')
        exact h
      have htwice : request.NamesNothingTwice db ↔ row.modelIds.Nodup ∧ row.receiptIds.Nodup := by
        show _ ↔ selection.modelIds.Nodup ∧ selection.receiptIds.Nodup
        rw [hmodels, hreceipts, nodup_selectedModels, nodup_selectReceipts]
        rfl
      rw [hrefused, htwice]
      by_cases hadmits : b.Admits stores id row
      · rw [or_iff_right (not_not_intro hadmits)]
        -- the checks are passed; now it matters whether something is named twice
        by_cases hnodup : row.modelIds.Nodup ∧ row.receiptIds.Nodup
        · obtain ⟨b', hb', hcreated⟩ := BenchmarkDb.createRun_of_nodup hb hadmits
            hnodup.1 hnodup.2 fun r hr =>
              mem_receipts_of_mem_selectReceipts (hreceipts ▸ (show r ∈ selection.receiptIds from hr))
          rw [hb']
          exact iff_of_true ⟨hcreated, ⟨ms, rfl, hmodels⟩, hreceipts⟩ hnodup
        · have hrepeats : ¬ (taskKeys id row.modelIds row.receiptIds).Nodup := fun h =>
            hnodup (nodup_of_taskKeys hmodels_ne hreceipts_ne h)
          obtain ⟨e, he⟩ := BenchmarkDb.createRun_of_repeats hadmits hrepeats
          rw [he]
          refine iff_of_false (fun h => ?_) hnodup
          -- the run stays, though its tasks were refused
          have hruns := congrArg (fun b' => b'.runs.length) (h : _ = b)
          simp at hruns
      · obtain ⟨e, he⟩ := BenchmarkDb.createRun_of_not_admits hadmits
        rw [he]
        exact iff_of_true rfl (.inl hadmits)

end Service

end Creation

/-! ## A request that names a model twice -/

section LlavaTwice

local instance asciiFoldingOfCreation : CaseFolding := asciiFolding

/-- A request for one receipt. -/
def receiptRequest (modelIds : List String) : BenchmarkCreate where
  modelIds := some modelIds
  receiptIds := some [7]
  category := none
  maxSourceConfidence := none
  limit := none
  requestTimeoutSeconds := 300
  councilPolicy := .all
  councilAbsoluteThreshold := none
  councilRelativeThreshold := none
  applyCouncilFlags := false
  maxSourceConfidence_range := fun _ h => absurd h (Option.not_mem_none _)
  limit_pos := fun _ h => absurd h (Option.not_mem_none _)
  requestTimeoutSeconds_pos := by decide
  councilAbsoluteThreshold_nonneg := nonneg_of_mem_none
  councilRelativeThreshold_nonneg := nonneg_of_mem_none

/-- A database with one verified receipt. -/
def verifiedReceipt : Db :=
  { Db.empty with
    receipts := ⟨[{ emptyRow 7 1 with status := .verified, verified := true }],
      List.nodup_singleton _⟩ }

/-- The JSON text of that receipt. -/
def verifiedJson : String :=
  "\x7b\"merchant_name\":\"Shop\",\"merchant_address\":null,\"receipt_number\":null,"
    ++ "\"date\":\"2024-01-02\",\"time\":null,\"currency\":\"EUR\",\"category\":\"grocery\","
    ++ "\"line_items\":[],\"taxes\":[],\"subtotal\":\"0.00\",\"discount_total\":\"0.00\","
    ++ "\"tax_total\":\"0.00\",\"tip\":null,\"total\":\"0.00\",\"payment_method\":\"cash\"\x7d"

/-- Its digest. -/
def verifiedDigest : String := "ed7c878c94f2e9063ddbad1adfd449acc8948eeda559e45874897ad9baf81ffe"

/-- The answer to a request, in an empty control plane. -/
def createOne (modelIds : List String) : BenchmarkDb × Except CreationError RunRow :=
  createRun (fun _ _ => verifiedJson) (fun _ => verifiedDigest) (fun _ => true)
    (some [⟨"llava", none⟩]) verifiedReceipt ⟨[], [], []⟩ 1 0 (receiptRequest modelIds)

theorem consistent_empty : BenchmarkDb.Consistent ⟨[], [], []⟩ where
  tasks_nodup := List.nodup_nil
  tasks_run := fun _ h => absurd h List.not_mem_nil
  summaries_nodup := List.nodup_nil
  summaries_run := fun _ h => absurd h List.not_mem_nil

/-- A model that is named once. -/
theorem llavaOnce_allOrNothing :
    AllOrNothing (some [⟨"llava", none⟩]) verifiedReceipt ⟨[], [], []⟩ (receiptRequest ["llava"])
      (createOne ["llava"]) :=
  (createRun_allOrNothing (fun _ _ => verifiedJson) (fun _ => verifiedDigest) (fun _ => true)
    (some [⟨"llava", none⟩]) verifiedReceipt 1 0 (receiptRequest ["llava"])
    consistent_empty).mpr (.inr (by decide +kernel))

/-- **A model that is named twice leaves a run without tasks**, which is
never completed. The request is one that the schema accepts. -/
theorem llavaTwice_leavesRun :
    ¬ AllOrNothing (some [⟨"llava", none⟩]) verifiedReceipt ⟨[], [], []⟩
      (receiptRequest ["llava", "llava"]) (createOne ["llava", "llava"]) := by
  have hlength : (createOne ["llava", "llava"]).1.runs.length = 1 := by decide +kernel
  have herror : (createOne ["llava", "llava"]).2.isOk = false := by decide +kernel
  intro h
  generalize createOne ["llava", "llava"] = out at hlength herror h
  obtain ⟨b', e | run⟩ := out
  · rw [show b' = (⟨[], [], []⟩ : BenchmarkDb) from h] at hlength
    exact absurd hlength (by simp)
  · exact absurd herror (by simp [Except.isOk, Except.toBool])

end LlavaTwice

end VisionBill
