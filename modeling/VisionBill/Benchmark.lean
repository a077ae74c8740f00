import VisionBill.Lib.Transition
import VisionBill.Calendar
import Mathlib.Data.List.Flatten
import Mathlib.Algebra.BigOperators.Group.List.Basic
import Mathlib.Algebra.Order.Ring.Rat
import Mathlib.Algebra.Order.Ring.Int

/-!
# Benchmark runs

The tables of the benchmark control plane, the statements of `BenchmarkDB`
on them, and the transition system in which runs are created while workers
lease, retry and finish tasks. A transaction is one step and so is every
statement that commits by itself; creating a run takes three of them. A
statement that raises – a primary key, a foreign key, an `INTEGER` out of
range – has no effect, and its step is `none`.

## Tasks, summaries, runs

A task is a pair of a model and a receipt of a run. It is in the queue
until it is finished, and then it is deleted and counted in the summary of
its model. So the queue and the summaries together should account for
every pair, and the run is completed when the queue has none of it left.
Nothing connects the two tables but the statements that write them.

## Workers

A worker leases a task, which makes the row `running` for six minutes, and
works on it for as long as it takes. It then finishes the task or gives it
back. The row it holds is a copy from the time of the lease: a worker that
is late acts on what it has seen then, and both statements find the row by
its key only. The system keeps these copies, since they are what a worker
knows.

How a task is executed is a function of what the worker finds (`execute`):
which models the provider has, with which digests, and how the examination
of the photo ends. It is the one place that says when a task is parked.
-/

namespace VisionBill

/-- The largest `INTEGER` of PostgreSQL. -/
def int4Max : ℤ := 2147483647

/-! ## Tables

There are three: runs, the tasks that are still to be done, and for each
model of a run a summary of those that are done. A task is deleted when it
is finished, so the tasks are the work that is left. -/

/-- The status of a task. A finished task has none, since its row is
gone. -/
inductive TaskStatus
  | queued | running | waitingForModel | retrying
  deriving DecidableEq, Repr

/-- The status of a run. A run is completed by whoever finishes its last
task, and nothing takes that back. -/
inductive RunStatus
  | queued | completed
  deriving DecidableEq, Repr

/-- `CouncilPolicy`. -/
inductive CouncilPolicy
  | all | material | custom
  deriving DecidableEq, Repr

/-- What `create_run` is given. It is stored with the run, so that what
was asked for can be told from what has become of it. -/
structure RunRequest where
  modelIds : List String
  receiptIds : List ℕ
  fingerprint : String
  modelDigests : List (String × Option String)
  timeout : ℤ
  policy : CouncilPolicy
  absolute : Option ℚ
  relative : Option ℚ
  applyFlags : Bool
  promptVersion : String
  scoringVersion : String

/-- A row of `benchmark_runs`. The request is kept with it, since the
workers read the digests and the timeout from there. -/
structure RunRow where
  id : ℕ
  status : RunStatus
  request : RunRequest
  createdAt : Timestamp
  completedAt : Option Timestamp

/-- The primary key of `benchmark_tasks`. There is one task for each model
and each receipt of a run. -/
structure TaskKey where
  runId : ℕ
  modelId : String
  receiptId : ℕ
  deriving DecidableEq

/-- A row of `benchmark_tasks`. It is deleted when the task is finished,
so there is no status for that; what remains are the counters of the
summary. -/
structure TaskRow extends TaskKey where
  status : TaskStatus
  attempts : ℕ
  leasedUntil : Option Timestamp
  retryAt : Option Timestamp
  startedAt : Option Timestamp
  deriving DecidableEq

/-- A row of `benchmark_summaries`. It has sums and no averages: the task
is deleted once it is counted, so nothing else is left of it. -/
structure SummaryRow where
  runId : ℕ
  modelId : String
  modelDigest : Option String
  completed : ℕ
  succeeded : ℕ
  failed : ℕ
  totalScore : Float
  totalConfidence : Float
  totalAttempts : ℤ
  totalLatencyMs : Float

/-- The benchmark tables. The three are of one state, as one transaction
may write to all of them. -/
structure BenchmarkDb where
  runs : List RunRow
  tasks : List TaskRow
  summaries : List SummaryRow

/-- What `task_counts` returns: the tasks of a run by status, and those
that the summaries have counted. -/
structure TaskCounts where
  queued : ℕ
  running : ℕ
  waitingForModel : ℕ
  retrying : ℕ
  terminal : ℕ
  deriving DecidableEq

/-- All tasks that `task_counts` counts. -/
def TaskCounts.total (c : TaskCounts) : ℕ :=
  c.queued + c.running + c.waitingForModel + c.retrying + c.terminal

/-- What a finished task reports. One that has failed reports the
defaults, which are those of the parameters of `finish_task`. -/
structure Outcome where
  success : Bool
  score : Float := 0
  confidence : ℕ := 0
  attempts : ℤ := 1
  latencyMs : Float := 0

/-- The keys of the tasks of a run, in the order in which they are
inserted. -/
def taskKeys (runId : ℕ) (modelIds : List String) (receiptIds : List ℕ) : List TaskKey :=
  modelIds.flatMap fun m => receiptIds.map fun r => ⟨runId, m, r⟩

/-- A task as it is inserted. -/
def TaskKey.queued (key : TaskKey) : TaskRow :=
  { toTaskKey := key, status := .queued, attempts := 0, leasedUntil := none, retryAt := none,
    startedAt := none }

/-- The condition of `lease_task` on a row; a comparison with `NULL` is
not true. A task that is to be tried again has a time for that, and a
running one the end of its lease. -/
def TaskRow.Leasable (now : Timestamp) (row : TaskRow) : Prop :=
  ((row.status = .queued ∨ row.status = .retrying) ∧ ∀ t ∈ row.retryAt, t ≤ now)
    ∨ (row.status = .running ∧ ∃ t ∈ row.leasedUntil, t < now)

instance (now : Timestamp) : DecidablePred (TaskRow.Leasable now) := fun _ =>
  inferInstanceAs (Decidable (_ ∨ _))

/-- A row as `lease_task` writes it. The attempt is counted when it
begins, and the lease ends by itself after six minutes if the worker never
comes back. -/
def TaskRow.leased (now : Timestamp) (row : TaskRow) : TaskRow :=
  { row with
    status := .running
    attempts := row.attempts + 1
    startedAt := some now
    leasedUntil := some (now + seconds 360) }

/-- A row as `retry_task` writes it; the delay is exponential in the
attempts that the worker saw, which need not be those of the row by
then. -/
def TaskRow.retried (task : TaskRow) (waiting : Bool) (now : Timestamp) (row : TaskRow) :
    TaskRow :=
  { row with
    status := if waiting then .waitingForModel else .retrying
    leasedUntil := none
    retryAt := some (now + seconds (min (5 * 2 ^ task.attempts) 300)) }

/-- A summary as it is inserted. -/
def SummaryRow.fresh (runId : ℕ) (modelDigests : List (String × Option String))
    (modelId : String) : SummaryRow :=
  { runId := runId, modelId := modelId, modelDigest := (modelDigests.lookup modelId).join,
    completed := 0, succeeded := 0, failed := 0, totalScore := 0, totalConfidence := 0,
    totalAttempts := 0, totalLatencyMs := 0 }

/-- Whether a summary is the one that a task counts for. -/
def SummaryRow.Of (key : TaskKey) (row : SummaryRow) : Prop :=
  row.runId = key.runId ∧ row.modelId = key.modelId

instance (key : TaskKey) : DecidablePred (SummaryRow.Of key) := fun _ =>
  inferInstanceAs (Decidable (_ ∧ _))

/-- A summary with one more completed task. The amounts are added whether
the task has succeeded or not: one that has failed counts as one attempt
and with zeros otherwise. -/
def SummaryRow.add (o : Outcome) (row : SummaryRow) : SummaryRow :=
  { row with
    completed := row.completed + 1
    succeeded := row.succeeded + (if o.success then 1 else 0)
    failed := row.failed + (if o.success then 0 else 1)
    totalScore := row.totalScore + o.score
    totalConfidence := row.totalConfidence + o.confidence.toFloat
    totalAttempts := row.totalAttempts + o.attempts
    totalLatencyMs := row.totalLatencyMs + o.latencyMs }

/-- The counters of a row fit their columns. They only grow, and a counter
that no longer fits makes the statement fail that adds to it. -/
def SummaryRow.Fits (row : SummaryRow) : Prop :=
  (row.completed : ℤ) ≤ int4Max ∧ row.totalAttempts ≤ int4Max

instance : DecidablePred SummaryRow.Fits := fun _ => inferInstanceAs (Decidable (_ ∧ _))

/-- The first row of a table in an order, as `ORDER BY ... LIMIT 1` gives
it. -/
def firstBy {α : Type} (le : α → α → Bool) : List α → Option α
  | [] => none
  | a :: l =>
    match firstBy le l with
    | none => some a
    | some b => if le a b then some a else some b

theorem mem_of_firstBy {α : Type} {le : α → α → Bool} {l : List α} {a : α}
    (h : firstBy le l = some a) : a ∈ l := by
  induction l with
  | nil => exact absurd h (by simp [firstBy])
  | cons b l ih =>
    unfold firstBy at h
    split at h
    · exact Option.some.inj h ▸ List.mem_cons_self
    · next c hc =>
      split at h
      · exact Option.some.inj h ▸ List.mem_cons_self
      · exact List.mem_cons_of_mem b (ih (hc.trans h))

namespace BenchmarkDb

/-! ## Statements

Each is one call of `BenchmarkDB`, or one statement of `create_run`, which
commits them one by one. A statement that violates a key fails as a
whole. -/

/-- The first statement of `create_run`: the run row. The statements of
`create_run` are not one transaction, so a worker may see the run without
its tasks. -/
def insertRun (db : BenchmarkDb) (id : ℕ) (request : RunRequest) (now : Timestamp) :
    Option BenchmarkDb :=
  if id ∈ db.runs.map RunRow.id ∨ int4Max < request.timeout then none
  else some { db with runs := db.runs ++
    [{ id := id, status := .queued, request := request, createdAt := now,
       completedAt := none }] }

/-- The second statement of `create_run`: one row for each model and
receipt, or none at all. `receipts` are the receipts there are. -/
def insertTasks (db : BenchmarkDb) (id : ℕ) (modelIds : List String) (receiptIds : List ℕ)
    (receipts : List ℕ) : Option BenchmarkDb :=
  let keys := taskKeys id modelIds receiptIds
  if (db.tasks.map TaskRow.toTaskKey ++ keys).Nodup ∧ ∀ key ∈ keys, key.receiptId ∈ receipts then
    some { db with tasks := db.tasks ++ keys.map TaskKey.queued }
  else none

/-- The third statement of `create_run`: one summary for each model, or
none at all. -/
def insertSummaries (db : BenchmarkDb) (id : ℕ) (modelIds : List String)
    (modelDigests : List (String × Option String)) : Option BenchmarkDb :=
  if (db.summaries.map (fun row => (row.runId, row.modelId))
      ++ modelIds.map (fun m => (id, m))).Nodup then
    some { db with
      summaries := db.summaries ++ modelIds.map (SummaryRow.fresh id modelDigests) }
  else none

/-- `task_counts`. The source asks for the counts of the tasks and for the
photos that are done in two statements, and each of them sees what is
committed when it starts. Both are read in one state here, so that what is
said of the counts is said of a moment in which nobody commits between the
two. -/
def taskCounts (db : BenchmarkDb) (runId : ℕ) : TaskCounts :=
  let rows := db.tasks.filter (fun row => row.runId = runId)
  { queued := rows.countP (fun row => row.status = .queued)
    running := rows.countP (fun row => row.status = .running)
    waitingForModel := rows.countP (fun row => row.status = .waitingForModel)
    retrying := rows.countP (fun row => row.status = .retrying)
    terminal := ((db.summaries.filter (fun row => row.runId = runId)).map
      SummaryRow.completed).sum }

/-- The row that `lease_task` selects: the first one by run and receipt
that can be leased and is not locked. Rows that tie in this order are
chosen by the database, which `locked` can stand for as well. -/
def selectTask (db : BenchmarkDb) (now : Timestamp) (locked : List TaskKey) : Option TaskRow :=
  firstBy (fun a b => a.runId < b.runId || (a.runId = b.runId && a.receiptId ≤ b.receiptId))
    (db.tasks.filter (fun row => row.Leasable now ∧ row.toTaskKey ∉ locked))

/-- Rewriting the row with a key. -/
def updateTask (db : BenchmarkDb) (key : TaskKey) (f : TaskRow → TaskRow) : BenchmarkDb :=
  { db with tasks := db.tasks.map (fun row => if row.toTaskKey = key then f row else row) }

/-- `lease_task`: the tables afterwards, and the row as it was
selected. -/
def leaseTask (db : BenchmarkDb) (now : Timestamp) (locked : List TaskKey) :
    Option (BenchmarkDb × TaskRow) := do
  let row ← db.selectTask now locked
  if int4Max < row.attempts + 1 then none
  else some (db.updateTask row.toTaskKey (TaskRow.leased now), row)

/-- `retry_task`. -/
def retryTask (db : BenchmarkDb) (task : TaskRow) (waiting : Bool) (now : Timestamp) :
    BenchmarkDb :=
  db.updateTask task.toTaskKey (TaskRow.retried task waiting now)

/-- `finish_task`: the task goes, its summary counts it, and the run is
completed if it was the last. -/
def finishTask (db : BenchmarkDb) (task : TaskRow) (o : Outcome) (now : Timestamp) :
    Option BenchmarkDb :=
  let tasks := db.tasks.filter (fun row => row.toTaskKey ≠ task.toTaskKey)
  let summaries : List SummaryRow :=
    db.summaries.map (fun row => if row.Of task.toTaskKey then row.add o else row)
  if ∀ row ∈ summaries, row.Fits then
    some {
      tasks := tasks
      summaries := summaries
      runs := db.runs.map fun run =>
        if run.id = task.runId ∧ ∀ row ∈ tasks, row.runId ≠ task.runId then
          { run with status := .completed, completedAt := some now }
        else run }
  else none

end BenchmarkDb

/-! ## Executing a task

Between leasing a task and giving it back the worker asks the provider,
reads the run and examines the receipt. None of that is stored, so all of
it is summed up in a record, and what is modelled is which call the worker
makes in the end. -/

/-- How the examination of a photo ends: with a report, with a
`ValueError` or `FileNotFoundError`, or with any other exception. -/
inductive Examination
  | report (o : Outcome)
  | invalid
  | transient

/-- What `_execute` meets: the models, or the failure to list them; the
run and its digests; and how the examination of the photo ends. -/
structure Execution where
  /-- The available models with their digests, unless listing them
  raises. -/
  models : Option (List (String × Option String))
  /-- Whether the run still exists. -/
  runExists : Bool
  /-- The digests recorded when the run was created. -/
  runDigests : List (String × Option String)
  /-- How the examination ends. -/
  examination : Examination

/-- The call by which `_execute` gives a task back. A task whose run is
gone is not given back at all. -/
inductive Call
  | retry (waiting : Bool)
  | finish (o : Outcome)

/-- The call after the examination. -/
def Examination.call : Examination → Call
  | .report o => .finish o
  | .invalid => .finish { success := false }
  | .transient => .retry false

/-- A digest that is `None` or empty is not compared. -/
def givenDigest (digest : Option String) : Option String := digest.filter (· ≠ "")

/-- `_execute` up to the call it makes; without a run it makes none. A
model that is missing, or is not the one of the run, parks the task; an
examination that fails for a passing reason is tried again. -/
def execute (task : TaskRow) (e : Execution) : Option Call :=
  match e.models with
  | none => some (.retry false)
  | some models =>
    if ¬ e.runExists then none
    else
      match models.lookup task.modelId with
      | none => some (.retry true)
      | some digest =>
        match givenDigest (e.runDigests.lookup task.modelId).join, givenDigest digest with
        | some expected, some actual =>
          if expected ≠ actual then some (.retry true) else some e.examination.call
        | _, _ => some e.examination.call

/-! ## The system

Workers and creations take steps in any order. The rows that workers hold
are part of the state, since they are what the workers write back; they
may be older than the rows in the table. -/

/-- How far a `create_run` has come. It is kept for each creation, since
the next statement is only made by the call that made the one before. -/
inductive CreateStage
  | runInserted | tasksInserted | returned
  deriving DecidableEq, Repr

/-- A `create_run` call that has inserted its run. Its statements are
committed one by one, so how far it has come is part of the state of the
system. -/
structure Creation where
  id : ℕ
  request : RunRequest
  stage : CreateStage

/-- The tables, the calls of `create_run`, the rows that workers hold from
`lease_task`, and – as a record of what was counted, read by no statement
– the tasks whose summary a `finish_task` increased. -/
structure BenchmarkSystem where
  db : BenchmarkDb
  creations : List Creation
  held : List TaskRow
  counted : List TaskKey

/-- The empty system. -/
def BenchmarkSystem.empty : BenchmarkSystem := ⟨⟨[], [], []⟩, [], [], []⟩

/-- One statement or transaction. A run of the system is any sequence of
them that the database allows, so every interleaving of creations and
workers is among the runs. -/
inductive BenchmarkAction
  | insertRun (id : ℕ) (request : RunRequest) (now : Timestamp)
  | insertTasks (id : ℕ) (receipts : List ℕ)
  | insertSummaries (id : ℕ)
  | lease (now : Timestamp) (locked : List TaskKey)
  | retry (task : TaskRow) (waiting : Bool) (now : Timestamp)
  | finish (task : TaskRow) (o : Outcome) (now : Timestamp)

namespace BenchmarkSystem

/-- The creation of a run. -/
def creation? (s : BenchmarkSystem) (id : ℕ) (stage : CreateStage) : Option Creation :=
  s.creations.find? (fun c => c.id = id ∧ c.stage = stage)

/-- A creation moves on to its next stage. -/
def advance (s : BenchmarkSystem) (id : ℕ) (stage : CreateStage) : List Creation :=
  s.creations.map (fun c => if c.id = id then { c with stage := stage } else c)

/-- One step of the system: a statement that commits, or a transaction.
What a worker does with a task in between is not a step. -/
def step (s : BenchmarkSystem) : BenchmarkAction → Option BenchmarkSystem
  | .insertRun id request now => do
    let db ← s.db.insertRun id request now
    return { s with db := db, creations := s.creations ++ [⟨id, request, .runInserted⟩] }
  | .insertTasks id receipts => do
    let c ← s.creation? id .runInserted
    let db ← s.db.insertTasks id c.request.modelIds c.request.receiptIds receipts
    return { s with db := db, creations := s.advance id .tasksInserted }
  | .insertSummaries id => do
    let c ← s.creation? id .tasksInserted
    let db ← s.db.insertSummaries id c.request.modelIds c.request.modelDigests
    return { s with db := db, creations := s.advance id .returned }
  | .lease now locked => do
    let (db, row) ← s.db.leaseTask now locked
    return { s with db := db, held := row :: s.held }
  | .retry task waiting now =>
    if task ∈ s.held then
      some { s with db := s.db.retryTask task waiting now, held := s.held.erase task }
    else none
  | .finish task o now =>
    if task ∈ s.held then do
      let db ← s.db.finishTask task o now
      return { s with
        db := db
        held := s.held.erase task
        counted := if ∃ row ∈ s.db.summaries, row.Of task.toTaskKey
          then task.toTaskKey :: s.counted else s.counted }
    else none

/-- What leasing can do: an eligible row becomes running, and a worker
holds it as it was. -/
theorem step_lease {s s' : BenchmarkSystem} {now : Timestamp} {locked : List TaskKey}
    (h : s.step (.lease now locked) = some s') :
    ∃ row ∈ s.db.tasks, row.Leasable now ∧ s' = { s with
      db := s.db.updateTask row.toTaskKey (TaskRow.leased now), held := row :: s.held } := by
  obtain ⟨⟨db, row⟩, hdb, hs'⟩ := Option.bind_eq_some_iff.mp h
  obtain ⟨selected, hselected, hlease⟩ := Option.bind_eq_some_iff.mp hdb
  obtain ⟨hmem, helig⟩ := List.mem_filter.mp (mem_of_firstBy hselected)
  split at hlease
  · exact absurd hlease (by simp)
  · obtain ⟨rfl, rfl⟩ := Prod.mk.inj (Option.some.inj hlease)
    exact ⟨selected, hmem, (of_decide_eq_true helig).1, (Option.some.inj hs').symm⟩

/-- What retrying can do: the row of a held task, if there is one, is
rewritten. -/
theorem step_retry {s s' : BenchmarkSystem} {task : TaskRow} {waiting : Bool} {now : Timestamp}
    (h : s.step (.retry task waiting now) = some s') :
    task ∈ s.held ∧ s' = { s with
      db := s.db.updateTask task.toTaskKey (TaskRow.retried task waiting now)
      held := s.held.erase task } := by
  change (if task ∈ s.held then _ else none) = some s' at h
  split at h
  · next hheld => exact ⟨hheld, (Option.some.inj h).symm⟩
  · exact absurd h (by simp)

/-- What finishing can do. The task is one that some worker holds; the
rows may have gone meanwhile, and only a summary that is there counts the
outcome. -/
theorem step_finish {s s' : BenchmarkSystem} {task : TaskRow} {o : Outcome} {now : Timestamp}
    (h : s.step (.finish task o now) = some s') :
    task ∈ s.held ∧ ∃ db, s.db.finishTask task o now = some db ∧ s' = { s with
      db := db
      held := s.held.erase task
      counted := if ∃ row ∈ s.db.summaries, row.Of task.toTaskKey
        then task.toTaskKey :: s.counted else s.counted } := by
  change (if task ∈ s.held then _ else none) = some s' at h
  split at h
  · next hheld =>
    obtain ⟨db, hdb, hs'⟩ := Option.bind_eq_some_iff.mp h
    exact ⟨hheld, db, hdb, (Option.some.inj hs').symm⟩
  · exact absurd h (by simp)

end BenchmarkSystem

/-! ## A run of one task -/

/-- A benchmark of one model on one receipt. -/
def oneTaskRequest : RunRequest where
  modelIds := ["llava"]
  receiptIds := [7]
  fingerprint := ""
  modelDigests := [("llava", none)]
  timeout := 600
  policy := .all
  absolute := none
  relative := none
  applyFlags := false
  promptVersion := "v1"
  scoringVersion := "v1"

/-- The statements of `create_run`. -/
def createOneTask : List BenchmarkAction :=
  [.insertRun 1 oneTaskRequest 0, .insertTasks 1 [7], .insertSummaries 1]

/-- The task as a worker first holds it. -/
def firstLease : TaskRow := (⟨1, "llava", 7⟩ : TaskKey).queued

end VisionBill
