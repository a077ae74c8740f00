import VisionBill.Lib.Transactions
import VisionBill.Benchmark
import VisionBill.Database

/-!
# The completion of a benchmark run

`finish_task` is a transaction of three statements: the task is deleted,
the summary of its model counts it, and the run is completed unless a task
of it is left. Workers run such transactions at the same time, and under
READ COMMITTED the last statement does not see the tasks that others have
deleted but not committed. The rows that serialize two workers are the
task and the summary, so workers that finish tasks of different models do
not wait for each other.

If every check that still sees a task can leave the completion to somebody
else – a check to come, or one that has succeeded and is not committed –
then a run is completed exactly if it has no task left (`completed_iff`).
Two workers whose checks miss each other leave a run without tasks that is
never completed (`twoModels_stranded`).

## What a check relies on

A check that sees a task concludes that the run is not done. That is right
as long as somebody will look again. Whoever has deleted the task that is
seen, but not yet checked, will; and so will whoever finishes a task that
nobody has deleted. But if the transaction that has deleted it has made
its own check already, and that one saw a task as well, nobody looks
again. `MayLeave` says which tasks a check may rely on, and
`ChecksLeaveRightly` asks this of each check before it is made.

The condition is on the state before a step. It does not mention what the
run becomes: both checks may miss each other, or one of them may come late
enough, and which of these is the case can be seen when a check is about
to be made.

## The invariant

What matters in `Watched` are two cases. If the run is completed, no task
of it is left, for anybody who looks. If it is not, there is somebody who
will look. Deletions, counts and rollbacks do not change whom a check
relies on; a commit makes the writes of one transaction visible to all,
and that is the long case.

The three statements, run alone, are the operation that other modules
treat as one step (`alone_program`).
-/

namespace VisionBill

/-! ## Statements

`finish_task` deletes the task, adds to the summary of its model, and
completes the run if no task of it is left. The last of them reads the
tasks of others, of which it sees only what has been committed. -/

/-- The rows of the benchmark tables, as they are locked. A statement that
meets no row locks none. -/
inductive BenchmarkRow
  | task (key : TaskKey)
  | summary (runId : ℕ) (modelId : String)
  | run (id : ℕ)
  deriving DecidableEq

/-- The statements of `finish_task`. They are kept apart since another
worker may commit between two of them, and each reads what has been
committed by then. -/
inductive FinishStatement
  /-- `DELETE FROM benchmark_tasks`. -/
  | deleteTask (key : TaskKey)
  /-- `UPDATE benchmark_summaries`. -/
  | updateSummary (key : TaskKey) (o : Outcome)
  /-- `UPDATE benchmark_runs ... WHERE NOT EXISTS`; `now()` is the time at
  which the transaction began. -/
  | completeRun (runId : ℕ) (now : Timestamp)

/-- What they write. Each is about one row or one run, so that locks can
be taken for it. -/
inductive BenchmarkWrite
  | deleteTask (key : TaskKey)
  | addToSummary (key : TaskKey) (o : Outcome)
  | completeRun (runId : ℕ) (now : Timestamp)

namespace BenchmarkDb

/-- The effect of a row that is written. It does not depend on what the
transaction has read, only on what it writes. -/
def write (db : BenchmarkDb) : BenchmarkWrite → BenchmarkDb
  | .deleteTask key => { db with tasks := db.tasks.filter (fun row => row.toTaskKey ≠ key) }
  | .addToSummary key o => { db with
      summaries := db.summaries.map (fun row => if row.Of key then row.add o else row) }
  | .completeRun runId now => { db with
      runs := db.runs.map fun run =>
        if run.id = runId then { run with status := .completed, completedAt := some now }
        else run }

/-- The status of a run. -/
def runStatus? (db : BenchmarkDb) (runId : ℕ) : Option RunStatus :=
  (db.runs.find? (fun run => run.id = runId)).map RunRow.status

/-- Whether a run has no task left: the `NOT EXISTS` of `finish_task`. It
is evaluated on what the transaction sees, which is what others have
committed and what it has deleted itself. So it may be false although
every task has been deleted by somebody. -/
def NoTaskOf (db : BenchmarkDb) (runId : ℕ) : Prop := ∀ task ∈ db.tasks, task.runId ≠ runId

instance (db : BenchmarkDb) (runId : ℕ) : Decidable (db.NoTaskOf runId) :=
  inferInstanceAs (Decidable (∀ _ ∈ _, _))

end BenchmarkDb

namespace FinishStatement

/-- None of them returns rows. -/
@[reducible] def Ret (_ : FinishStatement) : Type := Unit

/-- What a statement writes. A counter that does not fit its column is an
error, and the transaction is rolled back then. -/
def eval : (op : FinishStatement) → BenchmarkDb → Except DbError (List BenchmarkWrite × Ret op)
  | .deleteTask key, db =>
    .ok (if ∃ row ∈ db.tasks, row.toTaskKey = key then [.deleteTask key] else [], ())
  | .updateSummary key o, db =>
    if ∀ row ∈ (db.write (.addToSummary key o)).summaries, row.Fits then
      .ok (if ∃ row ∈ db.summaries, row.Of key then [.addToSummary key o] else [], ())
    else .error .dataError
  | .completeRun runId now, db =>
    .ok (if (∃ run ∈ db.runs, run.id = runId) ∧ db.NoTaskOf runId then
      [.completeRun runId now] else [], ())

/-- The rows of a write. -/
def rows : BenchmarkWrite → List BenchmarkRow
  | .deleteTask key => [.task key]
  | .addToSummary key _ => [.summary key.runId key.modelId]
  | .completeRun runId _ => [.run runId]

/-- The rows that a statement locks: those that it changes. A run that
still has tasks does not meet the condition of the `UPDATE`, which does
not wait for it. -/
def locks (op : FinishStatement) (db : BenchmarkDb) : List BenchmarkRow :=
  match op.eval db with
  | .ok (writes, _) => writes.flatMap rows
  | .error _ => []

/-- The statements under READ COMMITTED. -/
def sql : Statements FinishStatement.Ret DbError BenchmarkDb BenchmarkWrite BenchmarkRow where
  eval := eval
  locks := locks
  write := BenchmarkDb.write

end FinishStatement
/-! ## The transaction

The three statements make up one transaction, with a lock on each row that
is written. What a transaction has written is collected until it commits,
and its own statements see it. -/

/-- A call of `finish_task`. The task is the row as it was leased, which
may no longer be there. -/
structure FinishRequest where
  task : TaskRow
  outcome : Outcome
  now : Timestamp

namespace FinishRequest

open FinishStatement

variable (r : FinishRequest)

/-- Its last statement. -/
def complete : Program FinishStatement.Ret DbError Unit :=
  Program.perform (.completeRun r.task.runId r.now)

/-- Its last two statements. -/
def count : Program FinishStatement.Ret DbError Unit := do
  Program.perform (.updateSummary r.task.toTaskKey r.outcome)
  r.complete

/-- `finish_task`, statement by statement. -/
def program : Program FinishStatement.Ret DbError Unit := do
  Program.perform (.deleteTask r.task.toTaskKey)
  r.count

/-- A task that is not there need not be deleted. -/
theorem view_deleteTask (db : BenchmarkDb) (key : TaskKey) :
    sql.view db (if ∃ row ∈ db.tasks, row.toTaskKey = key then [.deleteTask key] else [])
      = db.write (.deleteTask key) := by
  split
  · rfl
  · next h =>
    have hfilter : db.tasks.filter (fun row => row.toTaskKey ≠ key) = db.tasks := by
      refine List.filter_eq_self.mpr fun row hrow => decide_eq_true fun heq => h ⟨row, hrow, heq⟩
    show db = { db with tasks := _ }
    rw [hfilter]

/-- A summary that is not there counts nothing. So the statement may be
read as one that always writes, and the cases need not be split wherever
it occurs. -/
theorem view_updateSummary (db : BenchmarkDb) (key : TaskKey) (o : Outcome) :
    sql.view db (if ∃ row ∈ db.summaries, row.Of key then [.addToSummary key o] else [])
      = db.write (.addToSummary key o) := by
  split
  · rfl
  · next h =>
    have hmap : db.summaries.map (fun row => if row.Of key then row.add o else row)
        = db.summaries :=
      (List.map_congr_left fun row hrow => if_neg fun hof => h ⟨row, hrow, hof⟩).trans
        (List.map_id' db.summaries)
    show db = { db with summaries := _ }
    rw [hmap]

/-- A run is completed if it is there and has no task left. What it is
that has no task left is the database as the transaction sees it, with its
own deletion. -/
theorem view_completeRun (db : BenchmarkDb) (runId : ℕ) (now : Timestamp) :
    sql.view db (if (∃ run ∈ db.runs, run.id = runId) ∧ db.NoTaskOf runId then
        [.completeRun runId now] else [])
      = { db with
        runs := db.runs.map fun run =>
          if run.id = runId ∧ db.NoTaskOf runId then
            { run with status := .completed, completedAt := some now }
          else run } := by
  split
  · next h =>
    show { db with runs := _ } = { db with runs := _ }
    refine congrArg (fun runs => { db with runs := runs }) (List.map_congr_left fun run _ => ?_)
    exact if_congr (iff_self_and.mpr fun _ => h.2) rfl rfl
  · next h =>
    have hmap : (db.runs.map fun run =>
        if run.id = runId ∧ db.NoTaskOf runId then
          { run with status := .completed, completedAt := some now }
        else run) = db.runs :=
      (List.map_congr_left fun run hrun => if_neg fun hand => h ⟨⟨run, hrun, hand.1⟩, hand.2⟩).trans
        (List.map_id' db.runs)
    show db = { db with runs := _ }
    rw [hmap]

/-- **The statements of `finish_task`, run alone, are the operation** that
takes it in one piece. So what is proved of that operation holds of
transactions that do not overlap. -/
theorem alone_program (db : BenchmarkDb) :
    sql.alone r.program db = match db.finishTask r.task r.outcome r.now with
      | some db' => .ok (db', ())
      | none => .error .dataError := by
  let db₁ := db.write (.deleteTask r.task.toTaskKey)
  let db₂ := db₁.write (.addToSummary r.task.toTaskKey r.outcome)
  have hdelete : sql.alone r.program db = sql.alone r.count db₁ := by
    refine (Statements.alone_of_ok (a := ()) rfl).trans ?_
    rw [view_deleteTask]
    rfl
  rw [hdelete]
  by_cases hfits : ∀ row ∈ db₂.summaries, row.Fits
  · have hcount : sql.alone r.count db₁ = sql.alone r.complete db₂ := by
      refine (Statements.alone_of_ok (a := ()) (if_pos hfits)).trans ?_
      rw [view_updateSummary]
      rfl
    have hfinish : db.finishTask r.task r.outcome r.now = some { db₂ with
        runs := db₂.runs.map fun run =>
          if run.id = r.task.runId ∧ db₂.NoTaskOf r.task.runId then
            { run with status := .completed, completedAt := some r.now }
          else run } := if_pos hfits
    rw [hcount, hfinish, ← view_completeRun]
    exact (Statements.alone_of_ok (a := ()) rfl).trans rfl
  · have hfinish : db.finishTask r.task r.outcome r.now = none := if_neg hfits
    rw [hfinish]
    exact Statements.alone_of_error (if_neg hfits)

end FinishRequest

/-! ## What a transaction has done -/

/-- The tasks that some writes delete. -/
def deleted (writes : List BenchmarkWrite) : List TaskKey := writes.filterMap fun
  | .deleteTask key => some key
  | _ => none

/-- Whether a write completes a run. -/
def BenchmarkWrite.Completes (runId : ℕ) : BenchmarkWrite → Prop
  | .completeRun id _ => id = runId
  | _ => False

instance (runId : ℕ) : DecidablePred (BenchmarkWrite.Completes runId)
  | .deleteTask _ => .isFalse id
  | .addToSummary _ _ => .isFalse id
  | .completeRun _ _ => decEq _ _

/-- Whether some writes complete a run. -/
abbrev Completing (runId : ℕ) (writes : List BenchmarkWrite) : Prop :=
  ∃ w ∈ writes, w.Completes runId

theorem completing_append {runId : ℕ} {writes writes' : List BenchmarkWrite} :
    Completing runId (writes ++ writes') ↔ Completing runId writes ∨ Completing runId writes' := by
  unfold Completing
  simp only [List.mem_append, or_and_right, exists_or]

theorem not_completing_ite {c : Prop} [Decidable c] {w : BenchmarkWrite} {runId : ℕ}
    (hw : ¬ w.Completes runId) : ¬ Completing runId (if c then [w] else []) := by
  rintro ⟨w', hw', hc⟩
  split at hw'
  · exact hw (List.mem_singleton.mp hw' ▸ hc)
  · exact List.not_mem_nil hw'

theorem mem_deleted {key : TaskKey} {writes : List BenchmarkWrite} :
    key ∈ deleted writes ↔ .deleteTask key ∈ writes := by
  unfold deleted
  rw [List.mem_filterMap]
  constructor
  · rintro ⟨w, hw, heq⟩
    cases w with
    | deleteTask key' => exact Option.some.inj heq ▸ hw
    | addToSummary key' o => exact absurd heq (by simp)
    | completeRun runId now => exact absurd heq (by simp)
  · exact fun hw => ⟨_, hw, rfl⟩

@[simp] theorem deleted_append (writes writes' : List BenchmarkWrite) :
    deleted (writes ++ writes') = deleted writes ++ deleted writes' := List.filterMap_append

/-- A run is there if it has a status. -/
theorem BenchmarkDb.runStatus?_ne_none_iff {db : BenchmarkDb} {runId : ℕ} :
    db.runStatus? runId ≠ none ↔ ∃ run ∈ db.runs, run.id = runId := by
  unfold runStatus?
  rw [Ne, Option.map_eq_none_iff, List.find?_eq_none]
  push Not
  simp only [decide_eq_true_iff]

namespace FinishStatement

/-- The tasks that a transaction sees are those that it has not deleted.
Nothing in `finish_task` inserts a task, so this is all there is to its
view of them. -/
theorem mem_tasks_view {db : BenchmarkDb} {writes : List BenchmarkWrite} {task : TaskRow} :
    task ∈ (sql.view db writes).tasks ↔ task ∈ db.tasks ∧ task.toTaskKey ∉ deleted writes := by
  induction writes generalizing db with
  | nil => exact (and_iff_left List.not_mem_nil).symm
  | cons w writes ih =>
    have hview : sql.view db (w :: writes) = sql.view (db.write w) writes := rfl
    rw [hview, ih]
    cases w with
    | deleteTask key =>
      show task ∈ db.tasks.filter _ ∧ task.toTaskKey ∉ deleted writes
        ↔ task ∈ db.tasks ∧ task.toTaskKey ∉ key :: deleted writes
      rw [List.mem_filter, List.mem_cons, not_or, decide_eq_true_iff, and_assoc]
    | addToSummary key o => rfl
    | completeRun runId now => rfl

/-- A write leaves the runs as they are that it does not complete. The
other two writes are about tasks and summaries. -/
theorem runStatus?_write {db : BenchmarkDb} {w : BenchmarkWrite} {runId : ℕ} :
    (db.write w).runStatus? runId = if w.Completes runId then
      (db.runStatus? runId).map (fun _ => .completed) else db.runStatus? runId := by
  cases w with
  | deleteTask key => rfl
  | addToSummary key o => rfl
  | completeRun id now =>
    show ((db.runs.map fun run => if run.id = id then
        { run with status := .completed, completedAt := some now } else run).find?
          (fun run => run.id = runId)).map RunRow.status
      = if id = runId then (db.runStatus? runId).map (fun _ => .completed) else db.runStatus? runId
    -- completing a run does not change which row is found
    rw [List.find?_map]
    have hid : (fun run : RunRow => decide (run.id = runId)) ∘ (fun run => if run.id = id then
        { run with status := .completed, completedAt := some now } else run)
        = fun run => decide (run.id = runId) := by
      funext run
      show decide ((if run.id = id then _ else run).id = runId) = decide (run.id = runId)
      split <;> rfl
    rw [hid, BenchmarkDb.runStatus?]
    cases hfind : db.runs.find? (fun run => run.id = runId) with
    | none => split <;> rfl
    | some run =>
      have hp := List.find?_some hfind
      have hrun : run.id = runId := of_decide_eq_true hp
      rw [Option.map_some, Option.map_some, hrun]
      by_cases heq : id = runId
      · rw [if_pos heq, if_pos heq.symm]
        rfl
      · rw [if_neg heq, if_neg (Ne.symm heq)]
        rfl

/-- The status of a run as a transaction leaves it. Completing is never
undone, so one write that completes the run decides, wherever it
stands. -/
theorem runStatus?_view {db : BenchmarkDb} {writes : List BenchmarkWrite} {runId : ℕ} :
    (sql.view db writes).runStatus? runId = if Completing runId writes then
      (db.runStatus? runId).map (fun _ => .completed) else db.runStatus? runId := by
  induction writes generalizing db with
  | nil => rfl
  | cons w writes ih =>
    have hview : sql.view db (w :: writes) = sql.view (db.write w) writes := rfl
    rw [hview, ih, runStatus?_write]
    by_cases hw : w.Completes runId
    · rw [if_pos hw, if_pos (show Completing runId (w :: writes) from ⟨w, List.mem_cons_self, hw⟩),
        Option.map_map]
      split <;> rfl
    · rw [if_neg hw]
      refine if_congr ?_ rfl rfl
      exact ((List.exists_mem_cons_iff _ _ _).trans (or_iff_right hw)).symm

end FinishStatement

/-! ## Workers

Two workers that finish the last two tasks at the same time may both find
that another task is left. The condition excludes this, check by check:
one that sees a task has to be able to leave the completion to somebody
else. -/

/-- Workers that finish tasks. Each has its own transaction, and they wait
for one another only where they write to the same row. -/
abbrev Workers :=
  Sessions FinishStatement.Ret DbError Unit BenchmarkDb BenchmarkWrite BenchmarkRow FinishRequest

/-- A transaction of a worker. -/
abbrev FinishPhase := Phase FinishStatement.Ret DbError Unit BenchmarkWrite

/-- Whether an open transaction has made its check. -/
def FinishPhase.Checked : FinishPhase → Prop
  | .active _ (.done _) => True
  | _ => False

instance : DecidablePred FinishPhase.Checked
  | .active _ (.done _) => .isTrue trivial
  | .active _ (.raise _) => .isFalse id
  | .active _ (.call _ _) => .isFalse id
  | .committed _ => .isFalse id
  | .rolledBack => .isFalse id

theorem FinishPhase.checked_active {writes : List BenchmarkWrite}
    {p : Program FinishStatement.Ret DbError Unit} :
    FinishPhase.Checked (.active writes p) ↔ p = .done () := by
  cases p with
  | done a => exact iff_of_true trivial rfl
  | raise e => exact iff_of_false id (by simp)
  | call op k => exact iff_of_false id (by simp)

/-- Whether the completion of a run can be left to another: a check has
succeeded and is not committed, or a task is seen that no open transaction
has deleted that has made its check. The second kind of task will be
finished by somebody, who checks after that. -/
def MayLeave (runId : ℕ) (sessions : List (FinishRequest × FinishPhase)) (seen : BenchmarkDb) :
    Prop :=
  (∃ session ∈ sessions, Completing runId session.2.writes)
    ∨ ∃ task ∈ seen.tasks, task.runId = runId ∧ ∀ session ∈ sessions,
      FinishPhase.Checked session.2 → task.toTaskKey ∉ deleted session.2.writes

instance (runId : ℕ) (sessions : List (FinishRequest × FinishPhase)) (seen : BenchmarkDb) :
    Decidable (MayLeave runId sessions seen) :=
  inferInstanceAs (Decidable (_ ∨ _))

/-- Whether the next statement of a transaction is no check of a run, or
one that succeeds, or one that may leave the completion to another. -/
def LeavesRightly (runId : ℕ) (s : Workers) : FinishPhase → Prop
  | .active writes (.call (.completeRun id _) _) => id = runId →
    (FinishStatement.sql.view s.stored writes).NoTaskOf runId
      ∨ MayLeave runId s.sessions (FinishStatement.sql.view s.stored writes)
  | _ => True

instance (runId : ℕ) (s : Workers) : DecidablePred (LeavesRightly runId s)
  | .active _ (.call (.completeRun _ _) _) => inferInstanceAs (Decidable (_ → _ ∨ _))
  | .active _ (.call (.deleteTask _) _) => .isTrue trivial
  | .active _ (.call (.updateSummary _ _) _) => .isTrue trivial
  | .active _ (.done _) => .isTrue trivial
  | .active _ (.raise _) => .isTrue trivial
  | .committed _ => .isTrue trivial
  | .rolledBack => .isTrue trivial

/-- Every check of a run that still sees tasks may leave the completion to
another. This is asked before the statement, on what its transaction
sees. -/
def ChecksLeaveRightly (runId : ℕ) (s : Workers) : Sessions.Action FinishRequest → Prop
  | .advance t => ∀ session ∈ s.sessions[t]?, LeavesRightly runId s session.2
  | _ => True

instance (runId : ℕ) : ∀ s a, Decidable (ChecksLeaveRightly runId s a)
  | s, .advance t => inferInstanceAs (Decidable (∀ session ∈ s.sessions[t]?, _))
  | _, .begin _ => .isTrue trivial
  | _, .commit _ => .isTrue trivial
  | _, .rollback _ => .isTrue trivial

namespace FinishStatement

theorem locksWrites : sql.LocksWrites rows := by
  intro op db writes a heval w hw key hkey
  have heval' : op.eval db = .ok (writes, a) := heval
  show key ∈ locks op db
  unfold locks
  rw [heval']
  exact List.mem_flatMap.mpr ⟨w, hw, hkey⟩

end FinishStatement

/-- What is known of an open transaction: it deletes no other task than
its own, it completes a run in its last statement, and the rest is one of
the parts of `finish_task`. It holds whatever the others do. -/
structure Working (r : FinishRequest) (writes : List BenchmarkWrite)
    (p : Program FinishStatement.Ret DbError Unit) : Prop where
  own : ∀ key ∈ deleted writes, key = r.task.toTaskKey
  last : ∀ runId, Completing runId writes → p = .done ()
  rest : p = r.program ∨ p = r.count ∨ p = r.complete ∨ p = .done () ∨ ∃ e, p = .raise e

namespace Working

open FinishStatement

variable {r : FinishRequest} {writes writes' : List BenchmarkWrite}

theorem done_ne_call {op : FinishStatement} {k : Except DbError op.Ret → _} {a : Unit} :
    (.done a : Program FinishStatement.Ret DbError Unit) ≠ .call op k := by simp

theorem begun : Working r [] r.program where
  own := fun _ h => absurd h List.not_mem_nil
  last := fun _ ⟨_, h, _⟩ => absurd h List.not_mem_nil
  rest := .inl rfl

/-- A statement that fails. -/
theorem failed {op : FinishStatement} {k} (h : Working r writes (.call op k)) (e : DbError) :
    Working r writes (.raise e) where
  own := h.own
  last := fun runId hc => absurd (h.last runId hc) (by simp)
  rest := .inr (.inr (.inr (.inr ⟨e, rfl⟩)))

/-- A statement that succeeds: the deletion, the count or the check. Only
the check completes a run, it is the last statement, and what it looked at
is said with it. -/
theorem advance {op : FinishStatement} {k} {db : BenchmarkDb} {a : op.Ret}
    (h : Working r writes (.call op k)) (heval : op.eval db = .ok (writes', a)) :
    Working r (writes ++ writes') (k (.ok a))
      ∧ ((k (.ok a) ≠ .done () ∧ ∀ runId, ¬ Completing runId (writes ++ writes'))
        ∨ (op = .completeRun r.task.runId r.now ∧ deleted (writes ++ writes') = deleted writes
          ∧ ∀ runId, Completing runId (writes ++ writes') ↔ runId = r.task.runId
            ∧ (∃ run ∈ db.runs, run.id = runId) ∧ db.NoTaskOf runId)) := by
  have hnone : ∀ runId, ¬ Completing runId writes := fun runId hc =>
    absurd (h.last runId hc) (by simp)
  have hquiet : (∀ runId, ¬ Completing runId writes') →
      ∀ runId, ¬ Completing runId (writes ++ writes') := fun hquiet runId hc =>
    (completing_append.mp hc).elim (hnone runId) (hquiet runId)
  rcases h.rest with hp | hp | hp | hp | ⟨e, hp⟩
  · -- the deletion
    obtain ⟨rfl, hk⟩ := Program.call.inj (hp.trans rfl)
    obtain ⟨rfl, -⟩ := Prod.mk.inj (Except.ok.inj heval)
    have hrest : k (.ok a) = r.count := by
      rw [eq_of_heq hk]
      rfl
    have hnot := hquiet fun runId => not_completing_ite (c := ∃ row ∈ db.tasks, _) id
    rw [hrest]
    refine ⟨⟨fun key hkey => ?_, fun runId hc => absurd hc (hnot runId), .inr (.inl rfl)⟩,
      .inl ⟨fun hdone => absurd (hdone.symm.trans rfl) done_ne_call, hnot⟩⟩
    rw [deleted_append, List.mem_append] at hkey
    rcases hkey with hkey | hkey
    · exact h.own key hkey
    · split at hkey
      · exact List.mem_singleton.mp hkey
      · exact absurd hkey List.not_mem_nil
  · -- the count
    obtain ⟨rfl, hk⟩ := Program.call.inj (hp.trans rfl)
    simp only [eval] at heval
    split at heval
    · obtain ⟨rfl, -⟩ := Prod.mk.inj (Except.ok.inj heval)
      have hrest : k (.ok a) = r.complete := by
        rw [eq_of_heq hk]
        rfl
      have hnot := hquiet fun runId => not_completing_ite (c := ∃ row ∈ db.summaries, _) id
      rw [hrest]
      refine ⟨⟨fun key hkey => ?_, fun runId hc => absurd hc (hnot runId), .inr (.inr (.inl rfl))⟩,
        .inl ⟨fun hdone => absurd (hdone.symm.trans rfl) done_ne_call, hnot⟩⟩
      rw [deleted_append, List.mem_append] at hkey
      rcases hkey with hkey | hkey
      · exact h.own key hkey
      · split at hkey <;> exact absurd hkey List.not_mem_nil
    · exact absurd heval (by simp)
  · -- the check
    obtain ⟨rfl, hk⟩ := Program.call.inj (hp.trans rfl)
    obtain ⟨rfl, -⟩ := Prod.mk.inj (Except.ok.inj heval)
    have hrest : k (.ok a) = .done () := by
      rw [eq_of_heq hk]
      rfl
    have hdeleted : ∀ (c : Prop) [Decidable c], deleted (writes
        ++ if c then [.completeRun r.task.runId r.now] else []) = deleted writes := by
      intro c _
      rw [deleted_append]
      split <;> exact List.append_nil _
    rw [hrest]
    refine ⟨⟨fun key hkey => h.own key ?_, fun _ _ => rfl, .inr (.inr (.inr (.inl rfl)))⟩,
      .inr ⟨rfl, hdeleted _, fun runId => ?_⟩⟩
    · rw [hdeleted] at hkey
      exact hkey
    · rw [completing_append, or_iff_right (hnone runId)]
      constructor
      · rintro ⟨w, hw, hc⟩
        split at hw
        · next hcheck =>
          obtain rfl := List.mem_singleton.mp hw
          obtain rfl : r.task.runId = runId := hc
          exact ⟨rfl, hcheck⟩
        · exact absurd hw List.not_mem_nil
      · rintro ⟨rfl, hcheck⟩
        rw [if_pos hcheck]
        exact ⟨_, List.mem_singleton_self _, rfl⟩
  · exact absurd hp (by simp)
  · exact absurd hp (by simp)

end Working

/-! ## The invariant

Of a run that is completed it says that no task is left, for anybody who
looks. Of one that is not it says that somebody will look again. There is
a lemma for each step of a transaction, and committing is the long
case. -/

/-- **The invariant**: a run that is completed, or is completed by an open
transaction, has no task left there; and the completion of any other run
can be left to somebody. -/
structure Watched (runId : ℕ) (s : Workers) : Prop where
  working : ∀ (t : ℕ) r writes p, s.sessions[t]? = some (r, Phase.active writes p) → Working r writes p
  owns : Statements.Owns FinishStatement.rows s
  emptied : ∀ (t : ℕ) r writes p, s.sessions[t]? = some (r, Phase.active writes p) →
    Completing runId writes → (FinishStatement.sql.view s.stored writes).NoTaskOf runId
  stored : s.stored.runStatus? runId ≠ none
  completed : s.stored.runStatus? runId = some .completed → s.stored.NoTaskOf runId
  left : s.stored.runStatus? runId ≠ some .completed →
    ¬ s.stored.NoTaskOf runId ∧ MayLeave runId s.sessions s.stored

section Invariant

open FinishStatement

variable {runId : ℕ} {s s' : Workers} {t : ℕ} {r : FinishRequest}

/-- What another transaction does leaves what can be left, if it does not
complete the run and has deleted what is seen no more. -/
theorem MayLeave.setPhase {sessions : List (FinishRequest × FinishPhase)}
    {seen seen' : BenchmarkDb} (h : MayLeave runId sessions seen) {old phase : FinishPhase}
    (hsession : sessions[t]? = some (r, old)) (hold : ¬ Completing runId old.writes)
    (hseen : ∀ task ∈ seen.tasks, task.runId = runId →
      (∀ session ∈ sessions, FinishPhase.Checked session.2 →
        task.toTaskKey ∉ deleted session.2.writes) →
      task ∈ seen'.tasks
        ∧ (FinishPhase.Checked phase → task.toTaskKey ∉ deleted phase.writes)) :
    MayLeave runId (Statements.setPhase sessions t r phase) seen' := by
  rcases h with ⟨session, hmem, hcompleting⟩ | ⟨task, htask, hrun, hall⟩
  · refine .inl ⟨session, ?_, hcompleting⟩
    obtain ⟨t', ht'⟩ := List.mem_iff_getElem?.mp hmem
    have hne : t' ≠ t := by
      rintro rfl
      rw [hsession] at ht'
      obtain rfl := Option.some.inj ht'
      exact hold hcompleting
    refine List.mem_of_getElem? (i := t') ?_
    rw [Statements.getElem?_setPhase_of_ne hne, ht']
  · obtain ⟨htask', hphase⟩ := hseen task htask hrun hall
    refine .inr ⟨task, htask', hrun, fun session hmem hchecked => ?_⟩
    obtain ⟨t', ht'⟩ := List.mem_iff_getElem?.mp hmem
    rcases Statements.getElem?_setPhase ht' with ⟨rfl, rfl⟩ | ⟨-, ht'⟩
    · exact hphase hchecked
    · exact hall session (List.mem_of_getElem? ht') hchecked

/-- A new phase of a transaction that keeps what is stored. What has to be
shown of it is collected here, since beginning, advancing, waiting and
rolling back are all of this kind. -/
theorem Watched.setPhase (h : Watched runId s) {phase : FinishPhase} {owner}
    (howns : Statements.Owns rows
      { s with owner := owner, sessions := Statements.setPhase s.sessions t r phase })
    (hworking : ∀ writes p, phase = .active writes p → Working r writes p)
    (hemptied : Completing runId phase.writes → (sql.view s.stored phase.writes).NoTaskOf runId)
    (hleft : s.stored.runStatus? runId ≠ some .completed →
      MayLeave runId (Statements.setPhase s.sessions t r phase) s.stored) :
    Watched runId
      { s with owner := owner, sessions := Statements.setPhase s.sessions t r phase } where
  working := fun t' r' writes p hsession => by
    rcases Statements.getElem?_setPhase hsession with ⟨-, heq⟩ | ⟨-, hsession⟩
    · obtain ⟨rfl, hphase⟩ := Prod.mk.inj heq
      exact hworking writes p hphase.symm
    · exact h.working t' r' writes p hsession
  owns := howns
  emptied := fun t' r' writes p hsession => by
    rcases Statements.getElem?_setPhase hsession with ⟨-, heq⟩ | ⟨-, hsession⟩
    · obtain ⟨-, rfl⟩ := Prod.mk.inj heq
      exact hemptied
    · exact h.emptied t' r' writes p hsession
  stored := h.stored
  completed := h.completed
  left := fun hne => ⟨(h.left hne).1, hleft hne⟩

theorem Watched.begin_ (h : Watched runId s) (r : FinishRequest)
    (howns : Statements.Owns rows
      { s with sessions := s.sessions ++ [(r, .active [] r.program)] }) :
    Watched runId { s with sessions := s.sessions ++ [(r, .active [] r.program)] } where
  working := fun t r' writes p hsession => by
    rw [List.getElem?_append] at hsession
    split at hsession
    · exact h.working t r' writes p hsession
    · have heq := List.mem_singleton.mp (List.mem_of_getElem? hsession)
      obtain ⟨rfl, hphase⟩ := Prod.mk.inj heq
      obtain ⟨rfl, rfl⟩ := Phase.active.inj hphase
      exact .begun
  owns := howns
  -- a transaction that has just begun has written nothing
  emptied := fun t r' writes p hsession hcompleting => by
    rw [List.getElem?_append] at hsession
    split at hsession
    · exact h.emptied t r' writes p hsession hcompleting
    · have heq := List.mem_singleton.mp (List.mem_of_getElem? hsession)
      obtain ⟨rfl, -⟩ := Phase.active.inj (Prod.mk.inj heq).2
      obtain ⟨w, hw, -⟩ := hcompleting
      exact absurd hw List.not_mem_nil
  stored := h.stored
  completed := h.completed
  left := fun hne => by
    refine ⟨(h.left hne).1, ?_⟩
    rcases (h.left hne).2 with ⟨session, hmem, hcompleting⟩ | ⟨task, htask, hrun, hall⟩
    · exact .inl ⟨session, List.mem_append_left _ hmem, hcompleting⟩
    · refine .inr ⟨task, htask, hrun, fun session hmem hchecked => ?_⟩
      rcases List.mem_append.mp hmem with hmem | hmem
      · exact hall session hmem hchecked
      · obtain rfl := List.mem_singleton.mp hmem
        exact absurd hchecked id

/-- A statement. The deletion and the count leave it open who completes
the run; the check decides, and the condition on the step is about this
case. -/
theorem Watched.advance (h : Watched runId s) (hleaves : ChecksLeaveRightly runId s (.advance t))
    (hstep : sql.step FinishRequest.program s (.advance t) = some s')
    (howns : Statements.Owns rows s') : Watched runId s' := by
  obtain ⟨r, writes, op, k, hsession, -, hcases⟩ := Statements.step_advance hstep
  have hworking := h.working t r writes _ hsession
  have hnone : ¬ Completing runId writes := fun hc => Working.done_ne_call (hworking.last runId hc).symm
  rcases hcases with ⟨writes', a, heval, rfl⟩ | ⟨e, -, rfl⟩
  · obtain ⟨hnext, hquiet | ⟨rfl, hdeleted, hchecked⟩⟩ := hworking.advance heval
    · -- it has not made its check yet
      refine h.setPhase howns ?_ (fun hc => absurd hc (hquiet.2 runId)) fun hne => ?_
      · rintro _ _ ⟨rfl, rfl⟩
        exact hnext
      · exact (h.left hne).2.setPhase hsession hnone fun task htask _ _ =>
          ⟨htask, fun hc => absurd (FinishPhase.checked_active.mp hc) hquiet.1⟩
    · -- it makes its check
      refine h.setPhase howns ?_ (fun hc task htask => ?_) fun hne => ?_
      · rintro _ _ ⟨rfl, rfl⟩
        exact hnext
      · obtain ⟨-, -, hempty⟩ := (hchecked runId).mp hc
        have hseen := mem_tasks_view.mp htask
        refine hempty task (mem_tasks_view.mpr ⟨hseen.1, ?_⟩)
        rw [← hdeleted]
        exact hseen.2
      · by_cases hc : Completing runId (writes ++ writes')
        · -- and finds no task
          refine .inl ⟨(r, .active (writes ++ writes') (k (.ok a))), ?_, hc⟩
          refine List.mem_of_getElem? (i := t) ?_
          unfold Statements.setPhase
          rw [List.getElem?_set_self (List.getElem?_eq_some_iff.mp hsession).1]
        · by_cases heq : runId = r.task.runId
          · -- and leaves the completion to another
            have hrun : ∃ run ∈ (sql.view s.stored writes).runs, run.id = runId := by
              rw [← BenchmarkDb.runStatus?_ne_none_iff, runStatus?_view, if_neg hnone]
              exact h.stored
            have hsome : ¬ (sql.view s.stored writes).NoTaskOf runId := fun hempty =>
              hc ((hchecked runId).mpr ⟨heq, hrun, hempty⟩)
            have hmay := (hleaves _ hsession heq.symm).resolve_left hsome
            refine hmay.setPhase hsession hnone fun task htask _ _ => ?_
            have hseen := mem_tasks_view.mp htask
            refine ⟨hseen.1, fun _ => ?_⟩
            show task.toTaskKey ∉ deleted (writes ++ writes')
            rw [hdeleted]
            exact hseen.2
          · -- of another run
            refine (h.left hne).2.setPhase hsession hnone fun task htask hrun _ => ⟨htask, ?_⟩
            intro _ hmem
            exact heq (hrun.symm.trans (congrArg TaskKey.runId (hnext.own _ hmem)))
  · refine h.setPhase howns ?_ (fun hc => absurd hc hnone) fun hne => ?_
    · rintro _ _ ⟨rfl, rfl⟩
      exact hworking.failed e
    · exact (h.left hne).2.setPhase hsession hnone fun task htask _ _ => ⟨htask, False.elim⟩

/-- Two open transactions do not delete the same task. -/
theorem Watched.eq_of_deleted (h : Watched runId s) {t t' : ℕ} {r r' : FinishRequest}
    {writes writes' : List BenchmarkWrite} {p p' : Program FinishStatement.Ret DbError Unit}
    (ht : s.sessions[t]? = some (r, .active writes p))
    (ht' : s.sessions[t']? = some (r', .active writes' p')) {key : TaskKey}
    (hkey : key ∈ deleted writes) (hkey' : key ∈ deleted writes') : t = t' :=
  h.owns.eq ht (mem_deleted.mp hkey) (List.mem_singleton_self _) ht' (mem_deleted.mp hkey')
    (List.mem_singleton_self _)

/-- A transaction that completes a run has deleted every task of it that
is there: it has seen none, so those that are there are its own. -/
theorem Watched.mem_deleted (h : Watched runId s)
    {writes : List BenchmarkWrite} {p : Program FinishStatement.Ret DbError Unit}
    (ht : s.sessions[t]? = some (r, .active writes p)) (hc : Completing runId writes)
    {task : TaskRow} (htask : task ∈ s.stored.tasks) (hrun : task.runId = runId) :
    task.toTaskKey ∈ deleted writes := by
  by_contra hnot
  exact h.emptied t r writes p ht hc task (mem_tasks_view.mpr ⟨htask, hnot⟩) hrun

/-- A commit. The tasks that it takes away were relied on by nobody, since
the transaction has made its check; and if it completes the run, no other
transaction has deleted one of its tasks. -/
theorem Watched.commit (h : Watched runId s)
    (hstep : sql.step FinishRequest.program s (.commit t) = some s')
    (howns : Statements.Owns rows s') : Watched runId s' := by
  obtain ⟨r, writes, a, hsession, rfl⟩ := Statements.step_commit hstep
  have hstays : ∀ task ∈ s.stored.tasks, task.toTaskKey ∉ deleted writes →
      task ∈ (sql.view s.stored writes).tasks := fun task htask hnot =>
    mem_tasks_view.mpr ⟨htask, hnot⟩
  constructor
  · intro t' r' writes' p' hsession'
    rcases Statements.getElem?_setPhase hsession' with ⟨-, heq⟩ | ⟨-, hsession'⟩
    · exact absurd (Prod.mk.inj heq).2 (by simp)
    · exact h.working t' r' writes' p' hsession'
  · exact howns
  · intro t' r' writes' p' hsession' hc task htask
    rcases Statements.getElem?_setPhase hsession' with ⟨-, heq⟩ | ⟨-, hsession'⟩
    · exact absurd (Prod.mk.inj heq).2 (by simp)
    · have hseen := mem_tasks_view.mp htask
      exact h.emptied t' r' writes' p' hsession' hc task
        (mem_tasks_view.mpr ⟨(mem_tasks_view.mp hseen.1).1, hseen.2⟩)
  · show (sql.view s.stored writes).runStatus? runId ≠ none
    rw [runStatus?_view]
    split
    · simpa using h.stored
    · exact h.stored
  · show (sql.view s.stored writes).runStatus? runId = some .completed → _
    intro hstatus task htask
    rw [runStatus?_view] at hstatus
    split at hstatus
    · next hc => exact h.emptied t r writes _ hsession hc task htask
    · exact h.completed hstatus task (mem_tasks_view.mp htask).1
  · show (sql.view s.stored writes).runStatus? runId ≠ some .completed → _
    intro hstatus
    rw [runStatus?_view] at hstatus
    split at hstatus
    · obtain ⟨status, hstored⟩ := Option.ne_none_iff_exists'.mp h.stored
      rw [hstored] at hstatus
      exact absurd rfl hstatus
    · next hnone =>
      obtain ⟨hsome, hmay⟩ := h.left hstatus
      have hchecked : ∀ task : TaskRow, (∀ session ∈ s.sessions, FinishPhase.Checked session.2 →
          task.toTaskKey ∉ deleted session.2.writes) → task.toTaskKey ∉ deleted writes :=
        fun task hall => hall _ (List.mem_of_getElem? hsession) trivial
      refine ⟨fun hempty => ?_, hmay.setPhase hsession hnone fun task htask _ hall =>
        ⟨hstays task htask (hchecked task hall), False.elim⟩⟩
      rcases hmay with ⟨session, hmem, hc⟩ | ⟨task, htask, hrun, hall⟩
      · -- the transaction that completes the run deletes other tasks
        refine hsome fun task htask hrun => ?_
        obtain ⟨t', ht'⟩ := List.mem_iff_getElem?.mp hmem
        obtain ⟨r', phase'⟩ := session
        cases phase' with
        | active writes' p' =>
          refine hempty task (hstays task htask fun hdeleted => hnone ?_) hrun
          obtain rfl := h.eq_of_deleted hsession ht' hdeleted
            (h.mem_deleted ht' hc htask hrun)
          rw [hsession] at ht'
          obtain ⟨rfl, -⟩ := Phase.active.inj (Prod.mk.inj (Option.some.inj ht')).2
          exact hc
        | committed b => exact absurd hc.choose_spec.1 List.not_mem_nil
        | rolledBack => exact absurd hc.choose_spec.1 List.not_mem_nil
      · exact hempty task (hstays task htask (hchecked task hall)) hrun

/-- A rollback. The task is there again, and has not been deleted by
anybody, so the completion can be left to whoever finishes it. -/
theorem Watched.rollback (h : Watched runId s)
    (hstep : sql.step FinishRequest.program s (.rollback t) = some s')
    (howns : Statements.Owns rows s') : Watched runId s' := by
  obtain ⟨r, writes, p, hsession, rfl⟩ := Statements.step_rollback hstep
  refine h.setPhase howns (fun _ _ heq => absurd heq (by simp))
    (fun hc => absurd hc.choose_spec.1 List.not_mem_nil) fun hne => ?_
  obtain ⟨hsome, hmay⟩ := h.left hne
  by_cases hc : Completing runId writes
  · -- what it has deleted is left to others again
    unfold BenchmarkDb.NoTaskOf at hsome
    push Not at hsome
    obtain ⟨task, htask, hrun⟩ := hsome
    have hdeleted := h.mem_deleted hsession hc htask hrun
    refine .inr ⟨task, htask, hrun, fun session hmem hchecked hdeleted' => ?_⟩
    obtain ⟨t', ht'⟩ := List.mem_iff_getElem?.mp hmem
    rcases Statements.getElem?_setPhase ht' with ⟨rfl, rfl⟩ | ⟨hne', ht'⟩
    · exact hchecked
    · obtain ⟨r', phase'⟩ := session
      cases phase' with
      | active writes' p' => exact hne' (h.eq_of_deleted hsession ht' hdeleted hdeleted').symm
      | committed b => exact hchecked
      | rolledBack => exact hchecked
  · exact hmay.setPhase hsession hc fun task htask _ _ => ⟨htask, False.elim⟩

/-- **A run is completed exactly when its work is done**, if every check
that still sees a task of the run may leave the completion to another:
then in every state that is reached, whether transactions are open or not,
the run is completed if and only if no task of it is left. -/
theorem completed_iff {db : BenchmarkDb} (hstatus : db.runStatus? runId = some .queued)
    (htasks : ∃ task ∈ db.tasks, task.runId = runId)
    (run : Transition.Run (sql.step FinishRequest.program) (ChecksLeaveRightly runId)
      (Statements.initial db) s) :
    s.stored.runStatus? runId = some .completed ↔ s.stored.NoTaskOf runId := by
  have hinit : Watched runId (Statements.initial db) := {
    working := fun t r writes p h => absurd h (by simp [Statements.initial])
    owns := fun t r writes p h => absurd h (by simp [Statements.initial])
    emptied := fun t r writes p h => absurd h (by simp [Statements.initial])
    stored := fun h => absurd (hstatus.symm.trans h) (by simp)
    completed := fun h => absurd (hstatus.symm.trans h) (by simp)
    left := fun _ => by
      obtain ⟨task, htask, hrun⟩ := htasks
      exact ⟨fun h => h task htask hrun,
        .inr ⟨task, htask, hrun, fun session h => absurd h List.not_mem_nil⟩⟩ }
  have hwatched : Watched runId s := by
    refine run.invariant hinit fun s a s' h hguard hstep => ?_
    have howns := h.owns.step locksWrites hstep
    cases a with
    | begin r =>
      obtain rfl := Option.some.inj hstep
      exact h.begin_ r howns
    | advance t => exact h.advance hguard hstep howns
    | commit t => exact h.commit hstep howns
    | rollback t => exact h.rollback hstep howns
  refine ⟨hwatched.completed, fun hempty => ?_⟩
  by_contra hne
  exact (hwatched.left hne).1 hempty

end Invariant

/-! ## Two models -/

/-- A benchmark of two models on one receipt. -/
def twoModelsRequest : RunRequest :=
  { oneTaskRequest with
    modelIds := ["llava", "qwen"]
    modelDigests := [] }

/-- The tables after its creation. -/
def twoModels : BenchmarkDb :=
  (((BenchmarkDb.mk [] [] []).insertRun 1 twoModelsRequest 0).bind fun db =>
    (db.insertTasks 1 ["llava", "qwen"] [7] [7]).bind fun db =>
      db.insertSummaries 1 ["llava", "qwen"] []).getD ⟨[], [], []⟩

/-- A worker finishes the task of a model. -/
def finishModel (modelId : String) : FinishRequest where
  task := (⟨1, modelId, 7⟩ : TaskKey).queued
  outcome := { success := true }
  now := 0

/-- Both tasks are finished, one after the other. -/
def inTurn : List (Sessions.Action FinishRequest) :=
  [.begin (finishModel "llava"), .advance 0, .advance 0, .advance 0, .commit 0,
    .begin (finishModel "qwen"), .advance 1, .advance 1, .advance 1, .commit 1]

/-- Both tasks are finished at the same time. -/
def atOnce : List (Sessions.Action FinishRequest) :=
  [.begin (finishModel "llava"), .begin (finishModel "qwen"), .advance 0, .advance 1, .advance 0,
    .advance 1, .advance 0, .advance 1, .commit 0, .commit 1]

/-- Tasks that are finished in turn complete their run. -/
theorem twoModels_completed :
    ∃ s : Workers, Transition.Run (FinishStatement.sql.step FinishRequest.program)
        (ChecksLeaveRightly 1) (Statements.initial twoModels) s
      ∧ s.stored.runStatus? 1 = some .completed := by
  obtain ⟨s, run, hempty⟩ : ∃ s, Transition.Run (FinishStatement.sql.step FinishRequest.program)
      (ChecksLeaveRightly 1) (Statements.initial twoModels) s ∧ s.stored.NoTaskOf 1 :=
    Transition.Run.of_exec inTurn (by decide +kernel)
  exact ⟨s, run, (completed_iff (by decide +kernel) (by decide +kernel) run).mpr hempty⟩

/-- **Two workers that finish the last tasks at once leave a run that is
never completed**: neither check sees what the other has deleted. All
sessions have ended by then, so nobody is left to complete it. -/
theorem twoModels_stranded :
    ∃ s : Workers, Transition.Reachable (FinishStatement.sql.step FinishRequest.program)
        (Statements.initial twoModels) s
      ∧ (∀ session ∈ s.sessions, ¬ session.2.Open)
      ∧ ¬ (s.stored.runStatus? 1 = some .completed ↔ s.stored.NoTaskOf 1) := by
  obtain ⟨s, run, hclosed, hempty, hstatus⟩ : ∃ s,
      Transition.Reachable (FinishStatement.sql.step FinishRequest.program)
        (Statements.initial twoModels) s
      ∧ (∀ session ∈ s.sessions, ¬ session.2.Open) ∧ s.stored.NoTaskOf 1
      ∧ s.stored.runStatus? 1 = some .queued := Transition.Run.of_exec atOnce (by decide +kernel)
  refine ⟨s, run, hclosed, fun h => ?_⟩
  rw [hstatus] at h
  exact absurd (h.mpr hempty) (by simp)

end VisionBill
