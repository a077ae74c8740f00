import VisionBill.Benchmark

/-!
# Which tasks can be leased again

A task in the queue should always be leased in the end: a queued or
retrying one as soon as its delay is over, a running one when its lease
expires. The invariant that carries this is that a running task has a
lease to expire.

A task that is parked because its model is missing or has changed has the
status `waiting_for_model`, and `lease_task` selects no such row, although
`retry_task` gives it a time to be retried at. `leasable_eventually_iff`
says that these are exactly the tasks that are stranded.

## Time alone

Being leasable in the end is a property of a row: from some time on, it
meets the condition of the statement. Nothing else has to happen for that.
It does not say that a worker comes by, but that one that does is not
refused. A parked row meets the condition at no time, and no other
statement changes its status, so it stays in the queue and its run is
never completed.

## What parks a task

Only `_execute`, and only if the provider does not have the model or has
one with another digest (`execute_eq_waiting_iff`). So a run in which the
models of its tasks are always there strands nothing
(`neverParks_of_execute`, `tasks_leasableEventually`). A model that is
missing for a minute is enough to strand a task for good
(`missingModel_strands`), which is hardly what the time to be retried at
was written for.
-/

namespace VisionBill

open Transition

/-- From some time on, the row meets the condition of `lease_task`,
provided that nobody changes it. Whether some worker then comes and takes
it is another matter. What is excluded here is that no worker could. -/
def TaskRow.LeasableEventually (row : TaskRow) : Prop :=
  ∃ t, ∀ now, t ≤ now → row.Leasable now

/-- A running task has a lease that ends. Without this a task could be
lost to a worker that never comes back. -/
def RunningLeased (s : BenchmarkSystem) : Prop :=
  ∀ row ∈ s.db.tasks, row.status = .running → ∃ t, row.leasedUntil = some t

/-- A parked task meets the condition at no time. -/
theorem not_leasable_of_waiting {row : TaskRow} (h : row.status = .waitingForModel)
    (now : Timestamp) : ¬ row.Leasable now := by
  unfold TaskRow.Leasable
  rw [h]
  simp

/-- **Only parked tasks are stranded.** A task in any other state has a
time from which on it can be leased: at once, when its lease runs out, or
when its retry is due. A parked one has a time for its retry as well, but
no statement asks for it. -/
theorem leasableEventually_iff {row : TaskRow}
    (hrunning : row.status = .running → ∃ t, row.leasedUntil = some t) :
    row.LeasableEventually ↔ row.status ≠ .waitingForModel := by
  constructor
  · rintro ⟨t, ht⟩ hwaiting
    exact not_leasable_of_waiting hwaiting t (ht t (Int.le_refl t))
  · intro hne
    have hdelay : ∀ now, row.retryAt.getD 0 ≤ now → ∀ t ∈ row.retryAt, t ≤ now := by
      intro now hnow t ht
      rw [Option.mem_def.mp ht] at hnow
      exact hnow
    cases hstatus : row.status with
    | queued => exact ⟨row.retryAt.getD 0, fun now hnow => .inl ⟨.inl hstatus, hdelay now hnow⟩⟩
    | retrying => exact ⟨row.retryAt.getD 0, fun now hnow => .inl ⟨.inr hstatus, hdelay now hnow⟩⟩
    | running =>
      obtain ⟨t, ht⟩ := hrunning hstatus
      exact ⟨t + 1, fun now hnow => .inr ⟨hstatus, t, ht, Int.lt_of_add_one_le hnow⟩⟩
    | waitingForModel => exact absurd hstatus hne

/-! ## The rows after a step

Where a row comes from: it is new, or it is one that was there and has
been leased or retried. With that every property of the rows is a matter
of four cases, and no step has to be opened again. -/

/-- A row of the queue after a step was there before, is new, or has been
leased or given back. Invariants about single rows are shown with these
cases. -/
inductive RowOrigin (s : BenchmarkSystem) (a : BenchmarkAction) (row : TaskRow) : Prop
  | same (h : row ∈ s.db.tasks)
  | inserted (key : TaskKey) (h : row = key.queued)
  | leased (old : TaskRow) (now : Timestamp) (h : row = TaskRow.leased now old)
  | retried (task old : TaskRow) (waiting : Bool) (now : Timestamp)
      (ha : a = .retry task waiting now) (hold : old ∈ s.db.tasks)
      (hkey : old.toTaskKey = task.toTaskKey) (h : row = TaskRow.retried task waiting now old)

theorem mem_updateTask {db : BenchmarkDb} {key : TaskKey} {f : TaskRow → TaskRow} {row : TaskRow}
    (h : row ∈ (db.updateTask key f).tasks) :
    row ∈ db.tasks ∨ ∃ old ∈ db.tasks, old.toTaskKey = key ∧ row = f old := by
  obtain ⟨old, hold, rfl⟩ := List.mem_map.mp h
  by_cases hkey : old.toTaskKey = key
  · rw [if_pos hkey]
    exact .inr ⟨old, hold, hkey, rfl⟩
  · rw [if_neg hkey]
    exact .inl hold

/-- Where the rows of the queue come from. A row that is there after a
step was there before it, or is what the step has written; all statements
about rows are read off from this. -/
theorem rowOrigin {s s' : BenchmarkSystem} {a : BenchmarkAction} (h : s.step a = some s')
    {row : TaskRow} (hrow : row ∈ s'.db.tasks) : RowOrigin s a row := by
  -- only three of the actions write rows of the queue
  cases a with
  | insertRun id request now =>
    obtain ⟨db, hdb, hs'⟩ := Option.bind_eq_some_iff.mp h
    obtain rfl := Option.some.inj hs'
    unfold BenchmarkDb.insertRun at hdb
    split at hdb
    · exact absurd hdb (by simp)
    · obtain rfl := Option.some.inj hdb
      exact .same hrow
  | insertTasks id receipts =>
    obtain ⟨c, -, hrest⟩ := Option.bind_eq_some_iff.mp h
    obtain ⟨db, hdb, hs'⟩ := Option.bind_eq_some_iff.mp hrest
    obtain rfl := Option.some.inj hs'
    unfold BenchmarkDb.insertTasks at hdb
    dsimp only at hdb
    split at hdb
    · obtain rfl := Option.some.inj hdb
      rcases List.mem_append.mp hrow with hrow | hrow
      · exact .same hrow
      · obtain ⟨key, -, rfl⟩ := List.mem_map.mp hrow
        exact .inserted key rfl
    · exact absurd hdb (by simp)
  | insertSummaries id =>
    obtain ⟨c, -, hrest⟩ := Option.bind_eq_some_iff.mp h
    obtain ⟨db, hdb, hs'⟩ := Option.bind_eq_some_iff.mp hrest
    obtain rfl := Option.some.inj hs'
    unfold BenchmarkDb.insertSummaries at hdb
    split at hdb
    · obtain rfl := Option.some.inj hdb
      exact .same hrow
    · exact absurd hdb (by simp)
  | lease now locked =>
    obtain ⟨selected, -, -, rfl⟩ := BenchmarkSystem.step_lease h
    rcases mem_updateTask hrow with hrow | ⟨old, -, -, hrow⟩
    · exact .same hrow
    · exact .leased old now hrow
  | retry task waiting now =>
    obtain ⟨-, rfl⟩ := BenchmarkSystem.step_retry h
    rcases mem_updateTask hrow with hrow | ⟨old, hold, hkey, hrow⟩
    · exact .same hrow
    · exact .retried task old waiting now rfl hold hkey hrow
  | finish task o now =>
    obtain ⟨-, db, hdb, rfl⟩ := BenchmarkSystem.step_finish h
    unfold BenchmarkDb.finishTask at hdb
    dsimp only at hdb
    split at hdb
    · obtain rfl := Option.some.inj hdb
      exact .same (List.mem_of_mem_filter hrow)
    · exact absurd hdb (by simp)

/-- Every step leaves running tasks with a lease. Leasing is the only
statement that makes a task run, and it sets the lease with the status. -/
theorem RunningLeased.step {s s' : BenchmarkSystem} (hinv : RunningLeased s)
    (a : BenchmarkAction) (h : s.step a = some s') : RunningLeased s' := by
  intro row hrow hstatus
  cases rowOrigin h hrow with
  | same hold => exact hinv row hold hstatus
  | inserted key hnew =>
    rw [hnew] at hstatus
    exact absurd hstatus (by simp [TaskKey.queued])
  | leased old now hnew => exact ⟨now + seconds 360, by rw [hnew]; rfl⟩
  | retried task old waiting now ha hold hkey hnew =>
    rw [hnew] at hstatus
    cases waiting <;> exact absurd hstatus (by simp [TaskRow.retried])

/-- In every reachable state, the stranded tasks are the parked ones. It
is not assumed how the workers behave. -/
theorem leasable_eventually_iff {s : BenchmarkSystem}
    (run : Reachable BenchmarkSystem.step .empty s) {row : TaskRow} (hrow : row ∈ s.db.tasks) :
    row.LeasableEventually ↔ row.status ≠ .waitingForModel := by
  have hinv : RunningLeased s :=
    run.invariant (fun _ h => absurd h List.not_mem_nil) fun _ a _ h _ hstep => h.step a hstep
  exact leasableEventually_iff (hinv row hrow)

/-! ## Parking

A parked task is one that no query selects. The parking is decided by what
the worker finds at the provider, so the condition can be put in these
terms: whether the model of the task is there, with the digest of the
run. -/

/-- When `_execute` parks a task: its run is there, and its model is
missing or has a digest other than the one recorded. A digest that is not
known is not compared. -/
theorem execute_eq_waiting_iff (task : TaskRow) (e : Execution) :
    execute task e = some (.retry true) ↔ e.runExists = true ∧ ∃ models, e.models = some models
      ∧ ((models.lookup task.modelId = none)
        ∨ ∃ digest expected actual, models.lookup task.modelId = some digest
          ∧ givenDigest (e.runDigests.lookup task.modelId).join = some expected
          ∧ givenDigest digest = some actual ∧ expected ≠ actual) := by
  have hcall : e.examination.call ≠ .retry true := by
    cases e.examination <;> simp [Examination.call]
  unfold execute
  cases hmodels : e.models with
  | none => simp
  | some models =>
    simp only [Option.some.injEq, exists_eq_left']
    by_cases hrun : e.runExists = true
    · rw [if_neg (not_not.mpr hrun), and_iff_right hrun]
      generalize models.lookup task.modelId = model
      generalize givenDigest (e.runDigests.lookup task.modelId).join = recorded
      cases model with
      | none => simp
      | some digest =>
        simp only [Option.some.injEq, reduceCtorEq, false_or, exists_and_left, exists_eq_left']
        cases recorded with
        | none => simp [hcall]
        | some expected =>
          cases givenDigest digest with
          | none => simp [hcall]
          | some actual => by_cases hne : expected = actual <;> simp [hcall, hne]
    · simp [hrun]

/-- A step does not park a task that is in the queue. Giving back a task
that is no longer there parks nothing. It is a condition on the step and
on the rows before it, and does not ask what becomes of the task. -/
def NeverParks (s : BenchmarkSystem) : BenchmarkAction → Prop
  | .retry task true _ => ∀ row ∈ s.db.tasks, row.toTaskKey ≠ task.toTaskKey
  | _ => True

instance (s : BenchmarkSystem) (a : BenchmarkAction) : Decidable (NeverParks s a) :=
  match a with
  | .retry task true _ =>
    inferInstanceAs (Decidable (∀ row ∈ s.db.tasks, row.toTaskKey ≠ task.toTaskKey))
  | .retry _ false _ => isTrue trivial
  | .insertRun .. => isTrue trivial
  | .insertTasks .. => isTrue trivial
  | .insertSummaries .. => isTrue trivial
  | .lease .. => isTrue trivial
  | .finish .. => isTrue trivial

/-- The provider has the model of a task, as it was when the run was
created: if both digests are known, they are one. -/
def Execution.ModelThere (task : TaskRow) (e : Execution) : Prop :=
  ∀ models ∈ e.models, ∃ digest, models.lookup task.modelId = some digest
    ∧ ∀ expected ∈ givenDigest (e.runDigests.lookup task.modelId).join,
      ∀ actual ∈ givenDigest digest, expected = actual

/-- **A task whose model is there is not parked.** So a run in which the
worker always finds the models of its tasks is one that parks none,
whatever else goes wrong with the tasks. -/
theorem neverParks_of_execute {s : BenchmarkSystem} {task : TaskRow} {e : Execution}
    {waiting : Bool} {now : Timestamp} (hthere : e.ModelThere task)
    (h : execute task e = some (.retry waiting)) : NeverParks s (.retry task waiting now) := by
  cases waiting with
  | false => trivial
  | true =>
    obtain ⟨-, models, hmodels, hparked⟩ := (execute_eq_waiting_iff task e).mp h
    obtain ⟨digest, hdigest, hsame⟩ := hthere models hmodels
    obtain hnone | ⟨digest', expected, actual, hdigest', hexpected, hactual, hne⟩ := hparked
    · exact absurd (hnone.symm.trans hdigest) (by simp)
    · obtain rfl := Option.some.inj (hdigest.symm.trans hdigest')
      exact absurd (hsame expected hexpected actual hactual) hne

/-- No task is parked. -/
def NoneParked (s : BenchmarkSystem) : Prop := ∀ row ∈ s.db.tasks, row.status ≠ .waitingForModel

theorem NoneParked.step {s s' : BenchmarkSystem} (hinv : NoneParked s) (a : BenchmarkAction)
    (hguard : NeverParks s a) (h : s.step a = some s') : NoneParked s' := by
  intro row hrow
  cases rowOrigin h hrow with
  | same hold => exact hinv row hold
  | inserted key hnew => rw [hnew]; simp [TaskKey.queued]
  | leased old now hnew => rw [hnew]; simp [TaskRow.leased]
  | retried task old waiting now ha hold hkey hnew =>
    cases waiting with
    | false => rw [hnew]; simp [TaskRow.retried]
    | true =>
      subst ha
      exact absurd hkey (hguard old hold)

/-- **No task is stranded** in a run that parks none. The condition is on
the steps and not on the states, since a task is parked by the step that
finds its model missing, and by no other. -/
theorem tasks_leasableEventually {s : BenchmarkSystem}
    (run : Run BenchmarkSystem.step NeverParks .empty s) :
    ∀ row ∈ s.db.tasks, row.LeasableEventually := by
  have hnone : NoneParked s :=
    run.invariant (fun _ h => absurd h List.not_mem_nil) fun _ a _ h hguard hstep =>
      h.step a hguard hstep
  intro row hrow
  exact (leasable_eventually_iff (run.mono fun _ _ _ => trivial) hrow).mpr (hnone row hrow)

/-- A task that failed for the moment is leased again. -/
theorem oneTask_leasableEventually :
    ∃ s, exec BenchmarkSystem.step NeverParks .empty
        (createOneTask ++ [.lease 0 [], .retry firstLease false (seconds 30)]) = some s
      ∧ s.db.tasks ≠ [] ∧ ∀ row ∈ s.db.tasks, row.LeasableEventually := by
  obtain ⟨s, hs, hne⟩ : ∃ s, exec BenchmarkSystem.step NeverParks .empty
        (createOneTask ++ [.lease 0 [], .retry firstLease false (seconds 30)]) = some s
      ∧ s.db.tasks ≠ [] := ⟨_, rfl, List.cons_ne_nil _ _⟩
  exact ⟨s, hs, hne, tasks_leasableEventually (Run.start.exec hs)⟩

/-- **A task is stranded**: its model was removed from the provider for a
while, and when it is back, nobody leases the task. The time of its retry
has been stored, and is read for queued and retried tasks only. -/
theorem missingModel_strands :
    execute firstLease ⟨some [], true, [("llava", none)], .transient⟩ = some (.retry true)
      ∧ ∃ s, Reachable BenchmarkSystem.step .empty s
        ∧ ∃ row ∈ s.db.tasks, row.retryAt = some (seconds 35) ∧ ∀ now, ¬ row.Leasable now := by
  refine ⟨rfl, ?_⟩
  obtain ⟨s, hs, row, hrow, hretry, hstatus⟩ :
      ∃ s, exec BenchmarkSystem.step (fun _ _ => True) .empty
        (createOneTask ++ [.lease 0 [], .retry firstLease true (seconds 30)]) = some s
      ∧ ∃ row ∈ s.db.tasks, row.retryAt = some (seconds 35) ∧ row.status = .waitingForModel :=
    ⟨_, rfl, _, List.mem_singleton.mpr rfl, rfl, rfl⟩
  exact ⟨s, Run.start.exec hs, row, hrow, hretry, not_leasable_of_waiting hstatus⟩

end VisionBill
