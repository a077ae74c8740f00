import VisionBill.Benchmark
import Mathlib.Data.List.Nodup
import Mathlib.Data.List.Perm.Basic
import Mathlib.Algebra.BigOperators.Group.List.Basic

/-!
# Every task is counted once

A benchmark run has a task for each of its models and receipts. Each task
is either still in the queue or counted in the summary of its model, so
the numbers that `task_counts` returns add up to the number of pairs.

The invariant is that the queued keys and the counted keys of a run
together are a permutation of its pairs (`Balanced`). Creating, leasing
and retrying preserve it whatever the order of the steps. Finishing moves
a key from one list to the other, provided that the call finds a task
exactly if it finds a summary: `finish_task` does not look whether its
`DELETE` or its `UPDATE` met a row, so a worker that comes back after its
lease has expired, and finds its task finished by another, counts it
again, and a task finished before the summaries are inserted is not
counted at all.

## From a permutation to numbers

`task_counts` adds up two kinds of rows: it counts tasks by status and
sums two columns of the summaries. That these numbers add up to the number
of pairs says little, since a task that is counted twice could make up for
one that is lost. The permutation says that each pair occurs once, in the
queue or among the counted ones, and the numbers follow
(`Balanced.total`).

A run that is being created has less to account for: no pair before its
tasks are inserted, and no summary before these are. So what is expected
depends on how far the creation has come.

## When it holds

`FinishMatches` is about one step and the state before it. It allows a
late worker that finds neither a task nor a summary, and asks nothing of
the other steps. The example is a lease that runs out while its holder is
busy, after which one task of one run has been counted twice.
-/

namespace VisionBill

open Transition

/-! ## Tasks and summaries of a run

All that is counted is counted run by run. A statement about one run
leaves the tasks and summaries of all others as they are, and that is said
here once for each kind of change. -/

/-- The keys of a run. -/
def keysOf (id : ℕ) (keys : List TaskKey) : List TaskKey := keys.filter (fun k => k.runId = id)

/-- The summaries of a run. -/
def summariesOf (id : ℕ) (rows : List SummaryRow) : List SummaryRow :=
  rows.filter (fun row => row.runId = id)

/-- The keys in the queue. -/
def BenchmarkDb.keys (db : BenchmarkDb) : List TaskKey := db.tasks.map TaskRow.toTaskKey

theorem keysOf_append (id : ℕ) (l l' : List TaskKey) :
    keysOf id (l ++ l') = keysOf id l ++ keysOf id l' := List.filter_append l l'

theorem runId_of_mem_taskKeys {id : ℕ} {ms : List String} {rs : List ℕ} {k : TaskKey}
    (h : k ∈ taskKeys id ms rs) : k.runId = id ∧ k.modelId ∈ ms := by
  obtain ⟨m, hm, hk⟩ := List.mem_flatMap.mp h
  obtain ⟨r, -, rfl⟩ := List.mem_map.mp hk
  exact ⟨rfl, hm⟩

theorem keysOf_taskKeys_self (id : ℕ) (ms : List String) (rs : List ℕ) :
    keysOf id (taskKeys id ms rs) = taskKeys id ms rs :=
  List.filter_eq_self.mpr fun _ hk => decide_eq_true (runId_of_mem_taskKeys hk).1

theorem keysOf_taskKeys_of_ne {id id' : ℕ} (h : id ≠ id') (ms : List String) (rs : List ℕ) :
    keysOf id' (taskKeys id ms rs) = [] :=
  List.filter_eq_nil_iff.mpr fun _ hk hid =>
    h ((runId_of_mem_taskKeys hk).1.symm.trans (of_decide_eq_true hid))

theorem length_taskKeys (id : ℕ) (ms : List String) (rs : List ℕ) :
    (taskKeys id ms rs).length = ms.length * rs.length := by
  unfold taskKeys
  rw [List.length_flatMap]
  simp

theorem sum_indicator_eq_count (ms : List String) (a : String) :
    (ms.map fun m => if a = m then 1 else 0).sum = ms.count a := by
  induction ms with
  | nil => rfl
  | cons m ms ih =>
    rw [List.map_cons, List.sum_cons, ih, List.count_cons, add_comm]
    rcases eq_or_ne a m with rfl | h
    · simp
    · simp [h, h.symm]

/-- The tasks counted under the models, one model each, are all tasks. -/
theorem sum_countP_modelId {ms : List String} (hms : ms.Nodup) {l : List TaskKey}
    (hl : ∀ k ∈ l, k.modelId ∈ ms) :
    (ms.map fun m => l.countP (fun k => k.modelId = m)).sum = l.length := by
  induction l with
  | nil => simp
  | cons k l ih =>
    rw [List.forall_mem_cons] at hl
    have hone : (ms.map fun m => if k.modelId = m then 1 else 0).sum = 1 := by
      rw [sum_indicator_eq_count, List.count_eq_one_of_mem hms hl.1]
    simp only [List.countP_cons, decide_eq_true_eq]
    rw [List.sum_map_add, ih hl.2, hone, List.length_cons]

/-- A task has one of four statuses. -/
theorem length_eq_countP_status (l : List TaskRow) :
    l.length = l.countP (fun row => row.status = .queued)
      + l.countP (fun row => row.status = .running)
      + l.countP (fun row => row.status = .waitingForModel)
      + l.countP (fun row => row.status = .retrying) := by
  induction l with
  | nil => rfl
  | cons row l ih =>
    simp only [List.countP_cons, List.length_cons, ih]
    cases row.status <;> simp <;> omega

/-! ## The invariant

A run is balanced if each of its tasks is either waiting or counted, and
never both. While it is being created fewer rows are there than there will
be, so the invariant also says how far each creation has come. -/

/-- The keys that a run should account for: none before its tasks
exist. -/
def Creation.expectedKeys (c : Creation) : List TaskKey :=
  if c.stage = .runInserted then [] else taskKeys c.id c.request.modelIds c.request.receiptIds

/-- The models whose summaries exist. -/
def Creation.expectedModels (c : Creation) : List String :=
  if c.stage = .returned then c.request.modelIds else []

/-- The queue, the counted tasks and the summaries fit a run: each pair is
queued or counted, once, and each summary has the number of those that
were counted for its model. -/
structure Balanced (keys counted : List TaskKey) (summaries : List SummaryRow) (c : Creation) :
    Prop where
  perm : (keysOf c.id keys ++ keysOf c.id counted).Perm c.expectedKeys
  keys_nodup : c.expectedKeys.Nodup
  models : (summariesOf c.id summaries).map SummaryRow.modelId = c.expectedModels
  models_nodup : c.expectedModels.Nodup
  counts : ∀ row ∈ summariesOf c.id summaries, row.completed = row.succeeded + row.failed
    ∧ row.completed = (keysOf c.id counted).countP (fun k => k.modelId = row.modelId)
  early : c.stage ≠ .returned → keysOf c.id counted = []

/-- Every run balances, and the tables hold nothing of other runs. The
second part is needed when a run is created: its identifier is new to all
tables. -/
structure BenchmarkInv (s : BenchmarkSystem) : Prop where
  ids : (s.creations.map Creation.id).Nodup
  runs : s.db.runs.map RunRow.id = s.creations.map Creation.id
  keys_known : ∀ k ∈ s.db.keys, k.runId ∈ s.creations.map Creation.id
  counted_known : ∀ k ∈ s.counted, k.runId ∈ s.creations.map Creation.id
  summaries_known : ∀ row ∈ s.db.summaries, row.runId ∈ s.creations.map Creation.id
  balanced : ∀ c ∈ s.creations, Balanced s.db.keys s.counted s.db.summaries c

/-- A balanced run whose summaries exist accounts for each of its pairs.
The tasks are counted by status on one side and by model on the other. -/
theorem Balanced.total {db : BenchmarkDb} {counted : List TaskKey} {c : Creation}
    (h : Balanced db.keys counted db.summaries c) (hc : c.stage = .returned) :
    (db.taskCounts c.id).total = c.request.modelIds.length * c.request.receiptIds.length := by
  have hmodels := h.models
  have hkeys := h.perm
  have hnodup := h.models_nodup
  unfold Creation.expectedModels at hmodels hnodup
  unfold Creation.expectedKeys at hkeys
  rw [if_pos hc] at hmodels hnodup
  rw [if_neg (by rw [hc]; decide)] at hkeys
  have hcounted : ∀ k ∈ keysOf c.id counted, k.modelId ∈ c.request.modelIds := fun k hk =>
    (runId_of_mem_taskKeys (hkeys.subset (List.mem_append_right _ hk))).2
  have hterminal : ((summariesOf c.id db.summaries).map SummaryRow.completed).sum
      = (keysOf c.id counted).length := by
    rw [← sum_countP_modelId hnodup hcounted, ← hmodels, List.map_map]
    exact congrArg List.sum (List.map_congr_left fun row hrow => (h.counts row hrow).2)
  have hqueued : (db.tasks.filter (fun row => row.runId = c.id)).length
      = (keysOf c.id db.keys).length := by
    unfold keysOf BenchmarkDb.keys
    rw [List.filter_map, List.length_map]
    rfl
  have hlength := hkeys.length_eq
  rw [List.length_append, length_taskKeys] at hlength
  unfold BenchmarkDb.taskCounts TaskCounts.total
  unfold summariesOf at hterminal
  dsimp only
  rw [hterminal, ← hlength, ← hqueued, length_eq_countP_status]

/-- In a balanced run no pair is counted twice. -/
theorem Balanced.count_le_one {keys counted : List TaskKey} {summaries : List SummaryRow}
    {c : Creation} (h : Balanced keys counted summaries c) {k : TaskKey} (hk : k.runId = c.id) :
    counted.count k ≤ 1 := by
  have hnodup : (keysOf c.id counted).Nodup :=
    (h.perm.nodup_iff.mpr h.keys_nodup).sublist (List.sublist_append_right _ _)
  have hcount : (keysOf c.id counted).count k = counted.count k :=
    List.count_filter (decide_eq_true hk)
  rw [← hcount]
  exact List.nodup_iff_count_le_one.mp hnodup k

/-! ## Steps

There is one lemma for each action. Leasing and retrying change no key and
no summary, so only the creation of a run and the end of a task take an
argument. -/

theorem Balanced.congr {keys keys' counted counted' : List TaskKey}
    {summaries summaries' : List SummaryRow} {c : Creation}
    (h : Balanced keys counted summaries c) (hk : keysOf c.id keys' = keysOf c.id keys)
    (hc : keysOf c.id counted' = keysOf c.id counted)
    (hs : summariesOf c.id summaries' = summariesOf c.id summaries) :
    Balanced keys' counted' summaries' c where
  perm := by rw [hk, hc]; exact h.perm
  keys_nodup := h.keys_nodup
  models := by rw [hs]; exact h.models
  models_nodup := h.models_nodup
  counts := by rw [hs, hc]; exact h.counts
  early := by rw [hc]; exact h.early

theorem keysOf_eq_nil {id : ℕ} {ids : List ℕ} (hid : id ∉ ids) {keys : List TaskKey}
    (h : ∀ k ∈ keys, k.runId ∈ ids) : keysOf id keys = [] :=
  List.filter_eq_nil_iff.mpr fun k hk hkid => hid (of_decide_eq_true hkid ▸ h k hk)

theorem summariesOf_eq_nil {id : ℕ} {ids : List ℕ} (hid : id ∉ ids) {rows : List SummaryRow}
    (h : ∀ row ∈ rows, row.runId ∈ ids) : summariesOf id rows = [] :=
  List.filter_eq_nil_iff.mpr fun row hrow hid' => hid (of_decide_eq_true hid' ▸ h row hrow)

/-- A run balances before its tasks are inserted. There is nothing of it
in any table yet, since its identifier is new. -/
theorem balanced_new {id : ℕ} {request : RunRequest} {ids : List ℕ} (hid : id ∉ ids)
    {keys counted : List TaskKey} {summaries : List SummaryRow}
    (hk : ∀ k ∈ keys, k.runId ∈ ids) (hc : ∀ k ∈ counted, k.runId ∈ ids)
    (hs : ∀ row ∈ summaries, row.runId ∈ ids) :
    Balanced keys counted summaries ⟨id, request, .runInserted⟩ where
  perm := by
    rw [keysOf_eq_nil hid hk, keysOf_eq_nil hid hc]
    exact List.Perm.nil
  keys_nodup := List.nodup_nil
  models := by
    rw [summariesOf_eq_nil hid hs]
    rfl
  models_nodup := List.nodup_nil
  counts := by
    rw [summariesOf_eq_nil hid hs]
    exact fun _ h => absurd h List.not_mem_nil
  early _ := keysOf_eq_nil hid hc

namespace BenchmarkInv

variable {s s' : BenchmarkSystem}

theorem map_id_advance (s : BenchmarkSystem) (id : ℕ) (stage : CreateStage) :
    (s.advance id stage).map Creation.id = s.creations.map Creation.id := by
  unfold BenchmarkSystem.advance
  rw [List.map_map]
  refine List.map_congr_left fun c _ => ?_
  show (if c.id = id then { c with stage := stage } else c).id = c.id
  split <;> rfl

/-- Creations are identified by their run. -/
theorem creation_unique (h : BenchmarkInv s) {c c' : Creation} (hc : c ∈ s.creations)
    (hc' : c' ∈ s.creations) (hid : c.id = c'.id) : c = c' :=
  List.inj_on_of_nodup_map h.ids hc hc' hid

/-- After a creation has moved on, the others are as before. Creations are
told apart by the identifiers of their runs, which are distinct. -/
theorem mem_advance (h : BenchmarkInv s) {id : ℕ} {stage stage' : CreateStage} {c : Creation}
    (hc : s.creation? id stage = some c) {c' : Creation} (hc' : c' ∈ s.advance id stage') :
    c' = { c with stage := stage' } ∨ c' ∈ s.creations ∧ id ≠ c'.id := by
  have hfound := List.find?_some hc
  rw [decide_eq_true_eq] at hfound
  obtain ⟨c₀, hc₀, rfl⟩ := List.mem_map.mp hc'
  by_cases hid : c₀.id = id
  · left
    rw [if_pos hid, h.creation_unique hc₀ (List.mem_of_find?_eq_some hc)
      (hid.trans hfound.1.symm)]
  · right
    rw [if_neg hid]
    exact ⟨hc₀, Ne.symm hid⟩

theorem insertRun (h : BenchmarkInv s) {id : ℕ} {request : RunRequest} {now : Timestamp}
    (hstep : s.step (.insertRun id request now) = some s') : BenchmarkInv s' := by
  obtain ⟨db, hdb, hs'⟩ := Option.bind_eq_some_iff.mp hstep
  obtain rfl := Option.some.inj hs'
  unfold BenchmarkDb.insertRun at hdb
  split at hdb
  · exact absurd hdb (by simp)
  next hnew =>
  obtain rfl := Option.some.inj hdb
  have hid : id ∉ s.creations.map Creation.id := h.runs ▸ (not_or.mp hnew).1
  have hsub : ∀ i ∈ s.creations.map Creation.id,
      i ∈ (s.creations ++ [(⟨id, request, .runInserted⟩ : Creation)]).map Creation.id :=
    fun i hi => by
    rw [List.map_append]
    exact List.mem_append_left _ hi
  constructor
  · rw [List.map_append, List.nodup_append]
    refine ⟨h.ids, List.nodup_singleton _, ?_⟩
    rintro i hi j hj rfl
    rw [List.mem_singleton.mp hj] at hi
    exact hid hi
  · show (s.db.runs ++ [_]).map RunRow.id = _
    rw [List.map_append, List.map_append, h.runs]
    rfl
  · exact fun k hk => hsub _ (h.keys_known k hk)
  · exact fun k hk => hsub _ (h.counted_known k hk)
  · exact fun row hrow => hsub _ (h.summaries_known row hrow)
  · intro c hc
    rcases List.mem_append.mp hc with hc | hc
    · exact h.balanced c hc
    · obtain rfl := List.mem_singleton.mp hc
      exact balanced_new hid h.keys_known h.counted_known h.summaries_known

theorem insertTasks (h : BenchmarkInv s) {id : ℕ} {receipts : List ℕ}
    (hstep : s.step (.insertTasks id receipts) = some s') : BenchmarkInv s' := by
  obtain ⟨c, hc, hrest⟩ := Option.bind_eq_some_iff.mp hstep
  obtain ⟨db, hdb, hs'⟩ := Option.bind_eq_some_iff.mp hrest
  obtain rfl := Option.some.inj hs'
  have hfound := List.find?_some hc
  rw [decide_eq_true_eq] at hfound
  obtain ⟨rfl, hstage⟩ := hfound
  have hmem := List.mem_of_find?_eq_some hc
  unfold BenchmarkDb.insertTasks at hdb
  dsimp only at hdb
  split at hdb
  swap
  · exact absurd hdb (by simp)
  next hinsert =>
  obtain rfl := Option.some.inj hdb
  have hkeys : ∀ (rows : List TaskRow) (new : List TaskKey),
      (rows ++ new.map TaskKey.queued).map TaskRow.toTaskKey
        = rows.map TaskRow.toTaskKey ++ new := fun rows new => by
    rw [List.map_append, List.map_map]
    exact congrArg _ (List.map_id new)
  constructor
  · rw [map_id_advance]
    exact h.ids
  · rw [map_id_advance]
    exact h.runs
  · intro k hk
    rw [map_id_advance]
    unfold BenchmarkDb.keys at hk
    rw [hkeys] at hk
    rcases List.mem_append.mp hk with hk | hk
    · exact h.keys_known k hk
    · rw [(runId_of_mem_taskKeys hk).1]
      exact List.mem_map_of_mem hmem
  · rw [map_id_advance]
    exact h.counted_known
  · rw [map_id_advance]
    exact h.summaries_known
  · intro c' hc'
    unfold BenchmarkDb.keys
    rw [hkeys]
    -- the run itself had no tasks before, and the others get none
    rcases h.mem_advance hc hc' with rfl | ⟨hold, hne⟩
    · have hbal := h.balanced c hmem
      have hperm := hbal.perm
      have hmodels := hbal.models
      unfold Creation.expectedKeys at hperm
      unfold Creation.expectedModels at hmodels
      rw [if_pos hstage] at hperm
      rw [if_neg (by rw [hstage]; decide)] at hmodels
      obtain ⟨hqueue, hcounted⟩ := List.append_eq_nil_iff.mp hperm.eq_nil
      exact {
        perm := by
          show (keysOf c.id _ ++ keysOf c.id s.counted).Perm _
          rw [keysOf_append, keysOf_taskKeys_self, hcounted, List.append_nil]
          unfold BenchmarkDb.keys at hqueue
          rw [hqueue]
          exact List.Perm.refl _
        keys_nodup := (List.nodup_append.mp hinsert.1).2.1
        models := hmodels
        models_nodup := List.nodup_nil
        counts := hbal.counts
        early := fun _ => hcounted }
    · refine (h.balanced c' hold).congr ?_ rfl rfl
      rw [keysOf_append, keysOf_taskKeys_of_ne hne, List.append_nil]
      rfl

theorem insertSummaries (h : BenchmarkInv s) {id : ℕ}
    (hstep : s.step (.insertSummaries id) = some s') : BenchmarkInv s' := by
  obtain ⟨c, hc, hrest⟩ := Option.bind_eq_some_iff.mp hstep
  obtain ⟨db, hdb, hs'⟩ := Option.bind_eq_some_iff.mp hrest
  obtain rfl := Option.some.inj hs'
  have hfound := List.find?_some hc
  rw [decide_eq_true_eq] at hfound
  obtain ⟨rfl, hstage⟩ := hfound
  have hmem := List.mem_of_find?_eq_some hc
  unfold BenchmarkDb.insertSummaries at hdb
  split at hdb
  swap
  · exact absurd hdb (by simp)
  next hinsert =>
  obtain rfl := Option.some.inj hdb
  constructor
  · rw [map_id_advance]
    exact h.ids
  · rw [map_id_advance]
    exact h.runs
  · rw [map_id_advance]
    exact h.keys_known
  · rw [map_id_advance]
    exact h.counted_known
  · intro row hrow
    rw [map_id_advance]
    rcases List.mem_append.mp hrow with hrow | hrow
    · exact h.summaries_known row hrow
    · obtain ⟨m, -, rfl⟩ := List.mem_map.mp hrow
      exact List.mem_map_of_mem hmem
  · intro c' hc'
    -- the run itself gets its summaries, when nothing of it has been counted yet;
    -- the other runs see none of them
    rcases h.mem_advance hc hc' with rfl | ⟨hold, hne⟩
    · have hbal := h.balanced c hmem
      have hperm := hbal.perm
      have hkeys := hbal.keys_nodup
      have hmodels := hbal.models
      have hcounted := hbal.early (by rw [hstage]; decide)
      unfold Creation.expectedKeys at hperm hkeys
      unfold Creation.expectedModels at hmodels
      rw [if_neg (by rw [hstage]; decide)] at hperm hkeys hmodels
      have hold : summariesOf c.id s.db.summaries = [] := List.map_eq_nil_iff.mp hmodels
      have hsummaries : summariesOf c.id (s.db.summaries
          ++ c.request.modelIds.map (SummaryRow.fresh c.id c.request.modelDigests))
          = c.request.modelIds.map (SummaryRow.fresh c.id c.request.modelDigests) := by
        unfold summariesOf at hold ⊢
        rw [List.filter_append, hold, List.nil_append]
        refine List.filter_eq_self.mpr fun row hrow => ?_
        obtain ⟨m, -, rfl⟩ := List.mem_map.mp hrow
        exact decide_eq_true rfl
      exact {
        perm := hperm
        keys_nodup := hkeys
        models := by
          show (summariesOf c.id _).map SummaryRow.modelId = _
          rw [hsummaries, List.map_map]
          exact List.map_id _
        models_nodup := by
          have hnew := (List.nodup_append.mp hinsert).2.1
          exact hnew.of_map _
        counts := by
          show ∀ row ∈ summariesOf c.id _, _
          rw [hsummaries]
          intro row hrow
          obtain ⟨m, -, rfl⟩ := List.mem_map.mp hrow
          show (0 : ℕ) = 0 + 0 ∧ 0 = (keysOf c.id s.counted).countP _
          rw [hcounted]
          exact ⟨rfl, rfl⟩
        early := fun hne => absurd rfl hne }
    · refine (h.balanced c' hold).congr rfl rfl ?_
      have hnew : (c.request.modelIds.map (SummaryRow.fresh c.id c.request.modelDigests)).filter
          (fun row => row.runId = c'.id) = [] := by
        refine List.filter_eq_nil_iff.mpr fun row hrow hid => ?_
        obtain ⟨m, -, rfl⟩ := List.mem_map.mp hrow
        exact hne (of_decide_eq_true hid)
      unfold summariesOf
      rw [List.filter_append, hnew, List.append_nil]

/-- Rewriting a task in place does not concern the balance. Leasing and
retrying are of this kind: the balance counts keys, and no key changes. -/
theorem updateTask (h : BenchmarkInv s) (key : TaskKey) (f : TaskRow → TaskRow)
    (hf : ∀ row, (f row).toTaskKey = row.toTaskKey) (held : List TaskRow) :
    BenchmarkInv { s with db := s.db.updateTask key f, held := held } := by
  have hkeys : (s.db.updateTask key f).keys = s.db.keys := by
    unfold BenchmarkDb.keys BenchmarkDb.updateTask
    rw [List.map_map]
    refine List.map_congr_left fun row _ => ?_
    show (if row.toTaskKey = key then f row else row).toTaskKey = row.toTaskKey
    split
    · exact hf row
    · rfl
  exact {
    ids := h.ids
    runs := h.runs
    keys_known := by
      show ∀ k ∈ (s.db.updateTask key f).keys, _
      rw [hkeys]
      exact h.keys_known
    counted_known := h.counted_known
    summaries_known := h.summaries_known
    balanced := fun c hc => by
      show Balanced (s.db.updateTask key f).keys _ _ _
      rw [hkeys]
      exact h.balanced c hc }

theorem lease (h : BenchmarkInv s) {now : Timestamp} {locked : List TaskKey}
    (hstep : s.step (.lease now locked) = some s') : BenchmarkInv s' := by
  obtain ⟨row, -, -, rfl⟩ := BenchmarkSystem.step_lease hstep
  exact h.updateTask row.toTaskKey (TaskRow.leased now) (fun _ => rfl) (row :: s.held)

theorem retry (h : BenchmarkInv s) {task : TaskRow} {waiting : Bool} {now : Timestamp}
    (hstep : s.step (.retry task waiting now) = some s') : BenchmarkInv s' := by
  obtain ⟨-, rfl⟩ := BenchmarkSystem.step_retry hstep
  exact h.updateTask task.toTaskKey (TaskRow.retried task waiting now) (fun _ => rfl)
    (s.held.erase task)

end BenchmarkInv

/-! ## Finishing

This is the step that can break the books: it deletes a row and adds to a
summary, and does the latter whether or not the row was there. If it was
there, the two changes cancel out. -/

/-- A step that finishes a task finds the task in the queue exactly if it
finds the summary that counts it. Both are conditions on the state
before. -/
def FinishMatches (s : BenchmarkSystem) : BenchmarkAction → Prop
  | .finish task _ _ =>
    task.toTaskKey ∈ s.db.keys ↔ ∃ row ∈ s.db.summaries, row.Of task.toTaskKey
  | _ => True

instance (s : BenchmarkSystem) (a : BenchmarkAction) : Decidable (FinishMatches s a) :=
  match a with
  | .finish task _ _ => inferInstanceAs (Decidable
      (task.toTaskKey ∈ s.db.keys ↔ ∃ row ∈ s.db.summaries, row.Of task.toTaskKey))
  | .insertRun .. => isTrue trivial
  | .insertTasks .. => isTrue trivial
  | .insertSummaries .. => isTrue trivial
  | .lease .. => isTrue trivial
  | .retry .. => isTrue trivial

theorem keys_filter_ne (db : BenchmarkDb) (key : TaskKey) :
    (db.tasks.filter (fun row => row.toTaskKey ≠ key)).map TaskRow.toTaskKey
      = db.keys.filter (fun k => k ≠ key) := by
  unfold BenchmarkDb.keys
  rw [List.filter_map]
  rfl

theorem runId_add (key : TaskKey) (o : Outcome) (row : SummaryRow) :
    (if row.Of key then row.add o else row).runId = row.runId := by
  split <;> rfl

theorem summariesOf_map_add (id : ℕ) (key : TaskKey) (o : Outcome) (rows : List SummaryRow) :
    summariesOf id (rows.map (fun row => if row.Of key then row.add o else row))
      = (summariesOf id rows).map (fun row => if row.Of key then row.add o else row) := by
  unfold summariesOf
  rw [List.filter_map]
  congr 1
  exact List.filter_congr fun row _ => by rw [Function.comp_apply, runId_add]

theorem keysOf_filter_ne_of_ne {id : ℕ} {key : TaskKey} (h : key.runId ≠ id)
    (keys : List TaskKey) : keysOf id (keys.filter (fun k => k ≠ key)) = keysOf id keys := by
  unfold keysOf
  rw [List.filter_filter]
  refine List.filter_congr fun k _ => ?_
  by_cases hk : k = key
  · subst hk
    simp [h]
  · simp [hk]

/-- Finishing a queued task whose summary exists keeps its run balanced:
the key moves from the queue to the counted ones, and the summary counts
it. -/
theorem Balanced.finish {keys counted : List TaskKey} {summaries : List SummaryRow}
    {c : Creation} (h : Balanced keys counted summaries c) {key : TaskKey} (o : Outcome)
    (hid : key.runId = c.id) (hkey : key ∈ keys) (hrow : ∃ row ∈ summaries, row.Of key) :
    Balanced (keys.filter (fun k => k ≠ key)) (key :: counted)
      (summaries.map (fun row => if row.Of key then row.add o else row)) c := by
  have hcounted : keysOf c.id (key :: counted) = key :: keysOf c.id counted :=
    List.filter_cons_of_pos (decide_eq_true hid)
  have hnodup : (keysOf c.id keys).Nodup :=
    (h.perm.nodup_iff.mpr h.keys_nodup).sublist (List.sublist_append_left _ _)
  have hmem : key ∈ keysOf c.id keys := List.mem_filter.mpr ⟨hkey, decide_eq_true hid⟩
  have hkeys : keysOf c.id (keys.filter (fun k => k ≠ key)) = (keysOf c.id keys).erase key := by
    rw [hnodup.erase_eq_filter]
    unfold keysOf
    rw [List.filter_filter, List.filter_filter]
    refine List.filter_congr fun k _ => ?_
    by_cases hk : k = key <;> simp [hk]
  constructor
  · rw [hkeys, hcounted]
    refine (List.perm_middle).trans ?_
    rw [← List.cons_append]
    exact ((List.perm_cons_erase hmem).symm.append_right _).trans h.perm
  · exact h.keys_nodup
  · rw [summariesOf_map_add, List.map_map, ← h.models]
    refine List.map_congr_left fun row _ => ?_
    show (if row.Of key then row.add o else row).modelId = row.modelId
    split <;> rfl
  · exact h.models_nodup
  · rw [summariesOf_map_add, hcounted]
    intro row' hrow'
    obtain ⟨row, hrow, rfl⟩ := List.mem_map.mp hrow'
    obtain ⟨hsum, hcompleted⟩ := h.counts row hrow
    have hrun : row.runId = key.runId := by
      rw [hid]
      exact of_decide_eq_true (List.mem_filter.mp hrow).2
    -- the one summary that the task belongs to counts it, and so does the list
    by_cases hof : row.Of key
    · rw [if_pos hof, List.countP_cons]
      show row.completed + 1 = (row.succeeded + _) + (row.failed + _)
        ∧ row.completed + 1 = _ + (if decide (key.modelId = row.modelId) = true then 1 else 0)
      rw [if_pos (decide_eq_true hof.2.symm)]
      refine ⟨?_, congrArg (· + 1) hcompleted⟩
      rw [hsum]
      cases o.success <;> simp <;> omega
    · have hmodel : ¬ key.modelId = row.modelId := fun hm => hof ⟨hrun, hm.symm⟩
      rw [if_neg hof, List.countP_cons_of_neg (by simpa using hmodel)]
      exact ⟨hsum, hcompleted⟩
  · intro hstage
    obtain ⟨row, hrow, hof⟩ := hrow
    have hmodels := h.models
    unfold Creation.expectedModels at hmodels
    rw [if_neg hstage] at hmodels
    have hnone := List.map_eq_nil_iff.mp hmodels
    have hsome : row ∈ summariesOf c.id summaries :=
      List.mem_filter.mpr ⟨hrow, decide_eq_true (hof.1.trans hid)⟩
    rw [hnone] at hsome
    exact absurd hsome List.not_mem_nil

namespace BenchmarkInv

variable {s s' : BenchmarkSystem}

theorem finish (h : BenchmarkInv s) {task : TaskRow} {o : Outcome} {now : Timestamp}
    (hguard : FinishMatches s (.finish task o now))
    (hstep : s.step (.finish task o now) = some s') : BenchmarkInv s' := by
  obtain ⟨-, db, hdb, rfl⟩ := BenchmarkSystem.step_finish hstep
  unfold BenchmarkDb.finishTask at hdb
  dsimp only at hdb
  split at hdb
  swap
  · exact absurd hdb (by simp)
  obtain rfl := Option.some.inj hdb
  have hruns : ∀ (p : RunRow → Prop) [DecidablePred p] (t : Timestamp),
      (s.db.runs.map fun run => if p run then
        { run with status := RunStatus.completed, completedAt := some t } else run).map RunRow.id
        = s.db.runs.map RunRow.id := fun p _ t => by
    rw [List.map_map]
    refine List.map_congr_left fun run _ => ?_
    show (if p run then _ else run).id = run.id
    split <;> rfl
  constructor
  · exact h.ids
  · rw [hruns]
    exact h.runs
  · unfold BenchmarkDb.keys
    rw [keys_filter_ne]
    exact fun k hk => h.keys_known k (List.mem_of_mem_filter hk)
  · intro k hk
    dsimp only at hk
    split at hk
    · next hsummary =>
      rcases List.mem_cons.mp hk with rfl | hk
      · obtain ⟨row, hrow, hof⟩ := hsummary
        exact hof.1 ▸ h.summaries_known row hrow
      · exact h.counted_known k hk
    · exact h.counted_known k hk
  · intro row' hrow'
    obtain ⟨row, hrow, rfl⟩ := List.mem_map.mp hrow'
    rw [runId_add]
    exact h.summaries_known row hrow
  · intro c hc
    unfold BenchmarkDb.keys
    rw [keys_filter_ne]
    by_cases hsummary : ∃ row ∈ s.db.summaries, row.Of task.toTaskKey
    · rw [if_pos hsummary]
      by_cases hid : task.runId = c.id
      · exact (h.balanced c hc).finish o hid (hguard.mpr hsummary) hsummary
      · refine (h.balanced c hc).congr (keysOf_filter_ne_of_ne hid _) ?_ ?_
        · exact List.filter_cons_of_neg (by simpa using hid)
        · rw [summariesOf_map_add]
          refine (List.map_congr_left fun row hrow => ?_).trans (List.map_id _)
          have hrun : row.runId = c.id := of_decide_eq_true (List.mem_filter.mp hrow).2
          exact if_neg fun hof => hid (hof.1.symm.trans hrun)
    · -- neither the task nor its summary is there: the call changes nothing
      have hkey : task.toTaskKey ∉ s.db.keys := fun hmem => hsummary (hguard.mp hmem)
      rw [if_neg hsummary]
      refine (h.balanced c hc).congr ?_ rfl ?_
      · congr 1
        exact List.filter_eq_self.mpr fun k hk =>
          decide_eq_true fun heq => hkey (heq ▸ hk)
      · congr 1
        refine (List.map_congr_left fun row hrow => ?_).trans (List.map_id _)
        exact if_neg fun hof => hsummary ⟨row, hrow, hof⟩

theorem empty : BenchmarkInv .empty := by
  constructor <;> simp [BenchmarkSystem.empty, BenchmarkDb.keys]

/-- Every step that matches keeps the books. -/
theorem step (h : BenchmarkInv s) (a : BenchmarkAction) (hguard : FinishMatches s a)
    (hstep : s.step a = some s') : BenchmarkInv s' := by
  cases a with
  | insertRun id request now => exact h.insertRun hstep
  | insertTasks id receipts => exact h.insertTasks hstep
  | insertSummaries id => exact h.insertSummaries hstep
  | lease now locked => exact h.lease hstep
  | retry task waiting now => exact h.retry hstep
  | finish task o now => exact h.finish hguard hstep

end BenchmarkInv

/-- The books of a run are right: the counts add up to its pairs, no pair
is counted twice, and each summary counts the tasks of its model,
succeeded and failed. -/
structure BooksRight (s : BenchmarkSystem) (c : Creation) : Prop where
  total : (s.db.taskCounts c.id).total
    = c.request.modelIds.length * c.request.receiptIds.length
  once : ∀ model receipt, s.counted.count ⟨c.id, model, receipt⟩ ≤ 1
  summaries : ∀ row ∈ s.db.summaries, row.runId = c.id →
    row.completed = row.succeeded + row.failed
      ∧ row.completed = s.counted.countP (fun k => k.runId = c.id ∧ k.modelId = row.modelId)

/-- **The books of a benchmark run are right** in every state that is
reached while each finished task is queued exactly if its summary exists.
Runs are created, leased from and retried at any time in between. -/
theorem benchmark_booksRight {s : BenchmarkSystem}
    (run : Run BenchmarkSystem.step FinishMatches .empty s) {c : Creation}
    (hc : c ∈ s.creations) (hreturned : c.stage = .returned) : BooksRight s c := by
  have hinv : BenchmarkInv s :=
    run.invariant BenchmarkInv.empty fun _ a _ h hguard hstep => h.step a hguard hstep
  have hbal := hinv.balanced c hc
  refine ⟨hbal.total hreturned, fun model receipt => hbal.count_le_one rfl, fun row hrow hid => ?_⟩
  obtain ⟨hsum, hcount⟩ :=
    hbal.counts row (List.mem_filter.mpr ⟨hrow, decide_eq_true hid⟩)
  refine ⟨hsum, hcount.trans ?_⟩
  unfold keysOf
  rw [List.countP_filter]
  exact List.countP_congr fun k _ => by simp [and_comm]

/-! ## One task

The same task is leased twice, the second time after its first lease has
expired. If only one worker reports, the books are right; if both do, it
is counted twice. -/

/-- The task as a second worker holds it, after the lease of the first has
expired. -/
def secondLease : TaskRow := firstLease.leased 0

/-- The creation of the run, once it has returned. -/
def oneTaskCreation : Creation := ⟨1, oneTaskRequest, .returned⟩

/-- The task is leased and finished. -/
theorem oneTask_booksRight :
    ∃ s, exec BenchmarkSystem.step FinishMatches .empty
        (createOneTask ++ [.lease 0 [], .finish firstLease { success := true } (seconds 100)])
      = some s ∧ oneTaskCreation ∈ s.creations ∧ BooksRight s oneTaskCreation := by
  obtain ⟨s, hs, hc⟩ : ∃ s, exec BenchmarkSystem.step FinishMatches .empty
        (createOneTask ++ [.lease 0 [], .finish firstLease { success := true } (seconds 100)])
      = some s ∧ oneTaskCreation ∈ s.creations := ⟨_, rfl, List.mem_singleton.mpr rfl⟩
  exact ⟨s, hs, hc, benchmark_booksRight (Run.start.exec hs) hc rfl⟩

/-- **A task is counted twice**: its holder takes longer than the six
minutes of the lease, another worker leases and finishes the task, and
then the first worker finishes it as well. -/
theorem expiredLease_countsTwice :
    ∃ s, Reachable BenchmarkSystem.step .empty s ∧ oneTaskCreation ∈ s.creations
      ∧ oneTaskCreation.stage = .returned ∧ ¬ BooksRight s oneTaskCreation := by
  obtain ⟨s, hs, hc, htotal⟩ : ∃ s, exec BenchmarkSystem.step (fun _ _ => True) .empty
        (createOneTask ++ [.lease 0 [], .lease (seconds 361) [],
          .finish secondLease { success := true } (seconds 400),
          .finish firstLease { success := true } (seconds 420)]) = some s
      ∧ oneTaskCreation ∈ s.creations ∧ (s.db.taskCounts 1).total = 2 :=
    ⟨_, rfl, List.mem_singleton.mpr rfl, rfl⟩
  refine ⟨s, Run.start.exec hs, hc, rfl, fun h => ?_⟩
  exact absurd (htotal.symm.trans h.total) (by decide)

end VisionBill
