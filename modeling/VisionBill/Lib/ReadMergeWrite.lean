import Mathlib.Data.List.Basic
import Mathlib.Logic.Function.Basic

/-!
# Two writers that read first

Two writers change one value. Each reads it, and later writes a value that
it has made from what it has *seen*, over whatever is there by then. A
*race* is the value with the progress of both; a *schedule* says whose
moves came one after the other.

If the schedules of the two do not overlap, the second one has seen what
the first one wrote. If they do, the one that writes last has seen the
value from the start, and the other's write is lost (`Runs.outcome`).

## Why five cases are enough

Nothing is said of what a writer makes of a value, so the only thing that
can be told of a race is who has seen what. There are five possibilities
(`Invariant`): nobody has written; one has, and the other one has not
begun, has seen the value from the start, or has seen what was written;
both have written. Each comes with what the schedule must have been, and
that is what lets the last case decide from the schedule alone.

A move may also do nothing to the value: between reading and writing a
writer can be busy elsewhere, which takes as many moves as it likes. So a
schedule is not a list of two reads and two writes, and overlapping is a
property of subsequences (`Overlap`).
-/

/-- How far a writer has come. One that has read holds what it has seen,
and writes something made from that, whatever is stored by then. -/
inductive Progress (α : Type)
  | fresh
  | holding (seen : α)
  | finished

/-- A value and its two writers. Each reads the value, merges its change
into what it has read, and writes the result back. -/
structure Race (α : Type) where
  value : α
  progress : Bool → Progress α

namespace Race

variable {α : Type}

/-- A move of a writer. Between its read and its write it may do other
things, for which the value does not matter. -/
inductive Move
  | read
  | wait
  | write

/-- Nobody has read yet. -/
def start (value : α) : Race α := ⟨value, fun _ => .fresh⟩

/-- A writer is somewhere else. -/
def become (s : Race α) (i : Bool) (progress : Progress α) : Race α :=
  { s with progress := Function.update s.progress i progress }

/-- One move of a writer; `write i seen value` is what it makes of a
value. A writer that is busy with something else changes nothing, and one
that has finished makes no more moves. -/
def step (write : Bool → α → α → α) (s : Race α) (i : Bool) : Move → Option (Race α)
  | .read =>
    match s.progress i with
    | .fresh => some (s.become i (.holding s.value))
    | _ => none
  | .wait =>
    match s.progress i with
    | .holding _ => some s
    | _ => none
  | .write =>
    match s.progress i with
    | .holding seen => some { s.become i .finished with value := write i seen s.value }
    | _ => none

/-- The races that schedules lead to. A schedule keeps who has moved, and
not what the move was: being late is a matter of order alone. -/
inductive Runs (write : Bool → α → α → α) (value : α) : List Bool → Race α → Prop
  | start : Runs write value [] (start value)
  | move {schedule : List Bool} {s s' : Race α} (i : Bool) (m : Move)
      (runs : Runs write value schedule s) (hstep : s.step write i m = some s') :
      Runs write value (schedule ++ [i]) s'

/-- One of the two makes a move between two moves of the other. Since the
first move of a writer is to read and its last one to write, two that
finish do not overlap exactly if one of them has written before the other
one reads. -/
def Overlap (schedule : List Bool) : Prop := ∃ i, [i, !i, i].Sublist schedule

instance : DecidablePred Overlap := fun schedule =>
  inferInstanceAs (Decidable (∃ i, [i, !i, i].Sublist schedule))

theorem not_overlap_append {i : Bool} {l l' : List Bool} (hl : ∀ j ∈ l, j = i)
    (hl' : ∀ j ∈ l', j = !i) : ¬ Overlap (l ++ l') := by
  rintro ⟨j, h⟩
  -- after a move of the second one there is none of the first one
  have hpair : (l ++ l').Pairwise fun a b => a = !i → b = !i := by
    refine List.pairwise_append.mpr ⟨?_, ?_, fun a ha b hb _ => hl' b hb⟩
    · exact List.pairwise_of_forall_mem_list fun a ha b hb heq => by simp [hl a ha] at heq
    · exact List.pairwise_of_forall_mem_list fun a ha b hb _ => hl' b hb
  have hthree := hpair.sublist h
  simp only [List.pairwise_cons, List.mem_cons, forall_eq_or_imp] at hthree
  obtain ⟨⟨hfirst, -⟩, ⟨hsecond, -⟩, -⟩ := hthree
  cases i <;> cases j <;> simp at hfirst hsecond

variable {write : Bool → α → α → α} {value : α} {schedule : List Bool} {s s' : Race α} {i : Bool}

/-- What is so along a schedule: how far the two have come, what the one
that holds something has seen, and what schedule that takes. -/
inductive Invariant (write : Bool → α → α → α) (value : α) (schedule : List Bool) (s : Race α) :
    Prop
  | reading (hvalue : s.value = value)
      (hprogress : ∀ i, (s.progress i = .fresh ∧ i ∉ schedule)
        ∨ (s.progress i = .holding value ∧ i ∈ schedule))
  | ahead (i : Bool) (hvalue : s.value = write i value value) (hi : s.progress i = .finished)
      (hfresh : s.progress (!i) = .fresh) (hschedule : ∀ j ∈ schedule, j = i)
  | late (i : Bool) (hvalue : s.value = write i value value) (hi : s.progress i = .finished)
      (hseen : s.progress (!i) = .holding value) (hschedule : [!i, i].Sublist schedule)
  | informed (i : Bool) (hvalue : s.value = write i value value) (hi : s.progress i = .finished)
      (hseen : s.progress (!i) = .holding (write i value value))
      (hschedule : ∃ l l', schedule = l ++ l' ∧ (∀ j ∈ l, j = i) ∧ ∀ j ∈ l', j = !i)
  | finished (i : Bool) (hprogress : ∀ j, s.progress j = .finished)
      (hlast : schedule.getLast? = some (!i))
      (hvalue : (Overlap schedule ∧ s.value = write (!i) value (write i value value))
        ∨ (¬ Overlap schedule
          ∧ s.value = write (!i) (write i value value) (write i value value)))

/-- What a move does: the writer reads, is busy, or writes from what it
has seen. -/
theorem step_cases {m : Move} (h : s.step write i m = some s') :
    (s.progress i = .fresh ∧ s' = s.become i (.holding s.value))
      ∨ (∃ seen, s.progress i = .holding seen ∧ s' = s)
      ∨ ∃ seen, s.progress i = .holding seen
        ∧ s' = { s.become i .finished with value := write i seen s.value } := by
  unfold step at h
  cases m with
  | read =>
    dsimp only at h
    split at h
    · next hfresh => exact Or.inl ⟨hfresh, (Option.some.inj h).symm⟩
    · exact absurd h (by simp)
  | wait =>
    dsimp only at h
    split at h
    · next seen hseen => exact Or.inr (Or.inl ⟨seen, hseen, (Option.some.inj h).symm⟩)
    · exact absurd h (by simp)
  | write =>
    dsimp only at h
    split at h
    · next seen hseen => exact Or.inr (Or.inr ⟨seen, hseen, (Option.some.inj h).symm⟩)
    · exact absurd h (by simp)

theorem progress_become (s : Race α) (i j : Bool) (progress : Progress α) :
    (s.become i progress).progress j = if j = i then progress else s.progress j :=
  Function.update_apply s.progress i progress j

/-- The other writer stays where it is. -/
theorem progress_of_step {m : Move} {j : Bool} (h : s.step write i m = some s') (hj : j ≠ i) :
    s'.progress j = s.progress j := by
  obtain ⟨-, rfl⟩ | ⟨seen, -, rfl⟩ | ⟨seen, -, rfl⟩ := step_cases h
  · exact (progress_become s i j _).trans (if_neg hj)
  · rfl
  · exact (progress_become s i j _).trans (if_neg hj)

/-- A writer that has not finished is not the one that has. -/
theorem eq_other {j : Bool} (hj : s.progress j = .finished) (hi : s.progress i ≠ .finished) :
    i = !j := by
  refine Bool.eq_not.mpr fun heq => hi ?_
  rw [heq, hj]

/-- A writer that reads. Whether the other one has written by then decides
whether it is informed or late. -/
theorem Invariant.read (h : Invariant write value schedule s) (hfresh : s.progress i = .fresh) :
    Invariant write value (schedule ++ [i]) (s.become i (.holding s.value)) := by
  cases h with
  | reading hvalue hprogress =>
    refine .reading hvalue fun j => ?_
    rw [progress_become, List.mem_append, List.mem_singleton]
    by_cases hj : j = i
    · exact Or.inr ⟨by rw [if_pos hj, hvalue], Or.inr hj⟩
    · rw [if_neg hj]
      exact (hprogress j).imp (fun h => ⟨h.1, not_or.mpr ⟨h.2, hj⟩⟩) fun h => ⟨h.1, Or.inl h.2⟩
  | ahead j hvalue hj hfresh' hschedule =>
    obtain rfl : i = !j := eq_other hj (by simp [hfresh])
    refine .informed j hvalue ?_ ?_ ⟨schedule, [!j], rfl, hschedule, by simp⟩
    · rw [progress_become, if_neg (by simp)]
      exact hj
    · rw [progress_become, if_pos rfl, hvalue]
  | late j hvalue hj hseen hschedule =>
    obtain rfl : i = !j := eq_other hj (by simp [hfresh])
    exact absurd (hfresh.symm.trans hseen) (by simp)
  | informed j hvalue hj hseen hschedule =>
    obtain rfl : i = !j := eq_other hj (by simp [hfresh])
    exact absurd (hfresh.symm.trans hseen) (by simp)
  | finished j hprogress hlast hvalue => exact absurd (hfresh.symm.trans (hprogress i)) (by simp)

/-- A writer that does something else. The schedule grows by a move that
leaves the value and both writers as they are. -/
theorem Invariant.wait (h : Invariant write value schedule s) {seen : α}
    (hseen : s.progress i = .holding seen) : Invariant write value (schedule ++ [i]) s := by
  cases h with
  | reading hvalue hprogress =>
    refine .reading hvalue fun j => ?_
    rw [List.mem_append, List.mem_singleton]
    by_cases hj : j = i
    · subst hj
      obtain ⟨hfresh, -⟩ | ⟨hholding, -⟩ := hprogress j
      · exact absurd (hfresh.symm.trans hseen) (by simp)
      · exact Or.inr ⟨hholding, Or.inr rfl⟩
    · exact (hprogress j).imp (fun h => ⟨h.1, not_or.mpr ⟨h.2, hj⟩⟩) fun h => ⟨h.1, Or.inl h.2⟩
  | ahead j hvalue hj hfresh hschedule =>
    obtain rfl : i = !j := eq_other hj (by simp [hseen])
    exact absurd (hfresh.symm.trans hseen) (by simp)
  | late j hvalue hj hseen' hschedule =>
    exact .late j hvalue hj hseen' (hschedule.trans (List.sublist_append_left _ _))
  | informed j hvalue hj hseen' hschedule =>
    obtain ⟨l, l', rfl, hl, hl'⟩ := hschedule
    obtain rfl : i = !j := eq_other hj (by simp [hseen])
    refine .informed j hvalue hj hseen' ⟨l, l' ++ [!j], List.append_assoc _ _ _, hl, ?_⟩
    exact List.forall_mem_append.mpr ⟨hl', by simp⟩
  | finished j hprogress hlast hvalue => exact absurd (hseen.symm.trans (hprogress i)) (by simp)

/-- A writer that writes. If the other one has not yet, it is ahead of it;
if it has, the race is over, and it overlapped exactly if this one was
late. -/
theorem Invariant.written (h : Invariant write value schedule s) {seen : α}
    (hseen : s.progress i = .holding seen) :
    Invariant write value (schedule ++ [i])
      { s.become i .finished with value := write i seen s.value } := by
  have hlast : ∀ j, i = !j → (schedule ++ [i]).getLast? = some (!j) := by
    rintro j rfl
    exact List.getLast?_concat ..
  cases h with
  | reading hvalue hprogress =>
    obtain rfl : seen = value := by
      obtain ⟨hfresh, -⟩ | ⟨hholding, -⟩ := hprogress i
      · exact absurd (hfresh.symm.trans hseen) (by simp)
      · exact Progress.holding.inj (hseen.symm.trans hholding)
    have hi : (s.become i .finished).progress i = .finished := by
      rw [progress_become, if_pos rfl]
    have hother : (s.become i .finished).progress (!i) = s.progress (!i) := by
      rw [progress_become, if_neg (by simp)]
    -- whether the other one has read already decides whether it will be late
    obtain ⟨hfresh, hmem⟩ | ⟨hholding, hmem⟩ := hprogress (!i)
    · refine .ahead i (by rw [hvalue]) hi (hother.trans hfresh) fun j hj => ?_
      obtain hj | hj := List.mem_append.mp hj
      · by_contra hne
        exact hmem (Bool.eq_not.mpr hne ▸ hj)
      · exact List.mem_singleton.mp hj
    · refine .late i (by rw [hvalue]) hi (hother.trans hholding) ?_
      exact (List.singleton_sublist.mpr hmem).append (List.Sublist.refl [i])
  | ahead j hvalue hj hfresh hschedule =>
    obtain rfl : i = !j := eq_other hj (by simp [hseen])
    exact absurd (hfresh.symm.trans hseen) (by simp)
  | late j hvalue hj hseen' hschedule =>
    obtain rfl : i = !j := eq_other hj (by simp [hseen])
    obtain rfl := Progress.holding.inj (hseen.symm.trans hseen')
    refine .finished j (fun k => ?_) (hlast j rfl) (Or.inl ⟨⟨!j, ?_⟩, by rw [hvalue]⟩)
    · show (s.become (!j) .finished).progress k = _
      rw [progress_become]
      cases j <;> cases k <;> simp_all
    · rw [Bool.not_not]
      exact hschedule.append (List.Sublist.refl [!j])
  | informed j hvalue hj hseen' hschedule =>
    obtain rfl : i = !j := eq_other hj (by simp [hseen])
    obtain rfl := Progress.holding.inj (hseen.symm.trans hseen')
    obtain ⟨l, l', rfl, hl, hl'⟩ := hschedule
    refine .finished j (fun k => ?_) (hlast j rfl) (Or.inr ⟨?_, by rw [hvalue]⟩)
    · show (s.become (!j) .finished).progress k = _
      rw [progress_become]
      cases j <;> cases k <;> simp_all
    · rw [List.append_assoc]
      exact not_overlap_append hl (List.forall_mem_append.mpr ⟨hl', by simp⟩)
  | finished j hprogress hlast hvalue => exact absurd (hseen.symm.trans (hprogress i)) (by simp)

theorem Runs.invariant (h : Runs write value schedule s) : Invariant write value schedule s := by
  induction h with
  | start => exact .reading rfl fun i => Or.inl ⟨rfl, List.not_mem_nil⟩
  | move i m runs hstep ih =>
    obtain ⟨hfresh, rfl⟩ | ⟨seen, hseen, rfl⟩ | ⟨seen, hseen, rfl⟩ := step_cases hstep
    · exact ih.read hfresh
    · exact ih.wait hseen
    · exact ih.written hseen

/-- **What a race ends with.** The writer that comes last has seen what
the other one wrote if they do not overlap, and the value from the start
if they do. In the second case what the first one wrote is lost, except
for what the last one keeps of the value that it finds. -/
theorem Runs.outcome (h : Runs write value schedule s) (hfinished : ∀ i, s.progress i = .finished) :
    ∃ i, schedule.getLast? = some (!i)
      ∧ ((Overlap schedule ∧ s.value = write (!i) value (write i value value))
        ∨ (¬ Overlap schedule
          ∧ s.value = write (!i) (write i value value) (write i value value))) := by
  cases h.invariant with
  | reading hvalue hprogress =>
    obtain ⟨hi, -⟩ | ⟨hi, -⟩ := hprogress true
    · exact absurd (hi.symm.trans (hfinished true)) (by simp)
    · exact absurd (hi.symm.trans (hfinished true)) (by simp)
  | ahead i hvalue hi hfresh hschedule => exact absurd (hfresh.symm.trans (hfinished _)) (by simp)
  | late i hvalue hi hseen hschedule => exact absurd (hseen.symm.trans (hfinished _)) (by simp)
  | informed i hvalue hi hseen hschedule => exact absurd (hseen.symm.trans (hfinished _)) (by simp)
  | finished i hprogress hlast hvalue => exact ⟨i, hlast, hvalue⟩

end Race
