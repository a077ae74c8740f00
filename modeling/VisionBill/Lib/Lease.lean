import Mathlib.Data.List.Basic
import Mathlib.Data.Option.Basic
import Mathlib.Algebra.Order.Ring.Int

/-!
# Claims that run out

Parties claim jobs. A claim is good for a term, during which nobody else
may claim the job; after that another party may, and nothing tells the
first one. What a party has made of its job it writes without naming its
claim, so that the write of a party whose claim has run out looks like any
other.

## What keeps a party from writing too late

Only time does. A party is `Running` if its claim is the last one and its
job is still as the claim has left it, or the term is over: this survives
whatever the others do (`Step.running`). A party that writes in time
therefore writes to a job of its own (`Running.mine`). If all do, then no
write is that of a superseded party (`Mine.not_superseded`), and a job
that has ended stays as it ended (`Step.ended`).

## How steps are described

`Step` lists what a step may do to jobs and claims, and for a write asks
that the party be the one whose job it is. A system shows of each of its
operations which of these it is, and for its writes that they come in
time; the results about what parties know are then those of this module.
-/

namespace Lease

variable {ι π ω : Type}

/-- What may be claimed, what is claimed since a moment, and what has
ended. -/
inductive Job (ω : Type)
  | free
  | held (since : ℤ)
  | ended (outcome : ω)
  deriving DecidableEq

/-- A job may be claimed when nobody holds it, or when the term is
over. -/
def Job.Claimable (term now : ℤ) : Job ω → Prop
  | .free => True
  | .held since => since + term < now
  | .ended _ => False

/-- Who has claimed a job, and when. A job may be claimed again once its
lease has run out, so there may be several claims of it. -/
structure Claim (ι π : Type) where
  job : ι
  party : π
  time : ℤ
  deriving DecidableEq

/-- The jobs, and the claims so far, the latest first. The list of claims
is not part of what a system stores: it is what one has to remember in
order to say that a party was superseded. -/
structure State (ι π ω : Type) where
  job : ι → Option (Job ω)
  claims : List (Claim ι π)
  clock : ℤ
  /-- The identifiers that have been in use. -/
  issued : ι → Prop

variable [DecidableEq ι] [DecidableEq π]

namespace State

/-- The last claim of a job. -/
def last (s : State ι π ω) (i : ι) : Option (Claim ι π) := s.claims.find? fun c => c.job = i

/-- The last claim of a job by a party. -/
def own (s : State ι π ω) (p : π) (i : ι) : Option (Claim ι π) :=
  s.claims.find? fun c => decide (c.job = i) && decide (c.party = p)

/-- The job of a party has been claimed by somebody else, after its own
last claim. The party need not know. -/
def Superseded (s : State ι π ω) (p : π) (i : ι) : Prop :=
  (s.own p i).isSome ∧ ∃ c ∈ s.last i, c.party ≠ p

/-- The job is the party's own, and as its claim has left it. -/
def Mine (s : State ι π ω) (p : π) (i : ι) : Prop :=
  ∃ time, s.last i = some ⟨i, p, time⟩ ∧ ∀ j ∈ s.job i, j = .held time

/-- What a party knows of a job that it has claimed and not ended yet. The
term is part of it: once it is over, the party knows nothing. -/
def Running (term : ℤ) (p : π) (i : ι) (time : ℤ) (s : State ι π ω) : Prop :=
  s.own p i = some ⟨i, p, time⟩
    ∧ ((s.last i = some ⟨i, p, time⟩ ∧ ∀ j ∈ s.job i, j = .held time) ∨ time + term < s.clock)

/-- What a party knows of a job that it has ended. -/
def Closed (p : π) (i : ι) (s : State ι π ω) : Prop :=
  (∃ time, s.last i = some ⟨i, p, time⟩) ∧ ∀ j ∈ s.job i, ∃ outcome, j = .ended outcome

/-- No job is new to the identifiers. So a job that is created later is
not one that somebody has claimed before. -/
structure Inv (s : State ι π ω) : Prop where
  jobs : ∀ i, s.job i ≠ none → s.issued i
  claims : ∀ c ∈ s.claims, s.issued c.job

/-- Neither the clock nor the identifiers go back. This is what any step
does to the state as far as others are concerned. -/
structure Later (s s' : State ι π ω) : Prop where
  clock : s.clock ≤ s'.clock
  issued : ∀ i, s.issued i → s'.issued i

end State

open State

/-- What a step of a party may do. A write of another party must be one to
a job of its own (`finish`); this is the premise that a system without
fencing has to take from its clock. -/
inductive Step (term : ℤ) (p : π) (s s' : State ι π ω) : Prop
  /-- Nothing that concerns the jobs. -/
  | idle (hjob : s'.job = s.job) (hclaims : s'.claims = s.claims)
  /-- A new job. -/
  | create (i : ι) (hnew : ¬ s.issued i) (hissued : s'.issued i)
      (hjob : ∀ x, s'.job x = if x = i then some .free else s.job x)
      (hclaims : s'.claims = s.claims)
  /-- A job is claimed. -/
  | claim (i : ι) (old : Job ω) (hold : s.job i = some old)
      (hclaimable : old.Claimable term s'.clock)
      (hjob : ∀ x, s'.job x = if x = i then some (.held s'.clock) else s.job x)
      (hclaims : s'.claims = ⟨i, p, s'.clock⟩ :: s.claims)
  /-- A job, if it is there, is written by the party whose job it is. -/
  | finish (i : ι) (new : Job ω) (hmine : s.Mine p i)
      (hjob : ∀ x, s'.job x = if x = i then (s.job i).map fun _ => new else s.job x)
      (hclaims : s'.claims = s.claims)
  /-- A job goes. -/
  | drop (i : ι) (hjob : ∀ x, s'.job x = if x = i then none else s.job x)
      (hclaims : s'.claims = s.claims)

variable {s s' : State ι π ω} {term : ℤ} {p q : π} {i : ι} {time : ℤ}

/-! ## The claims -/

omit [DecidableEq π] in
theorem State.last_congr (h : s'.claims = s.claims) (i : ι) : s'.last i = s.last i := by
  unfold last
  rw [h]

theorem State.own_congr (h : s'.claims = s.claims) (p : π) (i : ι) : s'.own p i = s.own p i := by
  unfold own
  rw [h]

omit [DecidableEq π] in
/-- The last claim after one more. -/
theorem State.last_cons {j : ι} {now : ℤ} (h : s'.claims = ⟨j, q, now⟩ :: s.claims) (i : ι) :
    s'.last i = if j = i then some ⟨j, q, now⟩ else s.last i := by
  unfold last
  rw [h, List.find?_cons]
  by_cases hji : j = i <;> simp [hji]

theorem State.own_cons {j : ι} {now : ℤ} (h : s'.claims = ⟨j, q, now⟩ :: s.claims) (p : π) (i : ι) :
    s'.own p i = if j = i ∧ q = p then some ⟨j, q, now⟩ else s.own p i := by
  unfold own
  rw [h, List.find?_cons]
  by_cases hji : j = i <;> by_cases hqp : q = p <;> simp [hji, hqp]

/-- A job that was claimed is not new. -/
theorem State.Inv.issued_of_own (h : s.Inv) {c : Claim ι π} (hown : s.own p i = some c) :
    s.issued i := by
  have hjob := List.find?_some hown
  obtain ⟨rfl, -⟩ : c.job = i ∧ c.party = p := by simpa using hjob
  exact h.claims c (List.mem_of_find?_eq_some hown)

omit [DecidableEq π] in
theorem State.Inv.issued_of_last (h : s.Inv) {c : Claim ι π} (hlast : s.last i = some c) :
    s.issued i := by
  obtain rfl : c.job = i := by simpa using List.find?_some hlast
  exact h.claims c (List.mem_of_find?_eq_some hlast)

/-- Whose job it is was not superseded. -/
theorem State.Mine.not_superseded (h : s.Mine p i) : ¬ s.Superseded p i := by
  rintro ⟨-, c, hc, hne⟩
  obtain ⟨time, hlast, -⟩ := h
  obtain rfl := Option.some.inj (hlast.symm.trans hc)
  exact hne rfl

theorem State.Closed.not_superseded (h : s.Closed p i) : ¬ s.Superseded p i := by
  rintro ⟨-, c, hc, hne⟩
  obtain ⟨⟨time, hlast⟩, -⟩ := h
  obtain rfl := Option.some.inj (hlast.symm.trans hc)
  exact hne rfl

/-! ## What a step keeps

A party that has been superseded stays superseded, and a party that holds
its claim can only lose it to a claim that comes after its time. Each is
said of a single step. -/

omit [DecidableEq π] in
theorem Step.inv (h : Step term p s s') (hlater : s.Later s') (hinv : s.Inv) : s'.Inv := by
  cases h with
  | idle hjob hclaims =>
    exact ⟨fun i hi => hlater.issued i (hinv.jobs i (hjob ▸ hi)),
      fun c hc => hlater.issued c.job (hinv.claims c (hclaims ▸ hc))⟩
  | create j hnew hissued hjob hclaims =>
    refine ⟨fun i hi => ?_, fun c hc => hlater.issued c.job (hinv.claims c (hclaims ▸ hc))⟩
    rw [hjob] at hi
    split at hi
    · next heq => exact heq ▸ hissued
    · exact hlater.issued i (hinv.jobs i hi)
  | claim j old hold hclaimable hjob hclaims =>
    have hj : s.issued j := hinv.jobs j (by rw [hold]; simp)
    refine ⟨fun i hi => ?_, fun c hc => ?_⟩
    · rw [hjob] at hi
      split at hi
      · next heq => exact heq ▸ hlater.issued j hj
      · exact hlater.issued i (hinv.jobs i hi)
    · rw [hclaims] at hc
      cases hc with
      | head => exact hlater.issued j hj
      | tail _ hc => exact hlater.issued c.job (hinv.claims c hc)
  | finish j new hmine hjob hclaims =>
    refine ⟨fun i hi => ?_, fun c hc => hlater.issued c.job (hinv.claims c (hclaims ▸ hc))⟩
    rw [hjob] at hi
    split at hi
    · next heq => exact heq ▸ hlater.issued j (hinv.jobs j fun hnone => hi (by rw [hnone]; rfl))
    · exact hlater.issued i (hinv.jobs i hi)
  | drop j hjob hclaims =>
    refine ⟨fun i hi => ?_, fun c hc => hlater.issued c.job (hinv.claims c (hclaims ▸ hc))⟩
    rw [hjob] at hi
    split at hi
    · exact absurd rfl hi
    · exact hlater.issued i (hinv.jobs i hi)

/-- Nobody but a party itself claims in its name. -/
theorem Step.own (h : Step term p s s') (hne : q ≠ p) (i : ι) : s'.own q i = s.own q i := by
  cases h with
  | claim j old hold hclaimable hjob hclaims =>
    rw [own_cons hclaims, if_neg fun hand => hne hand.2.symm]
  | idle _ hclaims => exact own_congr hclaims q i
  | create _ _ _ _ hclaims => exact own_congr hclaims q i
  | finish _ _ _ _ hclaims => exact own_congr hclaims q i
  | drop _ _ hclaims => exact own_congr hclaims q i

/-- **What a running party knows survives the steps of others**: within
the term nobody can claim its job, and nobody else writes to it, since who
writes to a job has its last claim. -/
theorem Step.running (h : Step term p s s') (hlater : s.Later s') (hinv : s.Inv) (hne : q ≠ p)
    (hrun : Running term q i time s) : Running term q i time s' := by
  obtain ⟨hown, hrun⟩ := hrun
  refine ⟨(h.own hne i).trans hown, ?_⟩
  obtain ⟨hlast, hheld⟩ | hover := hrun
  swap
  · exact .inr (lt_of_lt_of_le hover hlater.clock)
  -- a claim needs a job that may be claimed, and a finish one that is one's own
  cases h with
  | idle hjob hclaims =>
    refine .inl ⟨(last_congr hclaims i).trans hlast, ?_⟩
    rw [hjob]
    exact hheld
  | create j hnew hissued hjob hclaims =>
    have hij : i ≠ j := fun heq => hnew (heq ▸ hinv.issued_of_own hown)
    refine .inl ⟨(last_congr hclaims i).trans hlast, ?_⟩
    rw [hjob, if_neg hij]
    exact hheld
  | claim j old hold hclaimable hjob hclaims =>
    by_cases hij : i = j
    · subst hij
      obtain rfl := hheld old hold
      exact .inr hclaimable
    · refine .inl ⟨?_, ?_⟩
      · rw [last_cons hclaims, if_neg (Ne.symm hij)]
        exact hlast
      · rw [hjob, if_neg hij]
        exact hheld
  | finish j new hmine hjob hclaims =>
    have hij : i ≠ j := by
      rintro rfl
      obtain ⟨time', hlast', -⟩ := hmine
      exact hne (Claim.mk.inj (Option.some.inj (hlast.symm.trans hlast'))).2.1
    refine .inl ⟨(last_congr hclaims i).trans hlast, ?_⟩
    rw [hjob, if_neg hij]
    exact hheld
  | drop j hjob hclaims =>
    refine .inl ⟨(last_congr hclaims i).trans hlast, fun x hx => ?_⟩
    rw [hjob] at hx
    split at hx
    · exact absurd hx (by simp)
    · exact hheld x hx

omit [DecidableEq π] in
/-- What a party knows of a job that it has ended survives every step.
Nothing can be claimed that has ended, and a claim is what it would take
to write there. -/
theorem Step.closed (h : Step term p s s') (hinv : s.Inv) (hclosed : s.Closed q i) :
    s'.Closed q i := by
  obtain ⟨⟨time, hlast⟩, hended⟩ := hclosed
  cases h with
  | idle hjob hclaims =>
    refine ⟨⟨time, (last_congr hclaims i).trans hlast⟩, ?_⟩
    rw [hjob]
    exact hended
  | create j hnew hissued hjob hclaims =>
    have hij : i ≠ j := fun heq => hnew (heq ▸ hinv.issued_of_last hlast)
    refine ⟨⟨time, (last_congr hclaims i).trans hlast⟩, ?_⟩
    rw [hjob, if_neg hij]
    exact hended
  | claim j old hold hclaimable hjob hclaims =>
    have hij : i ≠ j := by
      rintro rfl
      obtain ⟨outcome, rfl⟩ := hended old hold
      exact hclaimable
    refine ⟨⟨time, ?_⟩, ?_⟩
    · rw [last_cons hclaims, if_neg (Ne.symm hij)]
      exact hlast
    · rw [hjob, if_neg hij]
      exact hended
  | finish j new hmine hjob hclaims =>
    refine ⟨⟨time, (last_congr hclaims i).trans hlast⟩, fun x hx => ?_⟩
    rw [hjob] at hx
    split at hx
    · next heq =>
      -- a job that has ended is nobody's any more
      obtain ⟨old, hold, -⟩ := Option.map_eq_some_iff.mp hx
      obtain ⟨time', -, hheld⟩ := hmine
      obtain ⟨outcome, rfl⟩ := hended old (heq ▸ hold)
      exact absurd (hheld _ hold) (by simp)
    · exact hended x hx
  | drop j hjob hclaims =>
    refine ⟨⟨time, (last_congr hclaims i).trans hlast⟩, fun x hx => ?_⟩
    rw [hjob] at hx
    split at hx
    · exact absurd hx (by simp)
    · exact hended x hx

omit [DecidableEq π] in
/-- **A job that has ended stays as it ended**, until it goes. It cannot
be claimed, so nobody has a job to write to there. -/
theorem Step.ended (h : Step term p s s') (hinv : s.Inv) {outcome : ω}
    (hended : s.job i = some (.ended outcome)) :
    s'.job i = some (.ended outcome) ∨ s'.job i = none := by
  cases h with
  | idle hjob hclaims => exact .inl (by rw [hjob, hended])
  | create j hnew hissued hjob hclaims =>
    have hij : i ≠ j := fun heq => hnew (heq ▸ hinv.jobs i (by rw [hended]; simp))
    exact .inl (by rw [hjob, if_neg hij, hended])
  | claim j old hold hclaimable hjob hclaims =>
    have hij : i ≠ j := by
      rintro rfl
      obtain rfl := Option.some.inj (hended.symm.trans hold)
      exact hclaimable
    exact .inl (by rw [hjob, if_neg hij, hended])
  | finish j new hmine hjob hclaims =>
    have hij : i ≠ j := by
      rintro rfl
      obtain ⟨time, -, hheld⟩ := hmine
      exact absurd (hheld _ hended) (by simp)
    exact .inl (by rw [hjob, if_neg hij, hended])
  | drop j hjob hclaims =>
    rw [hjob]
    split
    · exact .inr rfl
    · exact .inl hended

/-! ## What a party knows after its own steps -/

/-- A party has claimed a job. -/
theorem State.Running.of_claim (hjob : s'.job i = some (.held s'.clock))
    (hclaims : s'.claims = ⟨i, p, s'.clock⟩ :: s.claims) : Running term p i s'.clock s' := by
  refine ⟨?_, .inl ⟨?_, fun j hj => ?_⟩⟩
  · rw [own_cons hclaims, if_pos ⟨rfl, rfl⟩]
  · rw [last_cons hclaims, if_pos rfl]
  · exact Option.some.inj (hj.symm.trans hjob)

/-- A step that does not concern the jobs. -/
theorem State.Running.of_idle (h : Running term p i time s) (hlater : s.Later s')
    (hjob : s'.job i = s.job i) (hclaims : s'.claims = s.claims) : Running term p i time s' := by
  obtain ⟨hown, hrun⟩ := h
  refine ⟨(own_congr hclaims p i).trans hown, ?_⟩
  obtain ⟨hlast, hheld⟩ | hover := hrun
  · refine .inl ⟨(last_congr hclaims i).trans hlast, ?_⟩
    rw [hjob]
    exact hheld
  · exact .inr (lt_of_lt_of_le hover hlater.clock)

/-- **A party that writes in time** writes to a job of its own. As long as
its own claim lasts nobody else can claim the job, so it is still the last
one to have done so. -/
theorem State.Running.mine {now : ℤ} (h : Running term p i time s) (hclock : s.clock ≤ now)
    (hnow : ∀ c ∈ s.own p i, now ≤ c.time + term) : s.Mine p i := by
  obtain ⟨hown, ⟨hlast, hheld⟩ | hover⟩ := h
  · exact ⟨time, hlast, hheld⟩
  · exact absurd (lt_of_lt_of_le hover (hclock.trans (hnow _ hown))) (lt_irrefl _)

omit [DecidableEq π] in
/-- A party has ended its job. -/
theorem State.Mine.closed (h : s.Mine p i) (outcome : ω)
    (hjob : s'.job i = (s.job i).map fun _ => .ended outcome) (hclaims : s'.claims = s.claims) :
    s'.Closed p i := by
  obtain ⟨time, hlast, -⟩ := h
  refine ⟨⟨time, (last_congr hclaims i).trans hlast⟩, fun j hj => ?_⟩
  rw [hjob] at hj
  obtain ⟨-, -, rfl⟩ := Option.map_eq_some_iff.mp hj
  exact ⟨outcome, rfl⟩

end Lease
