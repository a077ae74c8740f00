import VisionBill.Lib.Transactions

/-!
# Tags that a second row must not get

The rows of a table carry tags, and a statement must not give a tag to a
row while another row has it. Looking first is not enough, since a
statement does not see what the other transactions have written and not
yet committed: two of them can find a tag free at the same time, and both
give it away. It is enough if a statement that gives a tag to a row also
takes a lock that belongs to the tag, and looks once it has got it
(`Guards`). The lock is held until the transaction ends, so the next one
that gets it sees what has been committed.

## What is shown

Nothing is asked of the rows that share a tag in the first place. They may
keep it, but no further row gets it before they have lost it
(`Exclusive.stored_run`). This is what a check can promise that is added
to a table that is already there.

## What carries it

The invariant (`Exclusive`) is about open transactions. One that has given
a tag holds its lock, and as far as it sees, no other row has the tag.
When another one commits, this must survive: the rows written by both are
none, since writes are locked, and the tag is not given by both, since the
lock of the tag is held by one (`gains_of_commit`).
-/

namespace Statements

variable {Op : Type} {Ret : Op → Type} {ε α σ ω κ ρ ι τ : Type}

/-- The tags of the rows, and what a write does to them. A write is about
one row, and all other rows keep the tags that they have. -/
structure Tagging (D : Statements Ret ε σ ω κ) (ι τ : Type) where
  /-- The tag of a row, if there is such a row and it has one. -/
  tag : σ → ι → Option τ
  /-- The row that is written. -/
  row : ω → ι
  /-- The tag that it has afterwards. -/
  tagged : ω → Option τ
  tag_row : ∀ s w, tag (D.write s w) (row w) = tagged w
  tag_of_ne : ∀ s w r, r ≠ row w → tag (D.write s w) r = tag s r

namespace Tagging

variable {D : Statements Ret ε σ ω κ} (T : D.Tagging ι τ)

/-- No two rows have a tag. -/
def Single (s : σ) (i : τ) : Prop := ∀ r r', T.tag s r = some i → T.tag s r' = some i → r = r'

/-- A row has got a tag. -/
def Gains (s s' : σ) (i : τ) : Prop := ∃ r, T.tag s' r = some i ∧ T.tag s r ≠ some i

/-- A statement that gives a tag to a row locks the tag, and no other row
has it. The condition is about single statements, each in the view that it
finds; what it gives for whole runs is `Exclusive.stored_run`. -/
def Guards (guard : τ → κ) : Prop :=
  ∀ op s writes a, D.eval op s = .ok (writes, a) → ∀ i, T.Gains s (D.view s writes) i →
    guard i ∈ D.locks op s ∧ T.Single (D.view s writes) i

variable {T} {s s' : σ} {i : τ}

theorem tag_of_not_gains (h : ¬ T.Gains s s' i) {r : ι} (hr : T.tag s' r = some i) :
    T.tag s r = some i :=
  of_not_not fun hne => h ⟨r, hr, hne⟩

theorem not_gains_self : ¬ T.Gains s s i := fun ⟨_, hr, hne⟩ => hne hr

/-- Rows that have lost a tag only do not share it if they did not
before. -/
theorem Single.of_not_gains (hsingle : T.Single s i) (h : ¬ T.Gains s s' i) : T.Single s' i :=
  fun r r' hr hr' => hsingle r r' (tag_of_not_gains h hr) (tag_of_not_gains h hr')

/-- A row that gets a tag in the end gets it at some point. -/
theorem Gains.or {s'' : σ} (h : T.Gains s s'' i) : T.Gains s s' i ∨ T.Gains s' s'' i := by
  obtain ⟨r, hr, hne⟩ := h
  by_cases hr' : T.tag s' r = some i
  · exact .inl ⟨r, hr', hne⟩
  · exact .inr ⟨r, hr, hr'⟩

/-- The rows that are not written keep their tags. -/
theorem tag_view_of_notMem {writes : List ω} {r : ι} (h : ∀ w ∈ writes, r ≠ T.row w) :
    T.tag (D.view s writes) r = T.tag s r := by
  unfold view
  induction writes generalizing s with
  | nil => rfl
  | cons w writes ih =>
    show T.tag (writes.foldl D.write (D.write s w)) r = T.tag s r
    rw [ih fun w' hw' => h w' (List.mem_cons_of_mem w hw'),
      T.tag_of_ne s w r (h w List.mem_cons_self)]

/-- The tag of a row that is written does not depend on what was there. -/
theorem tag_view_of_mem {writes : List ω} {r : ι} (h : ∃ w ∈ writes, r = T.row w) :
    T.tag (D.view s writes) r = T.tag (D.view s' writes) r := by
  induction writes generalizing s s' with
  | nil => exact absurd h (by simp)
  | cons w writes ih =>
    show T.tag (D.view (D.write s w) writes) r = T.tag (D.view (D.write s' w) writes) r
    by_cases hlater : ∃ w' ∈ writes, r = T.row w'
    · exact ih hlater
    · -- then it is written by the first of these last
      have hkept : ∀ w' ∈ writes, r ≠ T.row w' := fun w' hw' hrow => hlater ⟨w', hw', hrow⟩
      obtain ⟨w', hw', rfl⟩ := h
      obtain rfl : w' = w := (List.mem_cons.mp hw').resolve_right
        fun hmem => hlater ⟨w', hmem, rfl⟩
      rw [tag_view_of_notMem hkept, tag_view_of_notMem hkept, T.tag_row, T.tag_row]

end Tagging

/-! ## Interleaved transactions

Transactions see what is committed, so two of them may look for a tag at
the same time and find none. The lock makes the second wait until the
first has committed, and then it finds it. -/

section Step

variable [DecidableEq κ] {D : Statements Ret ε σ ω κ}

/-- What an open transaction sees. -/
def Sees (D : Statements Ret ε σ ω κ) (s : Sessions Ret ε α σ ω κ ρ) (t : ℕ) (seen : σ) : Prop :=
  ∃ request writes p, s.sessions[t]? = some (request, Phase.active writes p)
    ∧ seen = D.view s.stored writes

/-- The invariant of interleaved transactions: an open one holds the locks
of the rows that it has written and of the tags that it has given, and no
other row has these as far as it sees. What it sees is what is stored,
with its own writes over it. -/
structure Exclusive (T : D.Tagging ι τ) (lockOf : ι → κ) (guard : τ → κ)
    (s : Sessions Ret ε α σ ω κ ρ) : Prop where
  owns : Owns (fun w => [lockOf (T.row w)]) s
  given : ∀ t seen, D.Sees s t seen → ∀ i, T.Gains s.stored seen i →
    s.owner (guard i) = some t ∧ T.Single seen i

variable {T : D.Tagging ι τ} {lockOf : ι → κ} {guard : τ → κ} {program : ρ → Program Ret ε α}
  {s s' : Sessions Ret ε α σ ω κ ρ}

omit [DecidableEq κ] in
/-- What another transaction commits without giving a tag is not seen to
give it. -/
theorem Tagging.tag_view_of_commit {stored : σ} {writes writes' : List ω} {i : τ} {r : ι}
    (h : ¬ T.Gains stored (D.view stored writes) i)
    (hr : T.tag (D.view (D.view stored writes) writes') r = some i) :
    T.tag (D.view stored writes') r = some i := by
  by_cases hmine : ∃ w ∈ writes', r = T.row w
  · rw [← hr]
    exact Tagging.tag_view_of_mem hmine
  · have hkept : ∀ w ∈ writes', r ≠ T.row w := fun w hw hrow => hmine ⟨w, hw, hrow⟩
    rw [Tagging.tag_view_of_notMem hkept] at hr ⊢
    exact Tagging.tag_of_not_gains h hr

omit [DecidableEq κ] in
/-- A tag that a transaction has given is one that it has given before
another one committed: the two have not written the same row. -/
theorem Exclusive.gains_of_commit (h : Exclusive T lockOf guard s) {t t' : ℕ}
    {request request' : ρ} {writes writes' : List ω} {p p' : Program Ret ε α} (hne : t' ≠ t)
    (ht : s.sessions[t]? = some (request, .active writes p))
    (ht' : s.sessions[t']? = some (request', .active writes' p')) {i : τ}
    (hgains : T.Gains (D.view s.stored writes) (D.view (D.view s.stored writes) writes') i) :
    T.Gains s.stored (D.view s.stored writes') i := by
  obtain ⟨r, hr, hlost⟩ := hgains
  have hmine : ∃ w ∈ writes', r = T.row w := by
    by_contra hnot
    rw [Tagging.tag_view_of_notMem fun w hw hrow => hnot ⟨w, hw, hrow⟩] at hr
    exact hlost hr
  have hother : ∀ w ∈ writes, r ≠ T.row w := by
    rintro w hw hrow
    obtain ⟨w', hw', hrow'⟩ := hmine
    refine hne (h.owns.eq ht' hw' List.mem_cons_self ht hw ?_)
    show lockOf (T.row w') ∈ [lockOf (T.row w)]
    rw [← hrow', hrow]
    exact List.mem_cons_self
  refine ⟨r, ?_, ?_⟩
  · rw [← hr]
    exact Tagging.tag_view_of_mem hmine
  · rw [← Tagging.tag_view_of_notMem hother]
    exact hlost

/-- What a step keeps. A statement gives tags of its own transaction only;
a commit changes what all others see, and is the case with an argument in
it. -/
theorem Exclusive.step (hrows : D.LocksWrites fun w => [lockOf (T.row w)])
    (hguards : T.Guards guard) {action : Sessions.Action ρ} (h : Exclusive T lockOf guard s)
    (hstep : D.step program s action = some s') : Exclusive T lockOf guard s' := by
  refine ⟨h.owns.step hrows hstep, ?_⟩
  rintro t' seen ⟨request', writes', p', hsession', rfl⟩ i hgains
  cases action with
  | begin request =>
    obtain rfl := Option.some.inj hstep
    rw [List.getElem?_append] at hsession'
    split at hsession'
    · exact h.given t' _ ⟨request', writes', p', hsession', rfl⟩ i hgains
    · have heq := List.mem_singleton.mp (List.mem_of_getElem? hsession')
      obtain ⟨rfl, -⟩ := Phase.active.inj (Prod.mk.inj heq).2
      exact absurd hgains Tagging.not_gains_self
  | advance t =>
    obtain ⟨request, writes, op, k, hsession, hmay, hcases⟩ := step_advance hstep
    rcases hcases with ⟨new, a, heval, rfl⟩ | ⟨e, -, rfl⟩
    · rcases getElem?_setPhase hsession' with ⟨rfl, heq⟩ | ⟨hne, hsession'⟩
      · -- the tags that it had given, and those that the statement gives
        obtain ⟨rfl, -⟩ := Phase.active.inj (Prod.mk.inj heq).2
        rw [view_append] at hgains ⊢
        by_cases hnew : T.Gains (D.view s.stored writes) (D.view (D.view s.stored writes) new) i
        · obtain ⟨hlock, hsingle⟩ := hguards op _ new a heval i hnew
          exact ⟨if_pos hlock, hsingle⟩
        · obtain ⟨howner, hsingle⟩ := h.given t' _ ⟨request, writes, _, hsession, rfl⟩ i
            (hgains.or.resolve_right hnew)
          refine ⟨?_, hsingle.of_not_gains hnew⟩
          show (if _ then some t' else s.owner (guard i)) = some t'
          rw [howner, ite_self]
      · obtain ⟨howner, hsingle⟩ := h.given t' _ ⟨request', writes', p', hsession', rfl⟩ i hgains
        exact ⟨take_of_mayLock hmay howner hne, hsingle⟩
    · rcases getElem?_setPhase hsession' with ⟨rfl, heq⟩ | ⟨-, hsession'⟩
      · obtain ⟨rfl, -⟩ := Phase.active.inj (Prod.mk.inj heq).2
        exact h.given t' _ ⟨request, writes', _, hsession, rfl⟩ i hgains
      · exact h.given t' _ ⟨request', writes', p', hsession', rfl⟩ i hgains
  | commit t =>
    obtain ⟨request, writes, a, hsession, rfl⟩ := step_commit hstep
    rcases getElem?_setPhase hsession' with ⟨-, heq⟩ | ⟨hne, hsession'⟩
    · exact absurd (Prod.mk.inj heq).2 (by simp)
    · have hopen := h.given t _ ⟨request, writes, _, hsession, rfl⟩
      obtain ⟨howner, hsingle⟩ := h.given t' _ ⟨request', writes', p', hsession', rfl⟩ i
        (h.gains_of_commit hne hsession hsession' hgains)
      refine ⟨release_eq_some_iff.mpr ⟨howner, hne⟩, fun r r' hr hr' => ?_⟩
      -- the lock of the tag is not with the one that has committed
      have hnot : ¬ T.Gains s.stored (D.view s.stored writes) i := fun hgives =>
        hne (Option.some.inj (howner.symm.trans (hopen i hgives).1))
      exact hsingle r r' (Tagging.tag_view_of_commit hnot hr) (Tagging.tag_view_of_commit hnot hr')
  | rollback t =>
    obtain ⟨request, writes, p, -, rfl⟩ := step_rollback hstep
    rcases getElem?_setPhase hsession' with ⟨-, heq⟩ | ⟨hne, hsession'⟩
    · exact absurd (Prod.mk.inj heq).2 (by simp)
    · obtain ⟨howner, hsingle⟩ := h.given t' _ ⟨request', writes', p', hsession', rfl⟩ i hgains
      exact ⟨release_eq_some_iff.mpr ⟨howner, hne⟩, hsingle⟩

/-- What is stored changes with a commit only, and a tag that a row has
got with it is the tag of no other row. -/
theorem Exclusive.stored_step {action : Sessions.Action ρ} (h : Exclusive T lockOf guard s)
    (hstep : D.step program s action = some s') (i : τ) :
    ¬ T.Gains s.stored s'.stored i ∨ T.Single s'.stored i := by
  cases action with
  | begin request =>
    obtain rfl := Option.some.inj hstep
    exact .inl Tagging.not_gains_self
  | advance t =>
    obtain ⟨request, writes, op, k, -, -, ⟨new, a, -, rfl⟩ | ⟨e, -, rfl⟩⟩ := step_advance hstep
    · exact .inl Tagging.not_gains_self
    · exact .inl Tagging.not_gains_self
  | commit t =>
    obtain ⟨request, writes, a, hsession, rfl⟩ := step_commit hstep
    by_cases hgains : T.Gains s.stored (D.view s.stored writes) i
    · exact .inr (h.given t _ ⟨request, writes, _, hsession, rfl⟩ i hgains).2
    · exact .inl hgains
  | rollback t =>
    obtain ⟨request, writes, p, -, rfl⟩ := step_rollback hstep
    exact .inl Tagging.not_gains_self

omit [DecidableEq κ] in
/-- Before the first transaction. -/
theorem Exclusive.initial {s₀ : σ} :
    Exclusive T lockOf guard (initial s₀ : Sessions Ret ε α σ ω κ ρ) := by
  refine ⟨?_, ?_⟩
  · intro t request writes p hsession
    exact absurd hsession (by simp [Statements.initial])
  · rintro t seen ⟨request, writes, p, hsession, -⟩
    exact absurd hsession (by simp [Statements.initial])

/-- The invariant holds in every run. -/
theorem Exclusive.of_run (hrows : D.LocksWrites fun w => [lockOf (T.row w)])
    (hguards : T.Guards guard) {s₀ : σ}
    (run : Transition.Reachable (D.step program) (Statements.initial s₀) s) :
    Exclusive T lockOf guard s :=
  run.invariant Exclusive.initial fun _ _ _ h _ hstep => h.step hrows hguards hstep

/-- **A tag comes to no second row.** From any moment of a run to any
later one, the rows that have a tag in the end had it before, or it is one
row. The moment is arbitrary, so this also holds of a tag that is lost and
given again. -/
theorem Exclusive.stored_run (hrows : D.LocksWrites fun w => [lockOf (T.row w)])
    (hguards : T.Guards guard) (h : Exclusive T lockOf guard s)
    (run : Transition.Reachable (D.step program) s s') (i : τ) :
    ¬ T.Gains s.stored s'.stored i ∨ T.Single s'.stored i := by
  suffices hall : Exclusive T lockOf guard s'
      ∧ (¬ T.Gains s.stored s'.stored i ∨ T.Single s'.stored i) from hall.2
  induction run with
  | start => exact ⟨h, .inl Tagging.not_gains_self⟩
  | next action _ _ hstep ih =>
    obtain ⟨h', hbefore⟩ := ih
    refine ⟨h'.step hrows hguards hstep, ?_⟩
    rcases h'.stored_step hstep i with hlost | hsingle
    · rcases hbefore with hbefore | hbefore
      · exact .inl fun hgains => hgains.or.elim hbefore hlost
      · exact .inr (hbefore.of_not_gains hlost)
    · exact .inr hsingle

end Step

end Statements
