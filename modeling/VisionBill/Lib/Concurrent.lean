import VisionBill.Lib.Program
import VisionBill.Lib.Transition

/-!
# Interleaved programs

Threads run programs on a shared state, one operation at a time and in any
order; new threads may start at any moment. Each operation is atomic, and
between two operations of a thread the others may do anything that their
own programs do. This is the situation of request handlers that share a
database and a file system and await each of their calls.

## Disciplines

A *discipline* says what is to be kept while the threads run: an invariant
of the shared state, what a thread may rely on while others run, and a
property of every single step. A program keeps a discipline if it does so
at each of its operations, in every state that the others may have left
(`Discipline.wp`). The rules `wp_bind`, `wp_handle` and `wp_perform`
follow a program's text, so that a program is verified alone, once, and
without its neighbours.

If all programs keep a discipline, then every interleaving does
(`Discipline.sound`). This is the induction over interleavings, done once:
what is left for a system is to name its discipline and to go through its
programs.

## Variants

* `Discipline.sound_beside`: something other than a thread changes the
  state.
* `Threads.invariant_of_calls`: an invariant that every operation keeps by
  itself, whatever program calls it.
* `Discipline.idle_of_ended`: what threads leave when all of them have
  ended.
* `Threads.reachable_iff_noted`: notes about a run, which no program
  reads.
* `Threads.watch`: one thread among others, whose steps meet a condition.
-/

variable {Op : Type} {Ret : Op → Type} {ε α β σ κ ρ : Type}

/-- The shared state and the programs of the threads. A thread that has
ended stays in the list, with the program that has returned or raised, so
that the number of a thread never changes. -/
structure Threads {Op : Type} (Ret : Op → Type) (ε σ : Type) where
  shared : σ
  threads : List (Program Ret ε Unit)

/-- A thread starts with a program, or performs its next operation. Any
sequence of these is an interleaving, so there is no scheduler to speak
of. -/
inductive Threads.Action (ρ κ : Type)
  | start (request : ρ)
  | advance (t : ℕ) (choice : κ)

/-- One step of an interleaving. A thread performs its next operation as
`exec` has it, which may depend on a choice that no program controls;
where `exec` does not admit the choice, there is no such step. -/
def Threads.step (program : ρ → Program Ret ε Unit)
    (exec : ℕ → σ → (op : Op) → κ → Option (σ × Except ε (Ret op)))
    (s : Threads Ret ε σ) : Threads.Action ρ κ → Option (Threads Ret ε σ)
  | .start request => some { s with threads := s.threads ++ [program request] }
  | .advance t choice =>
    match s.threads[t]? with
    | some (.call op k) =>
      (exec t s.shared op choice).map fun (shared, r) => ⟨shared, s.threads.set t (k r)⟩
    | _ => none

/-- What a step of a thread can do. Every proof about steps begins with
this, and none of them unfolds `Threads.step` again. -/
theorem Threads.step_advance {program : ρ → Program Ret ε Unit}
    {exec : ℕ → σ → (op : Op) → κ → Option (σ × Except ε (Ret op))} {s s' : Threads Ret ε σ}
    {t : ℕ} {choice : κ} (h : s.step program exec (.advance t choice) = some s') :
    ∃ op k shared r, s.threads[t]? = some (.call op k)
      ∧ exec t s.shared op choice = some (shared, r)
      ∧ s' = ⟨shared, s.threads.set t (k r)⟩ := by
  unfold step at h
  dsimp only at h
  rcases hthread : s.threads[t]? with _ | p
  · rw [hthread] at h
    exact absurd h (by simp)
  · cases p with
    | done a => rw [hthread] at h; exact absurd h (by simp)
    | raise e => rw [hthread] at h; exact absurd h (by simp)
    | call op k =>
      rw [hthread] at h
      obtain ⟨⟨shared, r⟩, hexec, rfl⟩ := Option.map_eq_some_iff.mp h
      exact ⟨op, k, shared, r, rfl, hexec, rfl⟩

/-- What is asked of the next operation of a thread can be decided. -/
instance Program.decidableNext (G : Op → Prop) [DecidablePred G] :
    (p : Option (Program Ret ε α)) → Decidable (∀ op k, p = some (.call op k) → G op)
  | some (.call op _) =>
    decidable_of_iff (G op)
      ⟨fun hop op' k' h => by
        obtain ⟨rfl, -⟩ := Program.call.inj (Option.some.inj h)
        exact hop, fun hnext => hnext op _ rfl⟩
  | some (.done _) => isTrue fun op k h => absurd h (by simp)
  | some (.raise _) => isTrue fun op k h => absurd h (by simp)
  | none => isTrue fun op k h => absurd h (by simp)

/-- What programs have to keep. A thread sees of the others only `Rely`,
so this must hold of everything that the steps of others may do, and it
must be closed under going on (`rely_refl`, `rely_trans`). -/
structure Discipline {Op : Type} (Ret : Op → Type) (ε σ κ : Type) where
  /-- How a thread performs an operation. -/
  exec : ℕ → σ → (op : Op) → κ → Option (σ × Except ε (Ret op))
  /-- The steps that are considered. -/
  guard : ℕ → σ → Op → κ → Prop
  /-- What holds of the shared state. -/
  Inv : σ → Prop
  /-- What a thread may rely on while others run. -/
  Rely : ℕ → σ → σ → Prop
  /-- What holds of every step. -/
  Ok : ℕ → σ → Op → σ → Prop
  rely_refl : ∀ t s, Rely t s s
  rely_trans : ∀ t s s' s'', Rely t s s' → Rely t s' s'' → Rely t s s''

namespace Discipline

variable (D : Discipline Ret ε σ κ)

/-- The steps of an interleaving that are considered. -/
def stepGuard (s : Threads Ret ε σ) : Threads.Action ρ κ → Prop
  | .start _ => True
  | .advance t choice => ∀ op k, s.threads[t]? = some (.call op k) → D.guard t s.shared op choice

/-- What a step has to keep: the invariant, its own property, and what the
other threads rely on. -/
structure Keeps (t : ℕ) (s : σ) (op : Op) (s' : σ) : Prop where
  inv : D.Inv s'
  ok : D.Ok t s op s'
  rely : ∀ t', t' ≠ t → D.Rely t' s s'

/-- **The weakest precondition** of a program that a thread runs among
others: each operation keeps the discipline, and at the end one of the
postconditions holds. Before each operation the others may have taken any
number of steps, which is why the operation is looked at in every state
`s₁` that the thread may find instead of `s`. -/
def wp (t : ℕ) : Program Ret ε α → (α → σ → Prop) → (ε → σ → Prop) → σ → Prop
  | .done a, Q, _, s => Q a s
  | .raise e, _, R, s => R e s
  | .call op k, Q, R, s => ∀ s₁, D.Rely t s s₁ → D.Inv s₁ → ∀ c r s₂, D.guard t s₁ op c →
      D.exec t s₁ op c = some (s₂, r) → D.Keeps t s₁ op s₂ ∧ wp t (k r) Q R s₂

/-- A program that keeps the discipline, whatever it returns or raises. -/
def Safe (t : ℕ) (p : Program Ret ε Unit) (s : σ) : Prop :=
  D.wp t p (fun _ _ => True) (fun _ _ => True) s

variable {D} {t : ℕ}

theorem wp_mono {p : Program Ret ε α} {Q Q' : α → σ → Prop} {R R' : ε → σ → Prop} {s : σ}
    (h : D.wp t p Q R s) (hQ : ∀ a s, Q a s → Q' a s) (hR : ∀ e s, R e s → R' e s) :
    D.wp t p Q' R' s := by
  induction p generalizing s with
  | done a => exact hQ a s h
  | raise e => exact hR e s h
  | call op k ih =>
    intro s₁ hrely hinv c r s₂ hguard hexec
    obtain ⟨hkeeps, hrest⟩ := h s₁ hrely hinv c r s₂ hguard hexec
    exact ⟨hkeeps, ih r hrest⟩

/-- One program after another. The first one must establish what the
second one needs, in the state that it leaves. -/
theorem wp_bind {p : Program Ret ε α} {f : α → Program Ret ε β} {Q : β → σ → Prop}
    {R : ε → σ → Prop} {s : σ} :
    D.wp t (p >>= f) Q R s ↔ D.wp t p (fun a s => D.wp t (f a) Q R s) R s := by
  induction p generalizing s with
  | done a => exact Iff.rfl
  | raise e => exact Iff.rfl
  | call op k ih =>
    refine forall_congr' fun s₁ => imp_congr_right fun _ => imp_congr_right fun _ => ?_
    refine forall₃_congr fun c r s₂ => imp_congr_right fun _ => imp_congr_right fun _ => ?_
    exact and_congr_right fun _ => ih r

/-- A program and its handler. -/
theorem wp_handle {p : Program Ret ε α} {h : ε → Program Ret ε α} {Q : α → σ → Prop}
    {R : ε → σ → Prop} {s : σ} :
    D.wp t (tryCatch p h) Q R s ↔ D.wp t p Q (fun e s => D.wp t (h e) Q R s) s := by
  induction p generalizing s with
  | done a => exact Iff.rfl
  | raise e => exact Iff.rfl
  | call op k ih =>
    refine forall_congr' fun s₁ => imp_congr_right fun _ => imp_congr_right fun _ => ?_
    refine forall₃_congr fun c r s₂ => imp_congr_right fun _ => imp_congr_right fun _ => ?_
    exact and_congr_right fun _ => ih r

/-- A single operation. -/
theorem wp_perform {op : Op} {Q : Ret op → σ → Prop} {R : ε → σ → Prop} {s : σ}
    (h : ∀ s₁, D.Rely t s s₁ → D.Inv s₁ → ∀ c r s₂, D.guard t s₁ op c →
      D.exec t s₁ op c = some (s₂, r) → D.Keeps t s₁ op s₂
        ∧ (∀ a, r = .ok a → Q a s₂) ∧ ∀ e, r = .error e → R e s₂) :
    D.wp t (Program.perform op) Q R s := by
  intro s₁ hrely hinv c r s₂ hguard hexec
  obtain ⟨hkeeps, hok, herror⟩ := h s₁ hrely hinv c r s₂ hguard hexec
  refine ⟨hkeeps, ?_⟩
  cases r with
  | ok a => exact hok a rfl
  | error e => exact herror e rfl

/-- A program that calls only operations that keep the discipline by
themselves. What the thread knows is the same before and after each of
them, so no assertion stands in between. -/
theorem wp_of_calls {P : Op → Prop} {I : σ → Prop}
    (hrely : ∀ s s', I s → D.Rely t s s' → I s')
    (hstep : ∀ op, P op → ∀ s, I s → D.Inv s → ∀ c r s', D.guard t s op c →
      D.exec t s op c = some (s', r) → D.Keeps t s op s' ∧ I s')
    {p : Program Ret ε α} (hcalls : p.Calls P) {s : σ} (hs : I s) :
    D.wp t p (fun _ => I) (fun _ => I) s := by
  induction p generalizing s with
  | done a => exact hs
  | raise e => exact hs
  | call op k ih =>
    intro s₁ hs₁ hinv c r s₂ hguard hexec
    obtain ⟨hkeeps, hs₂⟩ := hstep op hcalls.1 s₁ (hrely s s₁ hs hs₁) hinv c r s₂ hguard hexec
    exact ⟨hkeeps, ih r (hcalls.2 r) hs₂⟩

/-- What a thread has established survives the steps of others, if its
postconditions do. Nothing is asked of the program: its operations are
verified in every state that the others may leave anyway. -/
theorem wp_of_rely {Post : σ → Prop} (hpost : ∀ s s', D.Rely t s s' → Post s → Post s')
    {p : Program Ret ε Unit} {s s' : σ} (h : D.wp t p (fun _ => Post) (fun _ => Post) s)
    (hrely : D.Rely t s s') : D.wp t p (fun _ => Post) (fun _ => Post) s' := by
  cases p with
  | done a => exact hpost s s' hrely h
  | raise e => exact hpost s s' hrely h
  | call op k => exact fun s₁ hs₁ => h s₁ (D.rely_trans t s s' s₁ hrely hs₁)

theorem Safe.of_rely {p : Program Ret ε Unit} {s s' : σ} (h : D.Safe t p s)
    (hrely : D.Rely t s s') : D.Safe t p s' :=
  wp_of_rely (fun _ _ _ => id) h hrely

/-- All threads keep the discipline. -/
def AllSafe (D : Discipline Ret ε σ κ) (s : Threads Ret ε σ) : Prop :=
  D.Inv s.shared ∧ ∀ t p, s.threads[t]? = some p → D.Safe t p s.shared

/-- All threads keep the discipline, and those to come are new. This is
what an interleaving keeps: a program may need to know something of its
own thread when it starts, such as that it holds no lock. -/
def AllSafeOrNew (D : Discipline Ret ε σ κ) (New : ℕ → σ → Prop) (s : Threads Ret ε σ) : Prop :=
  D.AllSafe s ∧ ∀ t, s.threads.length ≤ t → New t s.shared

/-- What one step of an interleaving keeps. The thread that moves keeps
its own `wp` by definition; every other one keeps it since it may rely on
the step. -/
theorem AllSafeOrNew.step {program : ρ → Program Ret ε Unit} {New : ℕ → σ → Prop}
    (hrely : ∀ t s s', D.Rely t s s' → New t s → New t s')
    (hprogram : ∀ request t s, D.Inv s → New t s → D.Safe t (program request) s)
    {s s' : Threads Ret ε σ} {a : Threads.Action ρ κ} (h : D.AllSafeOrNew New s)
    (hguard : D.stepGuard s a) (hstep : s.step program D.exec a = some s') :
    D.AllSafeOrNew New s' := by
  obtain ⟨⟨hinv, hsafe⟩, hnew⟩ := h
  cases a with
  | start request =>
    obtain rfl := Option.some.inj hstep
    refine ⟨⟨hinv, fun t p hp => ?_⟩, fun t ht => hnew t ?_⟩
    · rw [List.getElem?_append] at hp
      split at hp
      · -- an old thread, or the one that starts
        exact hsafe t p hp
      · next hlen =>
        obtain rfl := List.mem_singleton.mp (List.mem_of_getElem? hp)
        exact hprogram request t s.shared hinv (hnew t (Nat.not_lt.mp hlen))
    · rw [List.length_append] at ht
      exact Nat.le_trans (Nat.le_add_right _ _) ht
  | advance t choice =>
    obtain ⟨op, k, shared, r, hthread, hexec, rfl⟩ := Threads.step_advance hstep
    obtain ⟨hkeeps, hrest⟩ := hsafe t _ hthread s.shared (D.rely_refl t s.shared) hinv choice r
      shared (hguard op k hthread) hexec
    refine ⟨⟨hkeeps.inv, fun t' p hp => ?_⟩, fun t' ht' => ?_⟩
    · rw [List.getElem?_set] at hp
      split at hp
      · next heq =>
        subst heq
        split at hp
        · obtain rfl := Option.some.inj hp
          exact hrest
        · exact absurd hp (by simp)
      · next hne =>
        exact (hsafe t' p hp).of_rely (hkeeps.rely t' (Ne.symm hne))
    · rw [List.length_set] at ht'
      have hne : t' ≠ t := by
        rintro rfl
        exact absurd (List.getElem?_eq_some_iff.mp hthread).1 (Nat.not_lt.mpr ht')
      exact hrely t' s.shared shared (hkeeps.rely t' hne) (hnew t' ht')

/-- **Every interleaving keeps the discipline** that every program keeps
from its start on. What a thread may assume of its start has to be stable
under what the others do before its first step, and this is the first
hypothesis. -/
theorem sound_of_new {program : ρ → Program Ret ε Unit} (New : ℕ → σ → Prop)
    (hrely : ∀ t s s', D.Rely t s s' → New t s → New t s')
    (hprogram : ∀ request t s, D.Inv s → New t s → D.Safe t (program request) s) {s₀ : σ}
    (hinit : D.Inv s₀) (hnew : ∀ t, New t s₀) {s : Threads Ret ε σ}
    (run : Transition.Run (Threads.step program D.exec) D.stepGuard ⟨s₀, []⟩ s) : D.AllSafe s := by
  have hrun : D.AllSafeOrNew New s := by
    refine run.invariant ⟨⟨hinit, fun t p hp => ?_⟩, fun t _ => hnew t⟩
      fun s a s' h hguard hstep => h.step hrely hprogram hguard hstep
    exact absurd hp (by simp)
  exact hrun.1

/-- **Every interleaving keeps the discipline** that every program keeps.
The premise is about one program at a time, in any state that satisfies
the invariant; the conclusion is about any number of them. -/
theorem sound {program : ρ → Program Ret ε Unit}
    (hprogram : ∀ request t s, D.Inv s → D.Safe t (program request) s) {s₀ : σ}
    (hinit : D.Inv s₀) {s : Threads Ret ε σ}
    (run : Transition.Run (Threads.step program D.exec) D.stepGuard ⟨s₀, []⟩ s) : D.AllSafe s :=
  sound_of_new (fun _ _ => True) (fun _ _ _ _ _ => trivial)
    (fun request t s hinv _ => hprogram request t s hinv) hinit (fun _ => trivial) run

/-- The property of single steps holds of every step of an
interleaving. -/
theorem AllSafe.ok {program : ρ → Program Ret ε Unit} {s s' : Threads Ret ε σ} {choice : κ}
    (h : D.AllSafe s) (hguard : D.stepGuard s (.advance t choice : Threads.Action ρ κ))
    (hstep : s.step program D.exec (.advance t choice) = some s') :
    ∃ op k, s.threads[t]? = some (.call op k) ∧ D.Ok t s.shared op s'.shared := by
  obtain ⟨op, k, shared, r, hthread, hexec, rfl⟩ := Threads.step_advance hstep
  exact ⟨op, k, hthread, (h.2 t _ hthread s.shared (D.rely_refl t s.shared) h.1 choice r shared
    (hguard op k hthread) hexec).1.ok⟩

end Discipline

/-! ## Something else beside the threads

A step of something that is no thread may come between any two operations.
It has to keep the invariant and what threads rely on, and then all that
was shown of threads alone holds beside it. -/

section Beside

variable {η : Type}

/-- One step of an interleaving, or something else that happens to the
shared state. -/
def Threads.stepBeside (program : ρ → Program Ret ε Unit)
    (exec : ℕ → σ → (op : Op) → κ → Option (σ × Except ε (Ret op))) (outside : σ → η → Option σ)
    (s : Threads Ret ε σ) : Threads.Action ρ κ ⊕ η → Option (Threads Ret ε σ)
  | .inl a => s.step program exec a
  | .inr e => (outside s.shared e).map fun shared => { s with shared := shared }

/-- The steps that are considered, and those from outside. -/
def Discipline.guardBeside (D : Discipline Ret ε σ κ) (G : σ → η → Prop)
    (s : Threads Ret ε σ) : Threads.Action ρ κ ⊕ η → Prop
  | .inl a => D.stepGuard s a
  | .inr e => G s.shared e

/-- **Every interleaving keeps the discipline** that every program keeps,
if what happens beside it keeps the invariant and what threads rely on.
What happens beside need not be a thread, nor keep a discipline of its
own. -/
theorem Discipline.sound_beside {D : Discipline Ret ε σ κ} {program : ρ → Program Ret ε Unit}
    {outside : σ → η → Option σ} {G : σ → η → Prop}
    (houtside : ∀ s e s', D.Inv s → G s e → outside s e = some s' →
      D.Inv s' ∧ ∀ t, D.Rely t s s')
    (hprogram : ∀ request t s, D.Inv s → D.Safe t (program request) s) {s₀ : σ}
    (hinit : D.Inv s₀) {s : Threads Ret ε σ}
    (run : Transition.Run (Threads.stepBeside program D.exec outside) (D.guardBeside G)
      ⟨s₀, []⟩ s) : D.AllSafe s := by
  refine run.invariant ⟨hinit, fun t p hp => absurd hp (by simp)⟩ ?_
  intro s a s' hsafe hguard hstep
  cases a with
  | inl a =>
    have hnew : D.AllSafeOrNew (fun _ _ => True) s := ⟨hsafe, fun _ _ => trivial⟩
    exact (hnew.step (fun _ _ _ _ _ => trivial)
      (fun request t s hinv _ => hprogram request t s hinv) hguard hstep).1
  | inr e =>
    obtain ⟨shared, hshared, rfl⟩ := Option.map_eq_some_iff.mp hstep
    obtain ⟨hinv, hrely⟩ := houtside s.shared e shared hsafe.1 hguard hshared
    exact ⟨hinv, fun t p hp => (hsafe.2 t p hp).of_rely (hrely t)⟩

/-- A property of the shared state, while the threads only call some of
the operations. -/
def Threads.Keeping (P : Op → Prop) (I : σ → Prop) (s : Threads Ret ε σ) : Prop :=
  I s.shared ∧ ∀ p ∈ s.threads, p.Calls P

/-- **What every operation keeps, every interleaving keeps**: an invariant
that nobody has to rely on, of programs that only call some of the
operations. It needs no discipline, and so no proof about the programs
beyond what they call. -/
theorem Threads.invariant_of_calls {program : ρ → Program Ret ε Unit}
    {exec : ℕ → σ → (op : Op) → κ → Option (σ × Except ε (Ret op))} {outside : σ → η → Option σ}
    {P : Op → Prop} {I : σ → Prop}
    (hexec : ∀ t op, P op → ∀ s c r s', I s → exec t s op c = some (s', r) → I s')
    (houtside : ∀ s e s', I s → outside s e = some s' → I s')
    (hcalls : ∀ request, (program request).Calls P) {s₀ : σ} (hinit : I s₀)
    {s : Threads Ret ε σ}
    (run : Transition.Reachable (Threads.stepBeside program exec outside) ⟨s₀, []⟩ s) :
    I s.shared := by
  -- what is left of every thread only calls such operations either
  have hall : s.Keeping P I := by
    refine run.invariant
      ⟨hinit, fun p hp => absurd hp (by simp)⟩ fun s a s' h _ hstep => ?_
    obtain ⟨hinv, hthreads⟩ := h
    cases a with
    | inl a =>
      cases a with
      | start request =>
        obtain rfl := Option.some.inj hstep
        refine ⟨hinv, fun p hp => ?_⟩
        rcases List.mem_append.mp hp with hold | hnew
        · exact hthreads p hold
        · exact List.mem_singleton.mp hnew ▸ hcalls request
      | advance t choice =>
        have hadvance : s.step program exec (.advance t choice) = some s' := hstep
        obtain ⟨op, k, shared, r, hthread, hr, rfl⟩ := Threads.step_advance hadvance
        have hop := hthreads _ (List.mem_of_getElem? hthread)
        refine ⟨hexec t op hop.1 s.shared choice r shared hinv hr, fun p hp => ?_⟩
        rcases List.mem_or_eq_of_mem_set hp with hold | rfl
        · exact hthreads p hold
        · exact hop.2 r
    | inr e =>
      obtain ⟨shared, hshared, rfl⟩ := Option.map_eq_some_iff.mp hstep
      exact ⟨houtside s.shared e shared hinv hshared, hthreads⟩
  exact hall.1

end Beside

/-! ## What threads leave when they have ended

A thread that has ended calls nothing any more. So once all have ended,
the state is what they have left. -/

section Idle

/-- A program that has returned or raised. -/
def Program.Ended : Program Ret ε α → Prop
  | .call _ _ => False
  | _ => True

instance : DecidablePred (Program.Ended : Program Ret ε α → Prop)
  | .done _ => isTrue trivial
  | .raise _ => isTrue trivial
  | .call _ _ => isFalse id

/-- What a thread still has to do, which is nothing before it starts. -/
def Threads.rest (s : Threads Ret ε σ) (t : ℕ) : Program Ret ε Unit :=
  s.threads[t]?.getD (.done ())

/-- All threads keep the discipline, and each will be idle in the end, as
it was before it started. A thread that has not started counts as one with
nothing left to do, so that threads to come need no case of their own. -/
def Discipline.AllIdle (D : Discipline Ret ε σ κ) (Idle : ℕ → σ → Prop)
    (s : Threads Ret ε σ) : Prop :=
  D.Inv s.shared ∧ ∀ t, D.wp t (s.rest t) (fun _ => Idle t) (fun _ => Idle t) s.shared

variable {D : Discipline Ret ε σ κ} {Idle : ℕ → σ → Prop}

/-- What one step of an interleaving keeps. The thread that moves is idle
again when it ends, and the others rely on the step. -/
theorem Discipline.AllIdle.step {program : ρ → Program Ret ε Unit}
    (hidle : ∀ t s s', D.Rely t s s' → Idle t s → Idle t s')
    (hprogram : ∀ request t s, D.Inv s → Idle t s →
      D.wp t (program request) (fun _ => Idle t) (fun _ => Idle t) s)
    {s s' : Threads Ret ε σ} {a : Threads.Action ρ κ} (h : D.AllIdle Idle s)
    (hguard : D.stepGuard s a) (hstep : s.step program D.exec a = some s') :
    D.AllIdle Idle s' := by
  obtain ⟨hinv, hrest⟩ := h
  cases a with
  | start request =>
    obtain rfl := Option.some.inj hstep
    refine ⟨hinv, fun t => ?_⟩
    have hbefore := hrest t
    unfold Threads.rest at hbefore ⊢
    dsimp only
    rcases Nat.lt_trichotomy t s.threads.length with hlt | rfl | hgt
    · rwa [List.getElem?_append_left hlt]
    · rw [List.getElem?_eq_none (Nat.le_refl _)] at hbefore
      rw [List.getElem?_concat_length]
      exact hprogram request _ s.shared hinv hbefore
    · rw [List.getElem?_eq_none (Nat.le_of_lt hgt)] at hbefore
      rw [List.getElem?_eq_none]
      · exact hbefore
      · rw [List.length_append]
        exact hgt
  | advance t choice =>
    obtain ⟨op, k, shared, r, hthread, hexec, rfl⟩ := Threads.step_advance hstep
    have hown := hrest t
    unfold Threads.rest at hown
    rw [hthread] at hown
    obtain ⟨hkeeps, hafter⟩ := hown s.shared (D.rely_refl t s.shared) hinv choice r shared
      (hguard op k hthread) hexec
    refine ⟨hkeeps.inv, fun t' => ?_⟩
    -- the thread that has moved, and any other one
    by_cases ht : t' = t
    · subst ht
      unfold Threads.rest
      rw [List.getElem?_set_self (List.getElem?_eq_some_iff.mp hthread).1]
      exact hafter
    · have hother := Discipline.wp_of_rely (hidle t') (hrest t') (hkeeps.rely t' ht)
      unfold Threads.rest at hother ⊢
      rwa [List.getElem?_set_ne (Ne.symm ht)]

/-- **When all threads have ended**, the invariant holds and every thread
is idle, if every program leaves its thread idle. This is how a property
that is broken in between is stated of what remains: nobody is left who
could owe anything. -/
theorem Discipline.idle_of_ended {program : ρ → Program Ret ε Unit}
    (hidle : ∀ t s s', D.Rely t s s' → Idle t s → Idle t s')
    (hprogram : ∀ request t s, D.Inv s → Idle t s →
      D.wp t (program request) (fun _ => Idle t) (fun _ => Idle t) s)
    {s₀ : σ} (hinit : D.Inv s₀) (hnew : ∀ t, Idle t s₀) {s : Threads Ret ε σ}
    (run : Transition.Run (Threads.step program D.exec) D.stepGuard ⟨s₀, []⟩ s)
    (hended : ∀ p ∈ s.threads, p.Ended) : D.Inv s.shared ∧ ∀ t, Idle t s.shared := by
  have hstart : D.AllIdle Idle ⟨s₀, []⟩ := ⟨hinit, fun t => hnew t⟩
  have hrun : D.AllIdle Idle s :=
    run.invariant hstart fun _ _ _ h hguard hstep => h.step hidle hprogram hguard hstep
  refine ⟨hrun.1, fun t => ?_⟩
  have hrest := hrun.2 t
  unfold Threads.rest at hrest
  rcases hthread : s.threads[t]? with _ | p
  · rw [hthread] at hrest
    exact hrest
  · have hp := hended p (List.mem_of_getElem? hthread)
    rw [hthread] at hrest
    cases p with
    | done a => exact hrest
    | raise e => exact hrest
    | call op k => exact hp.elim

end Idle

/-! ## Notes

A run can be watched by writing down what its threads do. The notes change
nothing, and every run is one with notes, so an invariant may speak of the
past. -/

section Notes

variable {ν : Type}

/-- A state, and what is noted beside it. No program reads the notes. -/
structure Noted (σ ν : Type) where
  state : σ
  notes : ν

/-- An operation of a thread, after which something is noted. -/
def Noted.exec (exec : ℕ → σ → (op : Op) → κ → Option (σ × Except ε (Ret op)))
    (note : ℕ → σ → (op : Op) → Except ε (Ret op) → ν → ν) (t : ℕ) (s : Noted σ ν) (op : Op)
    (c : κ) : Option (Noted σ ν × Except ε (Ret op)) :=
  (exec t s.state op c).map fun (state, r) => (⟨state, note t s.state op r s.notes⟩, r)

/-- The threads without the notes. -/
def Threads.withoutNotes (s : Threads Ret ε (Noted σ ν)) : Threads Ret ε σ :=
  ⟨s.shared.state, s.threads⟩

variable {exec : ℕ → σ → (op : Op) → κ → Option (σ × Except ε (Ret op))}
  {note : ℕ → σ → (op : Op) → Except ε (Ret op) → ν → ν}

theorem Noted.exec_eq {t : ℕ} {s s' : Noted σ ν} {op : Op} {c : κ} {r : Except ε (Ret op)}
    (h : Noted.exec exec note t s op c = some (s', r)) :
    exec t s.state op c = some (s'.state, r) ∧ s'.notes = note t s.state op r s.notes := by
  obtain ⟨⟨state, r'⟩, hexec, heq⟩ := Option.map_eq_some_iff.mp h
  obtain ⟨rfl, rfl⟩ := Prod.mk.inj heq
  exact ⟨hexec, rfl⟩

/-- The notes change nothing. They are written after each operation and
read by none, so leaving them out commutes with a step. -/
theorem Threads.step_withoutNotes {program : ρ → Program Ret ε Unit}
    (note : ℕ → σ → (op : Op) → Except ε (Ret op) → ν → ν) (s : Threads Ret ε (Noted σ ν))
    (a : Threads.Action ρ κ) : s.withoutNotes.step program exec a
      = (s.step program (Noted.exec exec note) a).map Threads.withoutNotes := by
  cases a with
  | start request => rfl
  | advance t choice =>
    unfold Threads.step
    dsimp only [withoutNotes]
    split
    · dsimp only [Noted.exec]
      rw [Option.map_map, Option.map_map]
      rfl
    · rfl

/-- **The runs with notes are the runs.** A result that needs to speak of
the past of a run may be stated of runs with notes, and is then about all
runs. -/
theorem Threads.reachable_iff_noted {program : ρ → Program Ret ε Unit}
    (s₀ : Threads Ret ε (Noted σ ν)) {s : Threads Ret ε σ} :
    Transition.Reachable (Threads.step program exec) s₀.withoutNotes s
      ↔ ∃ s', Transition.Reachable (Threads.step program (Noted.exec exec note)) s₀ s'
        ∧ s'.withoutNotes = s := by
  constructor
  · intro run
    induction run with
    | start => exact ⟨s₀, .start, rfl⟩
    | next a _ _ hstep ih =>
      obtain ⟨s', run', rfl⟩ := ih
      rw [step_withoutNotes note] at hstep
      obtain ⟨s'', hstep', rfl⟩ := Option.map_eq_some_iff.mp hstep
      exact ⟨s'', .next a run' trivial hstep', rfl⟩
  · rintro ⟨s', run, rfl⟩
    induction run with
    | start => exact .start
    | next a _ _ hstep ih =>
      refine .next a ih trivial ?_
      rw [step_withoutNotes note, hstep]
      rfl

end Notes

/-! ## One thread among others

Often a property is about one thread, and of the others only what they may
do matters. Then it is enough to follow the program of that one. -/

namespace Threads

variable {program : ρ → Program Ret ε Unit}
  {exec : ℕ → σ → (op : Op) → κ → Option (σ × Except ε (Ret op))}

/-- What is asked of the steps of the other threads while the first one
has come to a point of its program. -/
def Beside (G : Program Ret ε Unit → σ → Op → κ → Prop) (s : Threads Ret ε σ) :
    Action ρ κ → Prop
  | .start _ => True
  | .advance t choice => t ≠ 0 → ∀ p op k, s.threads[0]? = some p →
    s.threads[t]? = some (.call op k) → G p s.shared op choice

/-- The condition can be evaluated, if it can for one operation. -/
instance {G : Program Ret ε Unit → σ → Op → κ → Prop} [∀ p s op c, Decidable (G p s op c)]
    (s : Threads Ret ε σ) : (a : Action ρ κ) → Decidable (Beside G s a)
  | .start _ => isTrue trivial
  | .advance t choice =>
    match hp : s.threads[0]?, hthread : s.threads[t]? with
    | some p, some (.call op k) =>
      decidable_of_iff (t ≠ 0 → G p s.shared op choice)
        ⟨fun h ht p' op' k' hp' hthread' => by
          obtain rfl := Option.some.inj (hp.symm.trans hp')
          obtain ⟨rfl, -⟩ := Program.call.inj (Option.some.inj (hthread.symm.trans hthread'))
          exact h ht,
        fun h ht => h ht p op k hp hthread⟩
    | none, _ => isTrue fun _ _ _ _ hp' => absurd (hp.symm.trans hp') nofun
    | _, none => isTrue fun _ _ _ _ _ hthread' => absurd (hthread.symm.trans hthread') nofun
    | _, some (.done _) => isTrue fun _ _ _ _ _ hthread' =>
      absurd (Option.some.inj (hthread.symm.trans hthread')) nofun
    | _, some (.raise _) => isTrue fun _ _ _ _ _ hthread' =>
      absurd (Option.some.inj (hthread.symm.trans hthread')) nofun

/-- Something holds of the first thread's program and the shared state.
The program is what is left of it, so that this says where the thread has
come to and what is so then. -/
def Watched (Φ : Program Ret ε Unit → σ → Prop) (s : Threads Ret ε σ) : Prop :=
  ∃ p, s.threads[0]? = some p ∧ Φ p s.shared

variable {G : Program Ret ε Unit → σ → Op → κ → Prop} {Φ : Program Ret ε Unit → σ → Prop}

/-- What one step of an interleaving keeps. The watched program moves, or
it does not and another thread does, about which only the guard is
known. -/
theorem Watched.step
    (hown : ∀ s op k c s' r, Φ (.call op k) s → exec 0 s op c = some (s', r) → Φ (k r) s')
    (hothers : ∀ t p s op c s' r, t ≠ 0 → Φ p s → G p s op c → exec t s op c = some (s', r) →
      Φ p s') {s s' : Threads Ret ε σ} {a : Action ρ κ} (h : s.Watched Φ) (hguard : s.Beside G a)
    (hstep : s.step program exec a = some s') : s'.Watched Φ := by
  obtain ⟨p, hp, hΦ⟩ := h
  cases a with
  | start request =>
    obtain rfl := Option.some.inj hstep
    have hlen : 0 < s.threads.length := (List.getElem?_eq_some_iff.mp hp).1
    exact ⟨p, (List.getElem?_append_left hlen).trans hp, hΦ⟩
  | advance t choice =>
    obtain ⟨op, k, shared, r, hthread, hexec, rfl⟩ := step_advance hstep
    by_cases ht : t = 0
    · subst ht
      obtain rfl := Option.some.inj (hp.symm.trans hthread)
      refine ⟨k r, ?_, hown _ _ _ _ _ _ hΦ hexec⟩
      exact List.getElem?_set_self (List.getElem?_eq_some_iff.mp hthread).1
    · refine ⟨p, ?_, hothers t p _ op choice _ r ht hΦ (hguard ht p op k hp hthread) hexec⟩
      exact (List.getElem?_set_ne ht).trans hp

/-- **The rule for one thread among others**: what holds of its program
and the shared state when it starts, and survives its own steps as well as
those of the others, holds throughout. -/
theorem watch
    (hown : ∀ s op k c s' r, Φ (.call op k) s → exec 0 s op c = some (s', r) → Φ (k r) s')
    (hothers : ∀ t p s op c s' r, t ≠ 0 → Φ p s → G p s op c → exec t s op c = some (s', r) →
      Φ p s') {p₀ : Program Ret ε Unit} {s₀ : σ} (hinit : Φ p₀ s₀) {s : Threads Ret ε σ}
    (run : Transition.Run (Threads.step program exec) (Beside G) ⟨s₀, [p₀]⟩ s) : s.Watched Φ :=
  run.invariant ⟨p₀, rfl, hinit⟩ fun _ _ _ h hguard hstep => h.step hown hothers hguard hstep

end Threads
