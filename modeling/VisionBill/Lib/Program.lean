import Mathlib.Data.Nat.Notation

/-!
# Programs over atomic operations

A program calls operations on a shared state, one at a time, and goes on
with what each of them returns or raises. It is a tree with a branch for
every possible answer, so two programs are the same if they ask the same
and answer alike. Exceptions are those of the host language: `raise`, and
`tryCatch`, which runs a handler in place of what follows.

An operation is performed by a function that may consult a choice – the
time, a random number, a failure – that the program does not control;
`none` says that the choice is not possible. `Program.run` executes a
program alone, `Program.stopped` does so up to any point of it, and
`Program.Performs` says which operations its runs call.

## Why a tree

The same program is looked at in several ways. It runs alone, as in a
test; it runs next to others that change the state between its operations;
it is stopped in the middle because the process ends. A tree has no state
of its own, so each of these is a function or a relation over it, and they
agree by construction on what the program does. What may happen between
two operations is decided by whoever runs the tree.

## Three ways to reason

*Calls* (`Calls`): all operations that occur anywhere in the tree have
some property. This is enough for an invariant that every such operation
keeps, whoever runs the program and wherever it stops (`run_keeps`).

*Weakest preconditions* (`wlp`): what holds at the end of a run, for what
is returned and for what is raised. There is one rule for each way to
build a program, so a proof follows the program text.

*Traces* (`trace`): which operations a run has called, and with which
choices. The log is part of the state there, so traces are reasoned about
with weakest preconditions as well (`wlp_trace`).
-/

variable {Op : Type} {Ret : Op → Type} {ε α β σ κ : Type}

/-- A program that returns an `α` or raises an `ε`. It branches on what an
operation returns, and also on what it raises, since a program may catch
that. -/
inductive Program {Op : Type} (Ret : Op → Type) (ε α : Type)
  /-- The program has returned. -/
  | done (a : α)
  /-- The program has raised. -/
  | raise (e : ε)
  /-- An operation is called, and the rest depends on its answer. -/
  | call (op : Op) (k : Except ε (Ret op) → Program Ret ε α)

namespace Program

/-- One program after another. -/
def bind : Program Ret ε α → (α → Program Ret ε β) → Program Ret ε β
  | done a, f => f a
  | raise e, _ => raise e
  | call op k, f => call op fun r => bind (k r) f

/-- A handler for what a program raises. It covers the whole of the
program, and none of what follows it. -/
def handle : Program Ret ε α → (ε → Program Ret ε α) → Program Ret ε α
  | done a, _ => done a
  | raise e, h => h e
  | call op k, h => call op fun r => handle (k r) h

instance : Monad (Program Ret ε) where
  pure := done
  bind := bind

instance : MonadExceptOf ε (Program Ret ε) where
  throw := raise
  tryCatch := handle

/-- What has been answered already. -/
def answer : Except ε α → Program Ret ε α
  | .ok a => done a
  | .error e => raise e

/-- A single operation. -/
def perform (op : Op) : Program Ret ε (Ret op) := call op answer

@[simp] theorem pure_bind (a : α) (f : α → Program Ret ε β) : (pure a >>= f) = f a := rfl

@[simp] theorem raise_bind (e : ε) (f : α → Program Ret ε β) :
    (raise e : Program Ret ε α) >>= f = raise e := rfl

@[simp] theorem call_bind (op : Op) (k : Except ε (Ret op) → Program Ret ε α)
    (f : α → Program Ret ε β) : (call op k >>= f) = call op fun r => k r >>= f := rfl

theorem bind_assoc {γ : Type} (p : Program Ret ε α) (f : α → Program Ret ε β)
    (g : β → Program Ret ε γ) : (p >>= f) >>= g = p >>= fun a => f a >>= g := by
  induction p with
  | done a => rfl
  | raise e => rfl
  | call op k ih =>
    show call op (fun r => (k r >>= f) >>= g) = call op fun r => k r >>= fun a => f a >>= g
    rw [show (fun r => (k r >>= f) >>= g) = fun r => k r >>= fun a => f a >>= g from funext ih]

theorem bind_pure (p : Program Ret ε α) : (p >>= fun a => pure a) = p := by
  induction p with
  | done a => rfl
  | raise e => rfl
  | call op k ih =>
    show call op (fun r => k r >>= fun a => pure a) = call op k
    rw [show (fun r => k r >>= fun a => pure a) = k from funext ih]

/-- A program run alone, with a choice for each operation that it
performs. The list has exactly as many choices as there are operations, so
a run is a finite piece of data that can be evaluated. -/
def run (exec : σ → (op : Op) → κ → Option (σ × Except ε (Ret op))) :
    Program Ret ε α → List κ → σ → Option (σ × Except ε α)
  | done a, [], s => some (s, .ok a)
  | raise e, [], s => some (s, .error e)
  | call op k, c :: cs, s => (exec s op c).bind fun (s', r) => run exec (k r) cs s'
  | _, _, _ => none

/-- What a program returns if its operations only ask for something, and
nothing changes meanwhile. -/
def ask (answer : (op : Op) → Except ε (Ret op)) : Program Ret ε α → Except ε α
  | done a => .ok a
  | raise e => .error e
  | call op k => ask answer (k (answer op))

/-- All operations that a program may call have a property, whatever the
answers to the ones before are. It is read off the text of a program. -/
def Calls (P : Op → Prop) : Program Ret ε α → Prop
  | done _ => True
  | raise _ => True
  | call op k => P op ∧ ∀ r, Calls P (k r)

variable {P : Op → Prop}

theorem calls_bind {p : Program Ret ε α} {f : α → Program Ret ε β} (hp : Calls P p)
    (hf : ∀ a, Calls P (f a)) : Calls P (p >>= f) := by
  induction p with
  | done a => exact hf a
  | raise e => trivial
  | call op k ih => exact ⟨hp.1, fun r => ih r (hp.2 r)⟩

theorem calls_handle {p : Program Ret ε α} {h : ε → Program Ret ε α} (hp : Calls P p)
    (hh : ∀ e, Calls P (h e)) : Calls P (tryCatch p h) := by
  induction p with
  | done a => trivial
  | raise e => exact hh e
  | call op k ih => exact ⟨hp.1, fun r => ih r (hp.2 r)⟩

theorem Calls.mono {Q : Op → Prop} (h : ∀ op, P op → Q op) {p : Program Ret ε α}
    (hp : Calls P p) : Calls Q p := by
  induction p with
  | done a => trivial
  | raise e => trivial
  | call op k ih => exact ⟨h op hp.1, fun r => ih r (hp.2 r)⟩

theorem calls_true (p : Program Ret ε α) : p.Calls fun _ => True := by
  induction p with
  | done a => trivial
  | raise e => trivial
  | call op k ih => exact ⟨trivial, ih⟩

theorem calls_perform {op : Op} (h : P op) : Calls P (perform op : Program Ret ε (Ret op)) :=
  ⟨h, fun r => by cases r <;> trivial⟩

/-- Answers that are the same wherever a program asks. -/
theorem ask_congr {answer answer' : (op : Op) → Except ε (Ret op)} {p : Program Ret ε α}
    (hcalls : p.Calls fun op => answer op = answer' op) : p.ask answer = p.ask answer' := by
  induction p with
  | done a => rfl
  | raise e => rfl
  | call op k ih =>
    show (k (answer op)).ask answer = (k (answer' op)).ask answer'
    rw [← hcalls.1]
    exact ih (answer op) (hcalls.2 (answer op))

section Run

variable {exec : σ → (op : Op) → κ → Option (σ × Except ε (Ret op))} {cs : List κ} {s s' : σ}

theorem run_pure {a : α} {r : Except ε α}
    (h : run exec (pure a : Program Ret ε α) cs s = some (s', r)) :
    cs = [] ∧ s' = s ∧ r = .ok a := by
  cases cs with
  | nil =>
    obtain ⟨rfl, rfl⟩ := Prod.mk.inj (Option.some.inj h)
    exact ⟨rfl, rfl, rfl⟩
  | cons c cs => exact absurd h (by simp [pure, run])

theorem run_throw {e : ε} {r : Except ε α}
    (h : run exec (throw e : Program Ret ε α) cs s = some (s', r)) :
    cs = [] ∧ s' = s ∧ r = .error e := by
  cases cs with
  | nil =>
    obtain ⟨rfl, rfl⟩ := Prod.mk.inj (Option.some.inj h)
    exact ⟨rfl, rfl, rfl⟩
  | cons c cs => exact absurd h (by simp [throw, throwThe, MonadExceptOf.throw, run])

/-- The first operation, and the rest. -/
theorem run_call {op : Op} {k : Except ε (Ret op) → Program Ret ε α} {r : Except ε α}
    (h : run exec (call op k) cs s = some (s', r)) :
    ∃ c cs' s₁ r₁, cs = c :: cs' ∧ exec s op c = some (s₁, r₁)
      ∧ run exec (k r₁) cs' s₁ = some (s', r) := by
  cases cs with
  | nil => exact absurd h (by simp [run])
  | cons c cs =>
    obtain ⟨⟨s₁, r₁⟩, hexec, hrest⟩ := Option.bind_eq_some_iff.mp h
    exact ⟨c, cs, s₁, r₁, rfl, hexec, hrest⟩

/-- A single operation. -/
theorem run_perform {op : Op} {r : Except ε (Ret op)}
    (h : run exec (perform op) cs s = some (s', r)) :
    ∃ c, cs = [c] ∧ exec s op c = some (s', r) := by
  obtain ⟨c, cs', s₁, r₁, rfl, hexec, hrest⟩ := run_call h
  cases r₁ with
  | ok a =>
    obtain ⟨rfl, rfl, rfl⟩ := run_pure hrest
    exact ⟨c, rfl, hexec⟩
  | error e =>
    obtain ⟨rfl, rfl, rfl⟩ := run_throw hrest
    exact ⟨c, rfl, hexec⟩

/-- One program after another: the second one runs if the first one
returns. The choices are split where the first one ends. -/
theorem run_bind {p : Program Ret ε α} {f : α → Program Ret ε β} {r : Except ε β}
    (h : run exec (p >>= f) cs s = some (s', r)) :
    (∃ cs₁ cs₂ s₁ a, cs = cs₁ ++ cs₂ ∧ run exec p cs₁ s = some (s₁, .ok a)
        ∧ run exec (f a) cs₂ s₁ = some (s', r))
      ∨ ∃ e, run exec p cs s = some (s', .error e) ∧ r = .error e := by
  induction p generalizing cs s with
  | done a => exact .inl ⟨[], cs, s, a, rfl, rfl, h⟩
  | raise e =>
    obtain ⟨rfl, rfl, rfl⟩ := run_throw h
    exact .inr ⟨e, rfl, rfl⟩
  | call op k ih =>
    obtain ⟨c, cs', s₁, r₁, rfl, hexec, hrest⟩ := run_call h
    rcases ih r₁ hrest with ⟨cs₁, cs₂, s₂, a, rfl, hp, hf⟩ | ⟨e, hp, he⟩
    · exact .inl ⟨c :: cs₁, cs₂, s₂, a, rfl, Option.bind_eq_some_iff.mpr ⟨_, hexec, hp⟩, hf⟩
    · exact .inr ⟨e, Option.bind_eq_some_iff.mpr ⟨_, hexec, hp⟩, he⟩

theorem run_bind_ok {p : Program Ret ε α} {f : α → Program Ret ε β} {cs cs' : List κ} {s s₁ : σ}
    {a : α} {out : σ × Except ε β} (hp : run exec p cs s = some (s₁, .ok a))
    (hf : run exec (f a) cs' s₁ = some out) : run exec (p >>= f) (cs ++ cs') s = some out := by
  induction p generalizing cs s with
  | done b =>
    obtain ⟨rfl, rfl, heq⟩ := run_pure hp
    obtain rfl := Except.ok.inj heq
    exact hf
  | raise e =>
    obtain ⟨-, -, heq⟩ := run_throw hp
    exact absurd heq (by simp)
  | call op k ih =>
    obtain ⟨c, cs₁, s₂, r₁, rfl, hexec, hrest⟩ := run_call hp
    exact Option.bind_eq_some_iff.mpr ⟨_, hexec, ih r₁ hrest⟩

theorem run_bind_error {p : Program Ret ε α} (f : α → Program Ret ε β) {cs : List κ} {s s₁ : σ}
    {e : ε} (hp : run exec p cs s = some (s₁, .error e)) :
    run exec (p >>= f) cs s = some (s₁, .error e) := by
  induction p generalizing cs s with
  | done b =>
    obtain ⟨-, -, heq⟩ := run_pure hp
    exact absurd heq (by simp)
  | raise e' =>
    obtain ⟨rfl, rfl, heq⟩ := run_throw hp
    obtain rfl := Except.error.inj heq
    rfl
  | call op k ih =>
    obtain ⟨c, cs₁, s₂, r₁, rfl, hexec, hrest⟩ := run_call hp
    exact Option.bind_eq_some_iff.mpr ⟨_, hexec, ih r₁ hrest⟩

/-- A single operation, and what follows if it returns. Proofs about a run
follow the program with this, one operation at a time, and never unfold
`run`. -/
theorem run_perform_bind {op : Op} {f : Ret op → Program Ret ε α} {r : Except ε α}
    (h : run exec (perform op >>= f) cs s = some (s', r)) :
    ∃ c cs', cs = c :: cs'
      ∧ ((∃ s₁ a, exec s op c = some (s₁, .ok a) ∧ run exec (f a) cs' s₁ = some (s', r))
        ∨ ∃ e, exec s op c = some (s', .error e) ∧ cs' = [] ∧ r = .error e) := by
  obtain ⟨c, cs', s₁, r₁, rfl, hexec, hrest⟩ := run_call h
  refine ⟨c, cs', rfl, ?_⟩
  cases r₁ with
  | ok a => exact .inl ⟨s₁, a, hexec, hrest⟩
  | error e =>
    obtain ⟨rfl, rfl, rfl⟩ := run_throw hrest
    exact .inr ⟨e, hexec, rfl, rfl⟩

/-- A program that is followed by no more operations. -/
theorem run_bind_end {p : Program Ret ε α} {f : α → Program Ret ε β} {r : Except ε β}
    (hf : ∀ a cs s s' r, run exec (f a) cs s = some (s', r) → cs = [] ∧ s' = s)
    (h : run exec (p >>= f) cs s = some (s', r)) :
    ∃ r₀, run exec p cs s = some (s', r₀) := by
  rcases run_bind h with ⟨cs₁, cs₂, s₁, a, rfl, hp, hrest⟩ | ⟨e, hp, -⟩
  · obtain ⟨rfl, rfl⟩ := hf a cs₂ s₁ s' r hrest
    rw [List.append_nil]
    exact ⟨.ok a, hp⟩
  · exact ⟨.error e, hp⟩

theorem pure_ends {a : α} {r : Except ε α}
    (h : run exec (pure a : Program Ret ε α) cs s = some (s', r)) : cs = [] ∧ s' = s :=
  ⟨(run_pure h).1, (run_pure h).2.1⟩

theorem throw_ends {e : ε} {r : Except ε α}
    (h : run exec (throw e : Program Ret ε α) cs s = some (s', r)) : cs = [] ∧ s' = s :=
  ⟨(run_throw h).1, (run_throw h).2.1⟩

/-- A program and its handler: the handler runs if the program raises. It
starts in the state in which the exception was raised, with the choices
that are left. -/
theorem run_handle {p : Program Ret ε α} {g : ε → Program Ret ε α} {r : Except ε α}
    (h : run exec (tryCatch p g) cs s = some (s', r)) :
    (∃ a, run exec p cs s = some (s', .ok a) ∧ r = .ok a)
      ∨ ∃ cs₁ cs₂ s₁ e, cs = cs₁ ++ cs₂ ∧ run exec p cs₁ s = some (s₁, .error e)
        ∧ run exec (g e) cs₂ s₁ = some (s', r) := by
  induction p generalizing cs s with
  | done a =>
    obtain ⟨rfl, rfl, rfl⟩ := run_pure h
    exact .inl ⟨a, rfl, rfl⟩
  | raise e => exact .inr ⟨[], cs, s, e, rfl, rfl, h⟩
  | call op k ih =>
    obtain ⟨c, cs', s₁, r₁, rfl, hexec, hrest⟩ := run_call h
    rcases ih r₁ hrest with ⟨a, hp, ha⟩ | ⟨cs₁, cs₂, s₂, e, rfl, hp, hg⟩
    · exact .inl ⟨a, Option.bind_eq_some_iff.mpr ⟨_, hexec, hp⟩, ha⟩
    · exact .inr ⟨c :: cs₁, cs₂, s₂, e, rfl, Option.bind_eq_some_iff.mpr ⟨_, hexec, hp⟩, hg⟩

/-- **Two runs of one program** with the same choices, from states that
are related in a way that the operations keep, end alike and take as long.
What the program sees is the same in both runs, so it takes the same
branches. -/
theorem run_sim {R : σ → σ → Prop}
    (hexec : ∀ s t op c s' r t' r', R s t → exec s op c = some (s', r) →
      exec t op c = some (t', r') → R s' t' ∧ r = r')
    {p : Program Ret ε α} {cs cs' rest rest' : List κ} {s s' t t' : σ} {r r' : Except ε α}
    (hR : R s t) (h : run exec p cs s = some (s', r)) (h' : run exec p cs' t = some (t', r'))
    (hcs : cs ++ rest = cs' ++ rest') : cs = cs' ∧ R s' t' ∧ r = r' := by
  induction p generalizing cs cs' s t with
  | done a =>
    obtain ⟨rfl, rfl, rfl⟩ := run_pure h
    obtain ⟨rfl, rfl, rfl⟩ := run_pure h'
    exact ⟨rfl, hR, rfl⟩
  | raise e =>
    obtain ⟨rfl, rfl, rfl⟩ := run_throw h
    obtain ⟨rfl, rfl, rfl⟩ := run_throw h'
    exact ⟨rfl, hR, rfl⟩
  | call op k ih =>
    obtain ⟨c, cs₁, s₁, r₁, rfl, hstep, hrest⟩ := run_call h
    obtain ⟨c', cs₁', t₁, r₁', rfl, hstep', hrest'⟩ := run_call h'
    obtain ⟨rfl, hcs₁⟩ := List.cons.inj hcs
    obtain ⟨hR₁, rfl⟩ := hexec s t op c s₁ r₁ t₁ r₁' hR hstep hstep'
    obtain ⟨rfl, hR', rfl⟩ := ih r₁ hR₁ hrest hrest' hcs₁
    exact ⟨rfl, hR', rfl⟩

/-- What all operations of a program keep, a run keeps. Nothing has to be
known of the program but which operations it may call. -/
theorem run_keeps {P : Op → Prop} {I : σ → Prop} {p : Program Ret ε α} {r : Except ε α}
    (hexec : ∀ op, P op → ∀ s c s' r, I s → exec s op c = some (s', r) → I s')
    (hcalls : p.Calls P) (hs : I s) (h : run exec p cs s = some (s', r)) : I s' := by
  induction p generalizing cs s with
  | done a =>
    obtain ⟨-, rfl, -⟩ := run_pure h
    exact hs
  | raise e =>
    obtain ⟨-, rfl, -⟩ := run_throw h
    exact hs
  | call op k ih =>
    obtain ⟨c, cs', s₁, r₁, rfl, hstep, hrest⟩ := run_call h
    exact ih r₁ (hcalls.2 r₁) (hexec op hcalls.1 s c s₁ r₁ hs hstep) hrest

/-- Some run of a program gets as far as calling an operation. It need not
end after that, or end at all. -/
def Performs (exec : σ → (op : Op) → κ → Option (σ × Except ε (Ret op))) :
    Program Ret ε α → σ → Op → Prop
  | done _, _, _ => False
  | raise _, _, _ => False
  | call op k, s, o => op = o ∨ ∃ c s' r, exec s op c = some (s', r) ∧ Performs exec (k r) s' o

variable {o : Op}

/-- What is called has what all calls of the program have. -/
theorem Performs.of_calls {P : Op → Prop} {p : Program Ret ε α} (hcalls : p.Calls P)
    (h : Performs exec p s o) : P o := by
  induction p generalizing s with
  | done a => exact h.elim
  | raise e => exact h.elim
  | call op k ih =>
    rcases h with rfl | ⟨c, s', r, -, hrest⟩
    · exact hcalls.1
    · exact ih r (hcalls.2 r) hrest

theorem performs_perform {op : Op} : Performs exec (perform op : Program Ret ε (Ret op)) s op :=
  .inl rfl

/-- What the first one of two programs calls, both call. -/
theorem Performs.bind {p : Program Ret ε α} (h : Performs exec p s o)
    (f : α → Program Ret ε β) : Performs exec (p >>= f) s o := by
  induction p generalizing s with
  | done a => exact h.elim
  | raise e => exact h.elim
  | call op k ih =>
    rcases h with rfl | ⟨c, s', r, hexec, hrest⟩
    · exact .inl rfl
    · exact .inr ⟨c, s', r, hexec, ih r hrest⟩

/-- What is called after an operation that returns. -/
theorem performs_after {op : Op} {f : Ret op → Program Ret ε α} {c : κ} {a : Ret op}
    (hexec : exec s op c = some (s', .ok a)) (h : Performs exec (f a) s' o) :
    Performs exec (perform op >>= f) s o :=
  .inr ⟨c, s', .ok a, hexec, h⟩

/-- What is called after an operation that returns one value, if at
all. -/
theorem Performs.after {op : Op} {f : Ret op → Program Ret ε α} {a : Ret op}
    (hreturns : ∀ c s' b, exec s op c = some (s', .ok b) → s' = s ∧ b = a)
    (h : Performs exec (perform op >>= f) s o) : op = o ∨ Performs exec (f a) s o := by
  rcases h with rfl | ⟨c, s', r, hexec, hrest⟩
  · exact .inl rfl
  · cases r with
    | ok b =>
      obtain ⟨rfl, rfl⟩ := hreturns c s' b hexec
      exact .inr hrest
    | error e => exact hrest.elim

/-- A handler does not undo calls. -/
theorem Performs.handle {p : Program Ret ε α} (h : Performs exec p s o)
    (g : ε → Program Ret ε α) : Performs exec (tryCatch p g) s o := by
  induction p generalizing s with
  | done a => exact h.elim
  | raise e => exact h.elim
  | call op k ih =>
    rcases h with rfl | ⟨c, s', r, hexec, hrest⟩
    · exact .inl rfl
    · exact .inr ⟨c, s', r, hexec, ih r hrest⟩

end Run

/-! ## What a program establishes

The weakest liberal precondition of a program, with a condition for
returning and one for raising. There is a rule for each way in which
programs are put together, and an invariant of the operations is used
through them. -/

/-- **The weakest precondition** of a program that runs alone, for what it
returns and for what it raises. It is partial: nothing is claimed of
choices that are not possible. -/
def wlp (exec : σ → (op : Op) → κ → Option (σ × Except ε (Ret op))) :
    Program Ret ε α → (α → σ → Prop) → (ε → σ → Prop) → σ → Prop
  | done a, Q, _, s => Q a s
  | raise e, _, R, s => R e s
  | call op k, Q, R, s => ∀ c s' r, exec s op c = some (s', r) → wlp exec (k r) Q R s'

section Precondition

variable {exec : σ → (op : Op) → κ → Option (σ × Except ε (Ret op))} {s s' : σ}
  {Q Q' : α → σ → Prop} {R R' : ε → σ → Prop}

/-- What a program establishes holds at the end of its runs. It is the
only place at which the predicate and the runs meet. -/
theorem wlp_run {p : Program Ret ε α} (h : wlp exec p Q R s) {cs : List κ} {r : Except ε α}
    (hrun : run exec p cs s = some (s', r)) :
    (∃ a, r = .ok a ∧ Q a s') ∨ ∃ e, r = .error e ∧ R e s' := by
  induction p generalizing cs s with
  | done a =>
    obtain ⟨rfl, rfl, rfl⟩ := run_pure hrun
    exact .inl ⟨a, rfl, h⟩
  | raise e =>
    obtain ⟨rfl, rfl, rfl⟩ := run_throw hrun
    exact .inr ⟨e, rfl, h⟩
  | call op k ih =>
    obtain ⟨c, cs', s₁, r₁, rfl, hexec, hrest⟩ := run_call hrun
    exact ih r₁ (h c s₁ r₁ hexec) hrest

theorem wlp_mono {p : Program Ret ε α} (h : wlp exec p Q R s) (hQ : ∀ a s, Q a s → Q' a s)
    (hR : ∀ e s, R e s → R' e s) : wlp exec p Q' R' s := by
  induction p generalizing s with
  | done a => exact hQ a s h
  | raise e => exact hR e s h
  | call op k ih => exact fun c s' r hexec => ih r (h c s' r hexec)

theorem wlp_and {p : Program Ret ε α} (h : wlp exec p Q R s) (h' : wlp exec p Q' R' s) :
    wlp exec p (fun a s => Q a s ∧ Q' a s) (fun e s => R e s ∧ R' e s) s := by
  induction p generalizing s with
  | done a => exact ⟨h, h'⟩
  | raise e => exact ⟨h, h'⟩
  | call op k ih => exact fun c s' r hexec => ih r (h c s' r hexec) (h' c s' r hexec)

/-- One program after another: the first one has to establish what the
second one needs. What the first one raises skips the second one. -/
theorem wlp_bind {p : Program Ret ε α} {f : α → Program Ret ε β} {Q : β → σ → Prop} :
    wlp exec (p >>= f) Q R s ↔ wlp exec p (fun a s => wlp exec (f a) Q R s) R s := by
  induction p generalizing s with
  | done a => exact Iff.rfl
  | raise e => exact Iff.rfl
  | call op k ih => exact forall₃_congr fun c s' r => imp_congr_right fun _ => ih r

/-- A program and its handler: what is raised inside is what the handler
starts from, and what it raises itself goes out. -/
theorem wlp_handle {p : Program Ret ε α} {g : ε → Program Ret ε α} :
    wlp exec (tryCatch p g) Q R s ↔ wlp exec p Q (fun e s => wlp exec (g e) Q R s) s := by
  induction p generalizing s with
  | done a => exact Iff.rfl
  | raise e => exact Iff.rfl
  | call op k ih => exact forall₃_congr fun c s' r => imp_congr_right fun _ => ih r

/-- A single operation. -/
theorem wlp_perform {op : Op} {Q : Ret op → σ → Prop}
    (h : ∀ c s' r, exec s op c = some (s', r) →
      (∀ a, r = .ok a → Q a s') ∧ ∀ e, r = .error e → R e s') :
    wlp exec (perform op) Q R s := by
  intro c s' r hexec
  cases r with
  | ok a => exact (h c s' _ hexec).1 a rfl
  | error e => exact (h c s' _ hexec).2 e rfl

/-- What all operations of a program keep. -/
theorem wlp_of_calls {P : Op → Prop} {I : σ → Prop}
    (hexec : ∀ op, P op → ∀ s c s' r, I s → exec s op c = some (s', r) → I s')
    {p : Program Ret ε α} (hcalls : p.Calls P) (hs : I s) :
    wlp exec p (fun _ => I) (fun _ => I) s := by
  induction p generalizing s with
  | done a => exact hs
  | raise e => exact hs
  | call op k ih =>
    exact fun c s' r hstep => ih r (hcalls.2 r) (hexec op hcalls.1 s c s' r hs hstep)

end Precondition

/-! ## What a run has called

Some properties are about the calls and not about the state that they lead
to. The trace of a run lists them, and the rules above hold with it in the
state. -/

/-- The operations that a run calls, with the choices it gets. The trace
ends where the program ends, or where an operation is not possible. -/
def trace (exec : σ → (op : Op) → κ → Option (σ × Except ε (Ret op))) :
    Program Ret ε α → List κ → σ → List (Op × κ)
  | call op k, c :: cs, s =>
    (op, c) :: (match exec s op c with
      | some (s', r) => trace exec (k r) cs s'
      | none => [])
  | _, _, _ => []

/-- The operations, with a log of what was called. The log grows at its
end and is read by nobody, so it does not change a run (`run_traced`). -/
def traced (exec : σ → (op : Op) → κ → Option (σ × Except ε (Ret op)))
    (s : σ × List (Op × κ)) (op : Op) (c : κ) :
    Option ((σ × List (Op × κ)) × Except ε (Ret op)) :=
  (exec s.1 op c).map fun out => ((out.1, s.2 ++ [(op, c)]), out.2)

section Trace

variable {exec : σ → (op : Op) → κ → Option (σ × Except ε (Ret op))} {cs : List κ} {s s' : σ}
  {p : Program Ret ε α} {r : Except ε α}

theorem traced_eq_some {op : Op} {c : κ} {t t' : σ × List (Op × κ)} {r : Except ε (Ret op)}
    (h : traced exec t op c = some (t', r)) :
    exec t.1 op c = some (t'.1, r) ∧ t'.2 = t.2 ++ [(op, c)] := by
  obtain ⟨⟨s₁, r₁⟩, hexec, heq⟩ := Option.map_eq_some_iff.mp h
  obtain ⟨rfl, rfl⟩ := Prod.mk.inj heq
  exact ⟨hexec, rfl⟩

/-- The log does not change the run. It begins with what has been logged
before, so that the induction goes through. -/
theorem run_traced (h : run exec p cs s = some (s', r)) (log : List (Op × κ)) :
    run (traced exec) p cs (s, log) = some ((s', log ++ trace exec p cs s), r) := by
  induction p generalizing cs s log with
  | done a =>
    obtain ⟨rfl, rfl, rfl⟩ := run_pure h
    exact congrArg (fun l => some ((s', l), _)) (List.append_nil log).symm
  | raise e =>
    obtain ⟨rfl, rfl, rfl⟩ := run_throw h
    exact congrArg (fun l => some ((s', l), _)) (List.append_nil log).symm
  | call op k ih =>
    obtain ⟨c, cs', s₁, r₁, rfl, hexec, hrest⟩ := run_call h
    have hstep : traced exec (s, log) op c = some ((s₁, log ++ [(op, c)]), r₁) := by
      unfold traced
      rw [hexec]
      rfl
    have htrace : trace exec (call op k) (c :: cs') s = (op, c) :: trace exec (k r₁) cs' s₁ := by
      rw [trace, hexec]
    rw [htrace, List.append_cons log (op, c)]
    exact Option.bind_eq_some_iff.mpr ⟨_, hstep, ih r₁ hrest _⟩

/-- What a program establishes of its run and of what it has called. -/
theorem wlp_trace {Q : α → σ × List (Op × κ) → Prop} {R : ε → σ × List (Op × κ) → Prop}
    (h : wlp (traced exec) p Q R (s, [])) (hrun : run exec p cs s = some (s', r)) :
    (∃ a, r = .ok a ∧ Q a (s', trace exec p cs s))
      ∨ ∃ e, r = .error e ∧ R e (s', trace exec p cs s) :=
  wlp_run h (run_traced hrun [])

end Trace

/-! ## Programs that are stopped

A process may end between any two operations. A run with fewer choices
than the program has operations is stopped there, and what it has done
until then is done. -/

/-- What is left of a program, and the state, when it is stopped after
some of its operations. A run that ends is one that is stopped at its
end. -/
def stopped (exec : σ → (op : Op) → κ → Option (σ × Except ε (Ret op))) :
    Program Ret ε α → List κ → σ → Option (Program Ret ε α × σ)
  | p, [], s => some (p, s)
  | call op k, c :: cs, s => (exec s op c).bind fun (s', r) => stopped exec (k r) cs s'
  | _, _ :: _, _ => none

section Stopped

variable {exec : σ → (op : Op) → κ → Option (σ × Except ε (Ret op))} {cs : List κ} {s s' : σ}
  {p p' : Program Ret ε α}

/-- A program that is stopped at its end has returned. So results about
stopped programs are results about complete ones, too. -/
theorem run_eq_some_iff_stopped {a : α} :
    run exec p cs s = some (s', .ok a) ↔ stopped exec p cs s = some (done a, s') := by
  induction p generalizing cs s with
  | done b =>
    cases cs with
    | nil => simp [run, stopped, and_comm]
    | cons c cs => simp [run, stopped]
  | raise e =>
    cases cs with
    | nil => simp [run, stopped]
    | cons c cs => simp [run, stopped]
  | call op k ih =>
    cases cs with
    | nil => simp [run, stopped]
    | cons c cs =>
      show ((exec s op c).bind fun out => run exec (k out.2) cs out.1) = _
        ↔ ((exec s op c).bind fun out => stopped exec (k out.2) cs out.1) = _
      cases exec s op c with
      | none => simp
      | some out => exact ih out.2

/-- The first operation has been performed, or nothing at all. There is
nothing between: an operation that has begun is performed as a whole. -/
theorem stopped_call {op : Op} {k : Except ε (Ret op) → Program Ret ε α}
    (h : stopped exec (call op k) cs s = some (p', s')) :
    (cs = [] ∧ p' = call op k ∧ s' = s)
      ∨ ∃ c cs' s₁ r, cs = c :: cs' ∧ exec s op c = some (s₁, r)
        ∧ stopped exec (k r) cs' s₁ = some (p', s') := by
  cases cs with
  | nil =>
    obtain ⟨rfl, rfl⟩ := Prod.mk.inj (Option.some.inj h)
    exact Or.inl ⟨rfl, rfl, rfl⟩
  | cons c cs =>
    obtain ⟨⟨s₁, r⟩, hexec, hrest⟩ := Option.bind_eq_some_iff.mp h
    exact Or.inr ⟨c, cs, s₁, r, rfl, hexec, hrest⟩

theorem stopped_done {a : α} (h : stopped exec (done a) cs s = some (p', s')) :
    cs = [] ∧ p' = done a ∧ s' = s := by
  cases cs with
  | nil =>
    obtain ⟨rfl, rfl⟩ := Prod.mk.inj (Option.some.inj h)
    exact ⟨rfl, rfl, rfl⟩
  | cons c cs => exact absurd h (by simp [stopped])

theorem stopped_raise {e : ε} (h : stopped exec (raise e) cs s = some (p', s')) :
    cs = [] ∧ p' = raise e ∧ s' = s := by
  cases cs with
  | nil =>
    obtain ⟨rfl, rfl⟩ := Prod.mk.inj (Option.some.inj h)
    exact ⟨rfl, rfl, rfl⟩
  | cons c cs => exact absurd h (by simp [stopped])

/-- A single operation, and what follows if it returns. If it raises, the
program has ended by itself, and nothing is left to be stopped. -/
theorem stopped_perform_bind {op : Op} {f : Ret op → Program Ret ε α}
    (h : stopped exec (perform op >>= f) cs s = some (p', s')) :
    (cs = [] ∧ s' = s)
      ∨ ∃ c cs', cs = c :: cs'
        ∧ ((∃ s₁ a, exec s op c = some (s₁, .ok a)
            ∧ stopped exec (f a) cs' s₁ = some (p', s'))
          ∨ ∃ e, exec s op c = some (s', .error e) ∧ cs' = []) := by
  obtain ⟨rfl, -, rfl⟩ | ⟨c, cs', s₁, r, rfl, hexec, hrest⟩ := stopped_call h
  · exact Or.inl ⟨rfl, rfl⟩
  · refine Or.inr ⟨c, cs', rfl, ?_⟩
    cases r with
    | ok a => exact Or.inl ⟨s₁, a, hexec, hrest⟩
    | error e =>
      obtain ⟨rfl, -, rfl⟩ := stopped_raise hrest
      exact Or.inr ⟨e, hexec, rfl⟩

end Stopped

end Program
