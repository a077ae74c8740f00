import Mathlib.Data.List.Basic

/-!
# Runs of a transition system

A system takes one action at a time; an action that is not possible in a
state, or that fails without effect, is `none`. Nothing is said about
which action is taken, so that a result about all runs is one about all
orders of events.

A run may be restricted to steps that meet a guard, which is how a result
says *under which steps* an invariant survives. The guard looks at the
state before the step and at the action, never at what the step does.
`Run.invariant` is the induction over such runs, and the only induction
that a system needs.

`Run.exec` turns the execution of a concrete list of actions into a run,
so that a state which is reached can be computed instead of described.
-/

namespace Transition

variable {σ α : Type*} {step : σ → α → Option σ} {guard : σ → α → Prop} {init s s' : σ}

/-- The states reached from `init` by steps that all meet the guard. A
longer run extends a shorter one at its end, which is the direction in
which an invariant is carried. -/
inductive Run (step : σ → α → Option σ) (guard : σ → α → Prop) (init : σ) : σ → Prop
  | start : Run step guard init init
  | next {s s' : σ} (a : α) (run : Run step guard init s) (hguard : guard s a)
      (hstep : step s a = some s') : Run step guard init s'

/-- A run whose steps meet no condition. -/
abbrev Reachable (step : σ → α → Option σ) (init : σ) : σ → Prop :=
  Run step (fun _ _ => True) init

/-- **The invariant rule**: what holds at the start and survives every
guarded step holds in every state of a guarded run. The step is given with
its guard and with the invariant of the state before it, and with nothing
else of the past. -/
theorem Run.invariant {Inv : σ → Prop} (hinit : Inv init)
    (hstep : ∀ s a s', Inv s → guard s a → step s a = some s' → Inv s')
    (run : Run step guard init s) : Inv s := by
  induction run with
  | start => exact hinit
  | next a _ hguard hs ih => exact hstep _ a _ ih hguard hs

/-- A run stays a run when its guard is weakened. So what is known of all
runs is known of the guarded ones. -/
theorem Run.mono {guard' : σ → α → Prop} (h : ∀ s a, guard s a → guard' s a)
    (run : Run step guard init s) : Run step guard' init s := by
  induction run with
  | start => exact .start
  | next a _ hguard hs ih => exact .next a ih (h _ a hguard) hs

/-- The state after a list of actions, if each is possible and meets the
guard. -/
def exec (step : σ → α → Option σ) (guard : σ → α → Prop) [∀ s a, Decidable (guard s a)] :
    σ → List α → Option σ
  | s, [] => some s
  | s, a :: as => if guard s a then (step s a).bind fun s' => exec step guard s' as else none

/-- Executing a list of actions extends a run. Concrete runs are made with
this: the list is evaluated, and the run is its consequence. -/
theorem Run.exec [∀ s a, Decidable (guard s a)] {as : List α} (run : Run step guard init s)
    (h : Transition.exec step guard s as = some s') : Run step guard init s' := by
  induction as generalizing s with
  | nil =>
    obtain rfl := Option.some.inj h
    exact run
  | cons a as ih =>
    unfold Transition.exec at h
    split at h
    · next hguard =>
      obtain ⟨t, ht, hrest⟩ := Option.bind_eq_some_iff.mp h
      exact ih (.next a run hguard ht) hrest
    · exact absurd h (by simp)

/-- A state that a list of actions reaches, with what can be checked of
it. -/
theorem Run.of_exec [∀ s a, Decidable (guard s a)] {p : σ → Prop} [DecidablePred p] (as : List α)
    (h : (Transition.exec step guard init as).any (fun s => p s) = true) :
    ∃ s, Run step guard init s ∧ p s := by
  obtain ⟨s, hs, hp⟩ := (Option.any_eq_true _ _).mp h
  exact ⟨s, Run.start.exec hs, of_decide_eq_true hp⟩

end Transition
