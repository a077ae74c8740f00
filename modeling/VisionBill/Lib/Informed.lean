import VisionBill.Lib.Concurrent
import Mathlib.Data.Set.Insert

/-!
# What programs have been told

Some operations may only be called by those who know something – that two
rows belong together, say – and the answers of others tell it. Whether a
program knows what it needs whenever it calls an operation is a matter of
its text (`Program.Informed`), and not of the states that it meets.

That separates two questions. Going through a program says which answers
it has got before each call; and what the answers of an operation are
worth is said once for each operation. If what was true once stays true,
and every operation that is called by those who may keeps a discipline and
tells the truth, then every informed program keeps the discipline
(`Discipline.wp_of_informed`).

The rules follow the text of a program, as those of `Discipline.wp` do.
-/

variable {Op : Type} {Ret : Op → Type} {ε α β σ κ Fact : Type}

/-- What operations need to be known, and what their answers tell. Facts
are of any kind; what they say of a state is chosen where the knowledge is
used. -/
structure Knowledge {Op : Type} (Ret : Op → Type) (Fact : Type) where
  needs : Op → Set Fact
  tells : (op : Op) → Ret op → Set Fact
  /-- The answers that there can be. -/
  Answers : (op : Op) → Ret op → Prop

namespace Knowledge

variable (K : Knowledge Ret Fact)

/-- What is known after an operation. -/
def learn (known : Set Fact) (op : Op) : Except ε (Ret op) → Set Fact
  | .ok a => known ∪ K.tells op a
  | .error _ => known

theorem subset_learn (known : Set Fact) (op : Op) (r : Except ε (Ret op)) :
    known ⊆ K.learn known op r := by
  cases r with
  | ok a => exact Set.subset_union_left
  | error e => exact subset_rfl

end Knowledge

namespace Program

variable (K : Knowledge Ret Fact)

/-- **An informed program**: it knows what its operations need, and at its
end one of the postconditions holds of what it knows. What is known only
grows: an exception tells nothing, but takes nothing away. -/
def Informed : Program Ret ε α → (α → Set Fact → Prop) → (ε → Set Fact → Prop) → Set Fact → Prop
  | .done a, Q, _, known => Q a known
  | .raise e, _, R, known => R e known
  | .call op k, Q, R, known => K.needs op ⊆ known
    ∧ ∀ r, (∀ a, r = .ok a → K.Answers op a) → Informed (k r) Q R (K.learn known op r)

variable {K}

theorem informed_mono {p : Program Ret ε α} {Q Q' : α → Set Fact → Prop}
    {R R' : ε → Set Fact → Prop} {known : Set Fact} (h : p.Informed K Q R known)
    (hQ : ∀ a known, Q a known → Q' a known) (hR : ∀ e known, R e known → R' e known) :
    p.Informed K Q' R' known := by
  induction p generalizing known with
  | done a => exact hQ a known h
  | raise e => exact hR e known h
  | call op k ih => exact ⟨h.1, fun r hr => ih r (h.2 r hr)⟩

/-- One program after another. -/
theorem informed_bind {p : Program Ret ε α} {f : α → Program Ret ε β} {Q : β → Set Fact → Prop}
    {R : ε → Set Fact → Prop} {known : Set Fact} :
    (p >>= f).Informed K Q R known
      ↔ p.Informed K (fun a known => (f a).Informed K Q R known) R known := by
  induction p generalizing known with
  | done a => exact Iff.rfl
  | raise e => exact Iff.rfl
  | call op k ih =>
    exact and_congr_right fun _ => forall_congr' fun r => imp_congr_right fun _ => ih r

/-- A program and its handler. -/
theorem informed_handle {p : Program Ret ε α} {h : ε → Program Ret ε α}
    {Q : α → Set Fact → Prop} {R : ε → Set Fact → Prop} {known : Set Fact} :
    (tryCatch p h).Informed K Q R known
      ↔ p.Informed K Q (fun e known => (h e).Informed K Q R known) known := by
  induction p generalizing known with
  | done a => exact Iff.rfl
  | raise e => exact Iff.rfl
  | call op k ih =>
    exact and_congr_right fun _ => forall_congr' fun r => imp_congr_right fun _ => ih r

/-- A single operation. -/
theorem informed_perform {op : Op} {Q : Ret op → Set Fact → Prop} {R : ε → Set Fact → Prop}
    {known : Set Fact} (hneeds : K.needs op ⊆ known)
    (hQ : ∀ a, K.Answers op a → Q a (known ∪ K.tells op a)) (hR : ∀ e, R e known) :
    (perform op : Program Ret ε (Ret op)).Informed K Q R known := by
  refine ⟨hneeds, fun r hr => ?_⟩
  cases r with
  | ok a => exact hQ a (hr a rfl)
  | error e => exact hR e

/-- A program whose operations need nothing forgets nothing. -/
theorem informed_of_calls {p : Program Ret ε α} (hcalls : p.Calls fun op => K.needs op = ∅)
    {facts known : Set Fact} (h : facts ⊆ known) :
    p.Informed K (fun _ known => facts ⊆ known) (fun _ known => facts ⊆ known) known := by
  induction p generalizing known with
  | done a => exact h
  | raise e => exact h
  | call op k ih =>
    refine ⟨?_, fun r _ => ih r (hcalls.2 r) (h.trans (K.subset_learn known op r))⟩
    rw [hcalls.1]
    exact Set.empty_subset known

end Program

/-- **An informed program keeps a discipline** if what it may know stays
true, and if every operation of which all is true that it needs keeps the
discipline and tells the truth. The first premise is about the steps of
others, and the second one about those of the program. -/
theorem Discipline.wp_of_informed {D : Discipline Ret ε σ κ} {K : Knowledge Ret Fact}
    (Holds : σ → Fact → Prop) {t : ℕ}
    (hrely : ∀ s s', D.Rely t s s' → ∀ f, Holds s f → Holds s' f)
    (hstep : ∀ op s c s' r, D.Inv s → D.guard t s op c → (∀ f ∈ K.needs op, Holds s f) →
      D.exec t s op c = some (s', r) → D.Keeps t s op s' ∧ (∀ f, Holds s f → Holds s' f)
        ∧ ∀ a, r = .ok a → K.Answers op a ∧ ∀ f ∈ K.tells op a, Holds s' f)
    {p : Program Ret ε α} {Q : α → Set Fact → Prop} {R : ε → Set Fact → Prop} {known : Set Fact}
    (hp : p.Informed K Q R known) {s : σ} (hknown : ∀ f ∈ known, Holds s f) :
    D.wp t p (fun _ _ => True) (fun _ _ => True) s := by
  induction p generalizing known s with
  | done a => trivial
  | raise e => trivial
  | call op k ih =>
    intro s₁ hs₁ hinv c r s₂ hguard hexec
    have hknown₁ : ∀ f ∈ known, Holds s₁ f := fun f hf => hrely s s₁ hs₁ f (hknown f hf)
    obtain ⟨hkeeps, hstays, htells⟩ :=
      hstep op s₁ c s₂ r hinv hguard (fun f hf => hknown₁ f (hp.1 hf)) hexec
    refine ⟨hkeeps, ih r (hp.2 r fun a ha => (htells a ha).1) fun f hf => ?_⟩
    cases r with
    | error e => exact hstays f (hknown₁ f hf)
    | ok a =>
      rcases hf with hf | hf
      · exact hstays f (hknown₁ f hf)
      · exact (htells a rfl).2 f hf
