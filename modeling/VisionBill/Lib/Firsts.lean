import Mathlib.Data.List.Pairwise
import Mathlib.Data.List.Enum
import Mathlib.Data.List.Nodup

/-!
# First occurrences

What is left of a sequence when every element goes that has the key of an
earlier one. The definition looks each element's predecessors up; a loop
keeps a set of the keys seen so far instead, and `firsts_cons` is what
relates the two.

Whatever is left has its key to itself (`pairwise_firsts`), is left in its
order (`firsts_sublist`), and every key is left once
(`existsUnique_mem_firsts`): so removing what has been seen loses no key
and keeps none twice, whatever the key is a function of.
-/

namespace Occurrences

variable {α β : Type*} [DecidableEq β] {key : α → β}

/-- The elements whose key no earlier element has, in their order. Of
several elements with one key the first one stays, as in a loop that skips
what it has seen. -/
def firsts (key : α → β) (l : List α) : List α :=
  (l.zipIdx.filter fun p => key p.1 ∉ (l.take p.2).map key).map Prod.fst

@[simp] theorem firsts_nil : firsts key [] = [] := rfl

/-- The first element stays, and takes its key from the others. This is
the step of a loop over the sequence: the keys that have been seen are
those of the elements that were kept. -/
theorem firsts_cons (a : α) (l : List α) :
    firsts key (a :: l) = a :: (firsts key l).filter fun b => key b ≠ key a := by
  have htake : ∀ p : α × ℕ, (key p.1 ∉ ((a :: l).take (p.2 + 1)).map key)
      ↔ key p.1 ≠ key a ∧ key p.1 ∉ (l.take p.2).map key := by
    intro p
    rw [List.take_succ_cons, List.map_cons, List.mem_cons, not_or]
  unfold firsts
  rw [List.zipIdx_cons, List.filter_cons, if_pos (by simp), List.map_cons, List.zipIdx_succ,
    List.filter_map, List.map_map, List.filter_map, List.filter_filter]
  refine congrArg (a :: List.map Prod.fst ·) (List.filter_congr fun p _ => ?_)
  change decide (key p.1 ∉ ((a :: l).take (p.2 + 1)).map key) = _
  rw [decide_eq_decide.mpr (htake p), Bool.decide_and]
  rfl

/-- What is left is left in its order. -/
theorem firsts_sublist (key : α → β) (l : List α) : (firsts key l).Sublist l := by
  unfold firsts
  have h := (List.filter_sublist (l := l.zipIdx)
    (p := fun p => decide (key p.1 ∉ (l.take p.2).map key))).map Prod.fst
  rwa [List.zipIdx_map_fst] at h

/-- **Keys are distinct** among what is left. -/
theorem pairwise_firsts (key : α → β) (l : List α) :
    (firsts key l).Pairwise fun a b => key a ≠ key b := by
  induction l with
  | nil => exact List.Pairwise.nil
  | cons a l ih =>
    rw [firsts_cons, List.pairwise_cons]
    refine ⟨fun b hb => ?_, ih.filter _⟩
    have hne := (List.mem_filter.mp hb).2
    exact fun heq => of_decide_eq_true hne heq.symm

/-- No key is lost. The element that is left for a key need not be the one
that is given, but it comes no later. -/
theorem exists_mem_firsts {l : List α} {a : α} (ha : a ∈ l) :
    ∃ b ∈ firsts key l, key b = key a := by
  induction l with
  | nil => exact absurd ha List.not_mem_nil
  | cons c l ih =>
    rw [firsts_cons]
    by_cases hkey : key a = key c
    · exact ⟨c, List.mem_cons_self, hkey.symm⟩
    · obtain ⟨b, hb, hba⟩ := ih ((List.mem_cons.mp ha).resolve_left fun h => hkey (h ▸ rfl))
      refine ⟨b, List.mem_cons_of_mem _ (List.mem_filter.mpr ⟨hb, ?_⟩), hba⟩
      rw [hba]
      exact decide_eq_true hkey

omit [DecidableEq β] in
/-- Where keys are distinct, an element is given by its key. -/
theorem eq_of_pairwise_key_ne {l : List α} (h : l.Pairwise fun a b => key a ≠ key b) {a b : α}
    (ha : a ∈ l) (hb : b ∈ l) (hkey : key a = key b) : a = b := by
  have : Std.Symm fun a b : α => key a ≠ key b := ⟨fun _ _ => Ne.symm⟩
  by_contra hne
  exact h.forall ha hb hne hkey

/-- **Every key is left once.** -/
theorem existsUnique_mem_firsts {l : List α} {a : α} (ha : a ∈ l) :
    ∃! b, b ∈ firsts key l ∧ key b = key a := by
  obtain ⟨b, hb, hba⟩ : ∃ b ∈ firsts key l, key b = key a := exists_mem_firsts ha
  refine ⟨b, ⟨hb, hba⟩, fun c hc => ?_⟩
  exact eq_of_pairwise_key_ne (pairwise_firsts key l) hc.1 hb (hc.2.trans hba.symm)

end Occurrences
