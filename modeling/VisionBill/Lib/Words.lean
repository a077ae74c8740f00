import Mathlib.Data.List.Basic
import Mathlib.Algebra.Order.Ring.Nat

/-!
# Words between separators

The words of a sequence are the maximal runs of symbols that are not
separators; joining them with one separator each forgets only how long the
gaps were. `words_join` is the fact everything else rests on: words
survive a join, so splitting and joining once more changes nothing.

## Normal forms

Collapsing a sequence (`collapse`) is joining its words. It is idempotent
(`collapse_collapse`), its result has no separator at either end
(`isSep_head_collapse`, `isSep_getLast_collapse`), and it is empty only if
there was nothing but separators. A text that is compared after it was
collapsed is thus compared by its words, and one that was collapsed before
it was stored is not changed by being collapsed again.

Nothing is said of how texts are written in any other respect: symbols are
equal or they are not, and which of them separate is a parameter. A
separator that is put in need not be the only one there is.
-/

namespace Words

variable {α : Type*}

/-- The maximal runs of symbols that are not separators. Separators at the
ends and next to each other make empty pieces, which are left out. -/
def words (isSep : α → Bool) (l : List α) : List (List α) :=
  (l.splitOnP isSep).filter (fun w => !w.isEmpty)

/-- Words with one separator between neighbours. -/
def join (sep : α) (ws : List (List α)) : List α :=
  List.intercalate [sep] ws

/-- Collapsing every gap to a single `sep`, and dropping those at the
ends. -/
def collapse (isSep : α → Bool) (sep : α) (l : List α) : List α :=
  join sep (words isSep l)

variable {isSep : α → Bool} {sep : α}

/-- A word: not empty, and without a separator. -/
def IsWord (isSep : α → Bool) (w : List α) : Prop :=
  w ≠ [] ∧ ∀ a ∈ w, isSep a = false

theorem forall_mem_splitOnP (isSep : α → Bool) (l : List α) :
    ∀ w ∈ l.splitOnP isSep, ∀ a ∈ w, isSep a = false := by
  induction l with
  | nil =>
    intro w hw a ha
    rw [List.splitOnP_nil, List.mem_singleton] at hw
    rw [hw] at ha
    exact absurd ha List.not_mem_nil
  | cons x l ih =>
    intro w hw a ha
    rw [List.splitOnP_cons_eq_if_modifyHead] at hw
    split at hw
    · rcases List.mem_cons.mp hw with rfl | hw
      · exact absurd ha List.not_mem_nil
      · exact ih w hw a ha
    · next hx =>
      obtain ⟨v, vs, hv⟩ := List.exists_cons_of_ne_nil (List.splitOnP_ne_nil isSep l)
      rw [hv, List.modifyHead_cons] at hw
      rw [hv] at ih
      rcases List.mem_cons.mp hw with rfl | hw
      · rcases List.mem_cons.mp ha with rfl | ha
        · exact Bool.eq_false_iff.mpr hx
        · exact ih v List.mem_cons_self a ha
      · exact ih w (List.mem_cons_of_mem v hw) a ha

/-- What `words` returns are words. -/
theorem isWord_of_mem_words {l w : List α} (hw : w ∈ words isSep l) : IsWord isSep w := by
  unfold words at hw
  rw [List.mem_filter] at hw
  refine ⟨?_, forall_mem_splitOnP isSep l w hw.1⟩
  rintro rfl
  simp at hw

/-- **Words survive a join.** A word has no separator inside, so the only
places where the joined sequence can be split again are those at which it
was joined. -/
theorem words_join (hsep : isSep sep = true) {ws : List (List α)}
    (hws : ∀ w ∈ ws, IsWord isSep w) : words isSep (join sep ws) = ws := by
  unfold words join
  induction ws with
  | nil => rfl
  | cons w ws ih =>
    obtain ⟨hne, hfree⟩ := hws w List.mem_cons_self
    have hrest := ih (fun v hv => hws v (List.mem_cons_of_mem w hv))
    have hkeep : (!w.isEmpty) = true := by simpa using hne
    cases ws with
    | nil =>
      rw [List.intercalate_singleton, List.splitOnP_eq_singleton hfree]
      rw [List.filter_cons, if_pos hkeep, List.filter_nil]
    | cons v vs =>
      rw [List.intercalate_cons_cons, List.append_assoc, List.singleton_append,
        List.splitOnP_append_cons_of_forall_mem hfree sep hsep,
        List.filter_cons, if_pos hkeep, hrest]

/-- Collapsing a second time changes nothing: it is joining the words, and
these survive a join. -/
theorem collapse_collapse (hsep : isSep sep = true) (l : List α) :
    collapse isSep sep (collapse isSep sep l) = collapse isSep sep l := by
  unfold collapse
  rw [words_join hsep (fun _ => isWord_of_mem_words)]

theorem words_eq_nil_iff {l : List α} : words isSep l = [] ↔ ∀ a ∈ l, isSep a = true := by
  unfold words
  induction l with
  | nil => simp
  | cons x l ih =>
    rw [List.splitOnP_cons_eq_if_modifyHead, List.forall_mem_cons]
    split
    · next hx =>
      rw [List.filter_cons, if_neg (by simp), ih, and_iff_right hx]
    · next hx =>
      -- a symbol that is no separator starts a word
      obtain ⟨v, vs, hv⟩ := List.exists_cons_of_ne_nil (List.splitOnP_ne_nil isSep l)
      rw [hv, List.modifyHead_cons, List.filter_cons, if_pos (by simp)]
      simp [hx]

/-- Only separators collapse to nothing. -/
theorem collapse_eq_nil_iff {l : List α} :
    collapse isSep sep l = [] ↔ ∀ a ∈ l, isSep a = true := by
  rw [← words_eq_nil_iff]
  unfold collapse join
  rcases hws : words isSep l with _ | ⟨w, ws⟩
  · simp
  · have hw : w ≠ [] := (isWord_of_mem_words (hws ▸ List.mem_cons_self)).1
    cases ws <;> simp [List.intercalate_cons_cons, hw]

/-- A collapsed sequence starts with a symbol of its first word. Words are
not empty, so no separator can be in front. -/
theorem isSep_head_collapse {l : List α} {a : α}
    (ha : (collapse isSep sep l).head? = some a) : isSep a = false := by
  unfold collapse join at ha
  rcases hws : words isSep l with _ | ⟨w, ws⟩
  · rw [hws] at ha
    exact absurd ha (by simp)
  · have hw : IsWord isSep w := isWord_of_mem_words (hws ▸ List.mem_cons_self)
    obtain ⟨b, w', rfl⟩ := List.exists_cons_of_ne_nil hw.1
    have hab : a = b := by
      rw [hws] at ha
      cases ws <;> simpa [List.intercalate_cons_cons, eq_comm] using ha
    rw [hab]
    exact hw.2 b List.mem_cons_self

/-- A collapsed sequence ends with a symbol of its last word. Separators
are only put between two words. -/
theorem isSep_getLast_collapse {l : List α} {a : α}
    (ha : (collapse isSep sep l).getLast? = some a) : isSep a = false := by
  unfold collapse at ha
  have hall : ∀ w ∈ words isSep l, IsWord isSep w := fun _ => isWord_of_mem_words
  generalize words isSep l = ws at ha hall
  unfold join at ha
  induction ws with
  | nil => exact absurd ha (by simp)
  | cons w ws ih =>
    cases ws with
    | nil =>
      rw [List.intercalate_singleton] at ha
      exact (hall w List.mem_cons_self).2 a (List.mem_of_getLast? ha)
    | cons v vs =>
      have hne : List.intercalate [sep] (v :: vs) ≠ [] := by
        have hv := (hall v (by simp)).1
        cases vs <;> simp [List.intercalate_cons_cons, hv]
      rw [List.intercalate_cons_cons, List.getLast?_append_of_ne_nil _ hne] at ha
      exact ih ha (fun u hu => hall u (List.mem_cons_of_mem w hu))

/-! ## Lengths -/

/-- The pieces between separators and the separators are the whole
sequence. There is one piece more than there are separators. -/
theorem length_splitOnP (isSep : α → Bool) (l : List α) :
    ((l.splitOnP isSep).map List.length).sum + (l.splitOnP isSep).length = l.length + 1 := by
  induction l with
  | nil => simp
  | cons x l ih =>
    rw [List.splitOnP_cons_eq_if_modifyHead]
    split
    · rw [List.map_cons, List.sum_cons, List.length_nil, List.length_cons, List.length_cons]
      omega
    · obtain ⟨v, vs, hv⟩ := List.exists_cons_of_ne_nil (List.splitOnP_ne_nil isSep l)
      rw [hv] at ih ⊢
      simp only [List.modifyHead_cons, List.map_cons, List.sum_cons, List.length_cons] at ih ⊢
      omega

/-- Joined words with the separators between them: each word but the first
has one before it. -/
theorem length_join {w : List α} {ws : List (List α)} :
    (join sep (w :: ws)).length + 1
      = ((w :: ws).map List.length).sum + (w :: ws).length := by
  unfold join
  induction ws generalizing w with
  | nil => simp
  | cons v vs ih =>
    rw [List.intercalate_cons_cons, List.length_append, List.length_append, List.map_cons,
      List.sum_cons, List.length_cons (a := w)]
    have hv := @ih v
    rw [List.length_singleton]
    omega

/-- A collapsed sequence is not longer. Between any two words there was at
least one separator, and one is put there. -/
theorem length_collapse_le (l : List α) : (collapse isSep sep l).length ≤ l.length := by
  have hsplit := length_splitOnP isSep l
  have hfilter : ∀ ls : List (List α),
      ((ls.filter fun w => !w.isEmpty).map List.length).sum
        + (ls.filter fun w => !w.isEmpty).length ≤ (ls.map List.length).sum + ls.length := by
    intro ls
    induction ls with
    | nil => exact Nat.le_refl _
    | cons w ls ih =>
      rw [List.filter_cons]
      split <;> simp only [List.map_cons, List.sum_cons, List.length_cons] at ih ⊢ <;> omega
  have hwords := hfilter (l.splitOnP isSep)
  unfold collapse
  change ((words isSep l).map List.length).sum + (words isSep l).length ≤ _ at hwords
  cases hws : words isSep l with
  | nil => exact Nat.zero_le _
  | cons w ws =>
    rw [hws] at hwords
    have hjoin := @length_join _ sep w ws
    omega

end Words
