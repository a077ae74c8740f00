import Mathlib.Data.List.Count
import Mathlib.Order.Nat
import Mathlib.Tactic.SplitIfs

/-!
# Overlapping sections of a list

A long list is read in sections, and neighbouring sections overlap: the
first rows of a section may repeat the last rows of the one before.
Dropping from each section the rows that repeat its predecessor leaves
every row of the list, however far an overlap reaches – also when a
section is nothing but overlap, so that the row that survives was read
several sections earlier.

## How rows are counted

Rows are told apart by a key only, and a list may have several rows of one
key. So it does not do to say that a row survives; what is shown is that
for each key at least as many rows survive, up to each section, as the
section has (`countP_le`). A row that is lost then has a survivor of its
key in an earlier section (`exists_kept_of_lost`).

The induction is on the section. Within one section nothing is assumed
about repetitions, so a row that occurs twice in the list is kept twice.
-/

namespace Overlap

variable {α κ : Type*} [DecidableEq κ]

/-- The rows of one section. -/
def part (src : α → ℕ) (t : ℕ) (rows : List α) : List α :=
  rows.filter (fun r => src r = t)

/-- `kept` is what remains of `rows` when each section loses its first
`cut` rows, and these repeat, up to `key`, rows of the section before.
Nothing says that the rows before were kept: they may be repetitions
themselves. -/
structure Cuts (src : α → ℕ) (key : α → κ) (cut : ℕ → ℕ) (rows kept : List α) : Prop where
  cut_zero : cut 0 = 0
  kept_part : ∀ t, part src t kept = (part src t rows).drop (cut t)
  repeats : ∀ t, (((part src (t + 1) rows).take (cut (t + 1))).map key).Sublist
    ((part src t rows).map key)

namespace Cuts

variable {src : α → ℕ} {key : α → κ} {cut : ℕ → ℕ} {rows kept : List α}

omit [DecidableEq κ] in
theorem countP_part (p : α → Bool) (t : ℕ) (l : List α) :
    l.countP (fun r => p r && src r = t) = (part src t l).countP p := by
  unfold part
  rw [List.countP_filter]

omit [DecidableEq κ] in
theorem countP_le_succ (p : α → Bool) (s : ℕ) (l : List α) :
    l.countP (fun r => p r && src r ≤ s + 1)
      = l.countP (fun r => p r && src r ≤ s) + (part src (s + 1) l).countP p := by
  rw [← countP_part]
  induction l with
  | nil => rfl
  | cons r l ih =>
    rw [List.countP_cons, List.countP_cons, List.countP_cons, ih]
    cases p r with
    | false => simp
    | true =>
      simp only [Bool.true_and, decide_eq_true_eq]
      split_ifs <;> omega

/-- **No section loses a row**: up to and including a section, at least as
many rows with a key are kept as the section has. -/
theorem countP_le (h : Cuts src key cut rows kept) (k : κ) (s : ℕ) :
    (part src s rows).countP (fun r => key r = k)
      ≤ kept.countP (fun r => decide (key r = k) && decide (src r ≤ s)) := by
  induction s with
  | zero =>
    have hpart : part src 0 kept = part src 0 rows := by
      rw [h.kept_part, h.cut_zero, List.drop_zero]
    rw [← hpart, ← countP_part]
    refine List.countP_mono_left fun r _ hr => ?_
    simp only [Bool.and_eq_true, decide_eq_true_eq] at hr ⊢
    exact ⟨hr.1, hr.2.le⟩
  | succ s ih =>
    -- the rows that section `s + 1` loses are covered by section `s`
    have hlost : ((part src (s + 1) rows).take (cut (s + 1))).countP (fun r => key r = k)
        ≤ (part src s rows).countP (fun r => key r = k) := by
      have := (h.repeats s).countP_le (p := fun k' => decide (k' = k))
      rwa [List.countP_map, List.countP_map] at this
    have hkept : ((part src (s + 1) rows).drop (cut (s + 1))).countP (fun r => key r = k)
        = (part src (s + 1) kept).countP (fun r => key r = k) := by
      rw [h.kept_part]
    rw [countP_le_succ, ← List.take_append_drop (cut (s + 1)) (part src (s + 1) rows),
      List.countP_append, hkept]
    omega

/-- Every row has a kept row with its key, in its own section or an
earlier one. This is the count of `countP_le` for the key of the row,
which is not zero. -/
theorem exists_kept (h : Cuts src key cut rows kept) {r : α} (hr : r ∈ rows) :
    ∃ r' ∈ kept, key r' = key r ∧ src r' ≤ src r := by
  have hpos : 0 < (part src (src r) rows).countP (fun r' => key r' = key r) := by
    rw [List.countP_pos_iff]
    exact ⟨r, List.mem_filter.mpr ⟨hr, decide_eq_true rfl⟩, decide_eq_true rfl⟩
  obtain ⟨r', hr', hp⟩ := List.countP_pos_iff.mp (hpos.trans_le (h.countP_le (key r) (src r)))
  simp only [Bool.and_eq_true, decide_eq_true_eq] at hp
  exact ⟨r', hr', hp⟩

/-- **A lost row survives earlier**: a row that its section loses has a
kept row with its key in a strictly earlier section. -/
theorem exists_kept_of_lost (h : Cuts src key cut rows kept) {r : α} {t : ℕ}
    (hr : r ∈ (part src t rows).take (cut t)) :
    ∃ r' ∈ kept, key r' = key r ∧ src r' < t := by
  cases t with
  | zero =>
    rw [h.cut_zero, List.take_zero] at hr
    exact absurd hr List.not_mem_nil
  | succ t =>
    obtain ⟨q, hq, hkey⟩ := List.mem_map.mp
      ((h.repeats t).subset (List.mem_map_of_mem (f := key) hr))
    obtain ⟨hmem, hsrc⟩ := List.mem_filter.mp hq
    obtain ⟨r', hr', hk, hle⟩ := h.exists_kept hmem
    exact ⟨r', hr', hk.trans hkey, Nat.lt_succ_of_le (hle.trans_eq (of_decide_eq_true hsrc))⟩

end Cuts

end Overlap
