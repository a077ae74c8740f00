import VisionBill.Reconciliation
import Mathlib.Data.List.Sort

/-!
# Which overlaps are accepted

The model proposes its pairs of repeated rows in any order. `reconciled`
accepts them exactly if the pairs of each photo are its last rows against
the first rows of the next photo, for some number of rows; it does not
matter in which order they come. This is so as long as no verification
raises: a pair whose totals differ by more than a decimal of the default
context can hold makes `verify_duplicate` raise `decimal.Overflow`, which
is not a `ValueError`. Whether that is reached depends on the order in
which the photos are met.

## From pairs to overlaps

The code does three things with the pairs: it groups them by the photo of
their first row, refuses a pair whose rows are not in a photo and the next
one, and compares each group, sorted, with the pairs that an overlap of
that many rows would have. What the pairs should be is said without any of
this: the pairs of a photo are its last `c` rows against the first `c` of
the next, each once (`IsOverlap`). Since a list of pairs has one sorted
arrangement, the comparison of the code decides it
(`exists_isOverlap_iff`).

## When an error escapes

The groups are checked in the order in which the candidates meet their
photos, and a group that is refused ends the loop. So an error escapes
exactly if the first group that does not pass is one whose verification
raises (`removedRows_escapes_iff`), and putting the candidates in another
order may turn it into a refusal. That is why the condition of the result
asks that no group raises at all (`acceptsExactly_iff`): under any other,
some order would give another outcome.
-/

namespace VisionBill

/-- The `ValueError`s, of which a `ValidationError` is one. The decimal
exceptions are `ArithmeticError`s, and an `IndexError` is a
`LookupError`. -/
def PyError.IsValueError : PyError → Prop
  | .valueError _ => True
  | .validationError _ => True
  | .indexError => False
  | .overflow => False
  | .invalidOperation => False

/-! ## What a verification raises

It computes differences and compares them, and so raises what decimal
arithmetic raises. Nothing is raised for rows with different names, since
these are compared first. -/

namespace Decimal

/-- Rounding to the context raises nothing but `Overflow`. -/
theorem fix_raises {x : ℚ} {e : PyError} (h : fix x = .error e) : e = .overflow := by
  unfold fix at h
  dsimp only at h
  split at h
  · exact (Except.error.inj h).symm
  · exact absurd h (by simp)

theorem add_raises {a b : PyDecimal} {e : PyError} (h : add a b = .error e) :
    ¬ e.IsValueError := by
  unfold add at h
  split at h
  · exact absurd h (by simp)
  · exact absurd h (by simp)
  · rw [fix_raises h]
    exact id
  · split at h
    · exact absurd h (by simp)
    · rw [← Except.error.inj h]
      exact id
  · exact absurd h (by simp)
  · exact absurd h (by simp)

theorem abs_raises {a : PyDecimal} {e : PyError} (h : abs a = .error e) : ¬ e.IsValueError := by
  cases a with
  | finite x =>
    rw [fix_raises h]
    exact id
  | inf negative => exact absurd h (by simp [abs])
  | nan => exact absurd h (by simp [abs])

theorem le_raises {a b : PyDecimal} {e : PyError} (h : le a b = .error e) :
    ¬ e.IsValueError := by
  unfold le at h
  split at h
  · rw [← Except.error.inj h]
    exact id
  · rw [← Except.error.inj h]
    exact id
  all_goals exact absurd h (by simp)

/-- What a comparison of a distance raises is no `ValueError`. So it is
not one of the errors that are fed back to the model. -/
theorem absDiffLe_raises {a b tolerance : PyDecimal} {e : PyError}
    (h : absDiffLe a b tolerance = .error e) : ¬ e.IsValueError := by
  unfold absDiffLe at h
  rcases hsub : sub a b with e' | difference
  · rw [hsub] at h
    obtain rfl := Except.error.inj h
    exact add_raises hsub
  · rw [hsub] at h
    change (abs difference >>= fun distance => le distance tolerance) = .error e at h
    rcases habs : abs difference with e' | distance
    · rw [habs] at h
      obtain rfl := Except.error.inj h
      exact abs_raises habs
    · rw [habs] at h
      exact le_raises h

end Decimal

/-! ## Sorted pairs

The pairs of a group are sorted before they are checked. So the order in
which the model has named them does not matter. -/

theorem tupleLe_iff {p q : ℕ × ℕ} :
    tupleLe p q = true ↔ p.1 < q.1 ∨ p.1 = q.1 ∧ p.2 ≤ q.2 := by
  unfold tupleLe
  simp

theorem tupleLe_trans (p q r : ℕ × ℕ) (hpq : tupleLe p q = true) (hqr : tupleLe q r = true) :
    tupleLe p r = true := by
  rw [tupleLe_iff] at hpq hqr ⊢
  omega

theorem tupleLe_total (p q : ℕ × ℕ) : (tupleLe p q || tupleLe q p) = true := by
  rw [Bool.or_eq_true, tupleLe_iff, tupleLe_iff]
  omega

theorem tupleLe_antisymm {p q : ℕ × ℕ} (hpq : tupleLe p q = true) (hqp : tupleLe q p = true) :
    p = q := by
  rw [tupleLe_iff] at hpq hqp
  exact Prod.ext (by omega) (by omega)

/-- A list of pairs has one sorted arrangement. So it does not matter in
which order the model has given them. -/
theorem mergeSort_eq_of_perm {l l' : List (ℕ × ℕ)} (h : l.Perm l')
    (hl' : l'.Pairwise (fun p q => tupleLe p q = true)) : l.mergeSort tupleLe = l' :=
  ((List.mergeSort_perm l tupleLe).trans h).eq_of_pairwise
    (fun _ _ _ _ => tupleLe_antisymm) (List.pairwise_mergeSort tupleLe_trans tupleLe_total l) hl'

theorem pairwise_positions (sources : List ℕ) (s : ℕ) :
    (positions sources s).Pairwise (· < ·) := by
  have hall : (sources.zipIdx.map Prod.snd).Pairwise (· < ·) := by
    rw [List.zipIdx_map_snd]
    exact List.pairwise_lt_range'
  exact hall.sublist (List.filter_sublist.map Prod.snd)

/-- Pairs are sorted if their first components increase. -/
theorem pairwise_zip {l l' : List ℕ} (hl : l.Pairwise (· < ·)) :
    (l.zip l').Pairwise (fun p q => tupleLe p q = true) := by
  induction l generalizing l' with
  | nil => exact List.Pairwise.nil
  | cons a l ih =>
    cases l' with
    | nil => exact List.Pairwise.nil
    | cons b l' =>
      rw [List.pairwise_cons] at hl
      rw [List.zip_cons_cons, List.pairwise_cons]
      refine ⟨fun p hp => tupleLe_iff.mpr (.inl (hl.1 p.1 (List.of_mem_zip hp).1)), ih hl.2⟩

theorem pairwise_expectedPairs (sources : List ℕ) (s c : ℕ) :
    (expectedPairs sources s c).Pairwise (fun p q => tupleLe p q = true) :=
  pairwise_zip ((pairwise_positions sources s).sublist (List.drop_sublist _ _))

theorem mem_positions {sources : List ℕ} {s i : ℕ} :
    i ∈ positions sources s ↔ sources[i]? = some s := by
  unfold positions
  rw [List.mem_map]
  constructor
  · rintro ⟨⟨t, j⟩, hmem, rfl⟩
    obtain ⟨hzip, ht⟩ := List.mem_filter.mp hmem
    rw [← of_decide_eq_true ht]
    exact List.mem_zipIdx_iff_getElem?.mp hzip
  · intro h
    exact ⟨(s, i), List.mem_filter.mpr
      ⟨List.mem_zipIdx_iff_getElem?.mpr h, decide_eq_true rfl⟩, rfl⟩

theorem length_expectedPairs {sources : List ℕ} {s c : ℕ}
    (hl : c ≤ (positions sources s).length) (hr : c ≤ (positions sources (s + 1)).length) :
    (expectedPairs sources s c).length = c := by
  unfold expectedPairs lastN
  rw [List.length_zip, List.length_drop, List.length_take]
  omega

/-! ## Grouping

Pairs are collected by the photos of their rows. A pair whose rows do not
exist, or whose photos are not neighbours, ends the reconciliation. -/

/-- A candidate is sorted into its group, or refused with a `ValueError`.
Which of the two happens is decided by the candidate and the photos of its
rows. -/
theorem groupCandidate_cases (sources : List ℕ) (groups : Groups) (d : DuplicateCandidate) :
    ((d.firstIndex < d.secondIndex ∧ d.secondIndex < sources.length)
        ∧ sources.getD d.secondIndex 0 = sources.getD d.firstIndex 0 + 1
        ∧ groupCandidate sources groups d
          = .ok (groups.append (sources.getD d.firstIndex 0) (d.firstIndex, d.secondIndex)))
      ∨ (¬ ((d.firstIndex < d.secondIndex ∧ d.secondIndex < sources.length)
          ∧ sources.getD d.secondIndex 0 = sources.getD d.firstIndex 0 + 1)
        ∧ ∃ text, groupCandidate sources groups d = .error (.valueError text)) := by
  unfold groupCandidate
  dsimp only
  split
  · next hrange => exact .inr ⟨fun h => hrange h.1, _, rfl⟩
  · next hrange =>
    split
    · next hadjacent => exact .inr ⟨fun h => hadjacent h.2, _, rfl⟩
    · next hadjacent => exact .inl ⟨not_not.mp hrange, not_not.mp hadjacent, rfl⟩

/-- The loop over the candidates passes exactly if every one has the
indices it should have; else it is refused with a `ValueError`. -/
theorem foldlM_groupCandidate (sources : List ℕ) (candidates : List DuplicateCandidate)
    (groups : Groups) :
    ((∀ d ∈ candidates, (d.firstIndex < d.secondIndex ∧ d.secondIndex < sources.length)
        ∧ sources.getD d.secondIndex 0 = sources.getD d.firstIndex 0 + 1)
        ∧ ∃ groups', candidates.foldlM (groupCandidate sources) groups = .ok groups')
      ∨ (¬ (∀ d ∈ candidates, (d.firstIndex < d.secondIndex ∧ d.secondIndex < sources.length)
          ∧ sources.getD d.secondIndex 0 = sources.getD d.firstIndex 0 + 1)
        ∧ ∃ text,
          candidates.foldlM (groupCandidate sources) groups = .error (.valueError text)) := by
  induction candidates generalizing groups with
  | nil => exact .inl ⟨fun d hd => absurd hd List.not_mem_nil, groups, rfl⟩
  | cons d candidates ih =>
    rw [List.foldlM_cons]
    obtain ⟨hrange, hadjacent, hok⟩ | ⟨hnot, text, herror⟩ :=
      groupCandidate_cases sources groups d
    · rw [hok]
      obtain ⟨hall, groups', hgroups'⟩ | ⟨hnot, herror⟩ := ih (groups.append _ _)
      · exact .inl ⟨List.forall_mem_cons.mpr ⟨⟨hrange, hadjacent⟩, hall⟩, groups', hgroups'⟩
      · exact .inr ⟨fun h => hnot (List.forall_mem_cons.mp h).2, herror⟩
    · rw [herror]
      exact .inr ⟨fun h => hnot (List.forall_mem_cons.mp h).1, text, rfl⟩

/-! ## The order of the groups

Groups are checked in the order in which their first pair was named. That
matters for which error is raised if there are several. -/

theorem Groups.prefix_append (source : ℕ) (pair : ℕ × ℕ) (groups : Groups) :
    groups.map Prod.fst <+: (groups.append source pair).map Prod.fst := by
  rw [Groups.map_fst_append]
  split
  · exact List.prefix_rfl
  · exact List.prefix_append _ _

theorem Groups.prefix_foldlM {sources : List ℕ} {candidates : List DuplicateCandidate}
    {groups groups' : Groups}
    (h : candidates.foldlM (groupCandidate sources) groups = .ok groups') :
    groups.map Prod.fst <+: groups'.map Prod.fst := by
  induction candidates generalizing groups with
  | nil =>
    obtain rfl := Except.ok.inj h
    exact List.prefix_rfl
  | cons d candidates ih =>
    rw [List.foldlM_cons] at h
    obtain ⟨-, -, hok⟩ | ⟨-, text, herror⟩ := groupCandidate_cases sources groups d
    · rw [hok] at h
      exact (Groups.prefix_append _ _ groups).trans (ih h)
    · rw [herror] at h
      exact absurd h (by simp [bind, Except.bind])

/-- The photos that have a group are those of the candidates. The
candidates before are generalised, since the groups of the loop are
theirs. -/
theorem Collects.mem_keys {sources : List ℕ} {processed : List DuplicateCandidate}
    {groups groups' : Groups} {candidates : List DuplicateCandidate}
    (hkeys : ∀ t, t ∈ groups.map Prod.fst
      ↔ ∃ d ∈ processed, sources.getD d.firstIndex 0 = t)
    (h : candidates.foldlM (groupCandidate sources) groups = .ok groups') (t : ℕ) :
    t ∈ groups'.map Prod.fst ↔ ∃ d ∈ processed ++ candidates, sources.getD d.firstIndex 0 = t := by
  induction candidates generalizing processed groups with
  | nil =>
    obtain rfl := Except.ok.inj h
    rw [List.append_nil, hkeys]
  | cons d candidates ih =>
    rw [List.foldlM_cons] at h
    obtain ⟨-, -, hok⟩ | ⟨-, text, herror⟩ := groupCandidate_cases sources groups d
    · rw [hok] at h
      -- one candidate more, and its photo has a group
      have hnext : ∀ t, t ∈ (Groups.append (sources.getD d.firstIndex 0)
            (d.firstIndex, d.secondIndex) groups).map Prod.fst
          ↔ ∃ d' ∈ processed ++ [d], sources.getD d'.firstIndex 0 = t := by
        intro t
        have hmem : t ∈ groups.map Prod.fst ∨ sources.getD d.firstIndex 0 = t
            ↔ ∃ d' ∈ processed ++ [d], sources.getD d'.firstIndex 0 = t := by
          rw [hkeys]
          simp only [List.mem_append, List.mem_singleton, or_and_right, exists_or,
            exists_eq_left]
        rw [← hmem, Groups.map_fst_append]
        split
        · next hold => exact (or_iff_left_of_imp fun heq => heq ▸ hold).symm
        · rw [List.mem_append, List.mem_singleton, eq_comm (a := t)]
      have := ih hnext h
      rwa [List.append_assoc, List.singleton_append] at this
    · rw [herror] at h
      exact absurd h (by simp [bind, Except.bind])

/-- The groups stand in the order in which their photos were met: what
comes before a photo in the groups has been met before it. -/
theorem Groups.keys_split {sources : List ℕ} {met rest : List DuplicateCandidate}
    {d : DuplicateCandidate} {groups : Groups}
    (h : (met ++ d :: rest).foldlM (groupCandidate sources) [] = .ok groups)
    (hfresh : ∀ d' ∈ met, sources.getD d'.firstIndex 0 ≠ sources.getD d.firstIndex 0) :
    ∃ before after, groups.map Prod.fst = before ++ sources.getD d.firstIndex 0 :: after
      ∧ ∀ t, t ∈ before ↔ ∃ d' ∈ met, sources.getD d'.firstIndex 0 = t := by
  rw [List.foldlM_append] at h
  rcases hmet : met.foldlM (groupCandidate sources) [] with e | groups₁
  · rw [hmet] at h
    exact absurd h (by simp [bind, Except.bind])
  · have hkeys : ∀ t, t ∈ groups₁.map Prod.fst
        ↔ ∃ d' ∈ met, sources.getD d'.firstIndex 0 = t := fun t => by
      have := @Collects.mem_keys _ [] _ _ _ (fun t => by simp) hmet t
      rwa [List.nil_append] at this
    rw [hmet] at h
    change (d :: rest).foldlM (groupCandidate sources) groups₁ = .ok groups at h
    rw [List.foldlM_cons] at h
    obtain ⟨-, -, hok⟩ | ⟨-, text, herror⟩ := groupCandidate_cases sources groups₁ d
    · rw [hok] at h
      have hnew : sources.getD d.firstIndex 0 ∉ groups₁.map Prod.fst := fun hmem => by
        obtain ⟨d', hd', heq⟩ := (hkeys _).mp hmem
        exact hfresh d' hd' heq
      obtain ⟨after, hafter⟩ := Groups.prefix_foldlM h
      rw [Groups.map_fst_append, if_neg hnew, List.append_assoc, List.singleton_append] at hafter
      exact ⟨_, after, hafter.symm, hkeys⟩
    · rw [herror] at h
      exact absurd h (by simp [bind, Except.bind])

/-- Two elements that neither list meets before its own stand at one
place. It is how a first photo that raises is found to be the same one. -/
theorem append_cons_split {α : Type} {l l' r r' : List α} {a b : α}
    (h : l ++ a :: r = l' ++ b :: r') (ha : a ∉ l') (hb : b ∉ l) : l = l' ∧ a = b := by
  rcases List.append_eq_append_iff.mp h with ⟨mid, rfl, hmid⟩ | ⟨mid, rfl, hmid⟩
  · cases mid with
    | nil =>
      rw [List.nil_append] at hmid
      exact ⟨(List.append_nil l).symm, (List.cons.inj hmid).1⟩
    | cons c mid =>
      obtain ⟨rfl, -⟩ := List.cons.inj hmid
      exact absurd (List.mem_append_right l List.mem_cons_self) ha
  · cases mid with
    | nil =>
      rw [List.nil_append] at hmid
      exact ⟨List.append_nil l', (List.cons.inj hmid).1.symm⟩
    | cons c mid =>
      obtain ⟨rfl, -⟩ := List.cons.inj hmid
      exact absurd (List.mem_append_right l' List.mem_cons_self) hb

section Candidates

variable [CaseFolding]

namespace MultiImageReceipt

/-! ## What the candidates should be

The pairs of a boundary are an overlap if they join the last rows of one
photo to the first rows of the next, in order. It is said without the
loop, and the loop is shown to check it. -/

/-- The candidate pairs whose first row lies in a photo, in the order in
which the model has given them. -/
def candidatesFrom (m : MultiImageReceipt) (s : ℕ) : List (ℕ × ℕ) :=
  (m.duplicateCandidates.filter fun d => m.sources[d.firstIndex]? = some s).map
    fun d => (d.firstIndex, d.secondIndex)

/-- The candidates of a photo are its last `c` rows against the first `c`
rows of the next photo, each pair once. -/
structure IsOverlap (m : MultiImageReceipt) (s c : ℕ) : Prop where
  left : c ≤ (positions m.sources s).length
  right : c ≤ (positions m.sources (s + 1)).length
  pairs : (m.candidatesFrom s).Perm (expectedPairs m.sources s c)

/-- Every candidate starts in a photo, and the candidates of each photo
are an overlap with the next. Nothing is said of any order. -/
structure Overlaps (m : MultiImageReceipt) : Prop where
  inPhoto : ∀ d ∈ m.duplicateCandidates, d.firstIndex < m.lineItems.length
  boundary : ∀ s, ∃ c, m.IsOverlap s c

/-- The line items are grouped by photo, and every photo is one of those
given. It is checked before the pairs are looked at, and an answer that
violates it is refused with a `ValueError`. -/
structure Grouped (m : MultiImageReceipt) (imageCount : ℤ) : Prop where
  sorted : m.sources.Pairwise (· ≤ ·)
  valid : ∀ s ∈ m.sources, (s : ℤ) < imageCount

/-- Every candidate, for itself, is a row of a photo and a row of the
next. It does not ask whether the candidates of a photo fit together. A
candidate that violates it is refused while the candidates are grouped,
and so before anything is verified. -/
def Indexed (m : MultiImageReceipt) : Prop :=
  ∀ d ∈ m.duplicateCandidates, (d.firstIndex < d.secondIndex ∧ d.secondIndex < m.sources.length)
    ∧ m.sources.getD d.secondIndex 0 = m.sources.getD d.firstIndex 0 + 1

/-- The candidates of a photo are an overlap, and the verification of its
pairs, row by row, raises. Pairs are verified only if they are an overlap.
Whether the exception is reached depends on the other photos, and is not
part of this. -/
def Raises (ratio : String → String → ℚ) (m : MultiImageReceipt) (s : ℕ) : Prop :=
  ∃ c, m.IsOverlap s c ∧ ∃ e, m.allVerified ratio (expectedPairs m.sources s c) = .error e

/-- The row is among the first rows of its photo, as many as the photo
before has candidates, and all of these are verified. An overlap with a
row that is not verified is accepted too, but nothing is dropped for
it. -/
def Dropped (ratio : String → String → ℚ) (m : MultiImageReceipt) (i : ℕ) : Prop :=
  ∃ s c, m.IsOverlap s c ∧ (∀ pair ∈ m.candidatesFrom s, m.verifyPair ratio pair = .ok true)
    ∧ i ∈ (positions m.sources (s + 1)).take c

variable {m : MultiImageReceipt} {ratio : String → String → ℚ}

theorem candidatesFrom_eq (h : ∀ d ∈ m.duplicateCandidates, d.firstIndex < m.sources.length)
    (s : ℕ) : m.candidatesFrom s = m.boundaryPairs s := by
  unfold candidatesFrom boundaryPairs pairsFrom
  congr 1
  refine List.filter_congr fun d hd => ?_
  rw [decide_eq_decide, List.getD_eq_getElem?_getD, List.getElem?_eq_getElem (h d hd),
    Option.getD_some, Option.some.injEq]

theorem Indexed.candidatesFrom_eq (h : m.Indexed) (s : ℕ) :
    m.candidatesFrom s = m.boundaryPairs s :=
  MultiImageReceipt.candidatesFrom_eq (fun d hd => (h d hd).1.1.trans (h d hd).1.2) s

theorem IsOverlap.length_eq {s c : ℕ} (h : m.IsOverlap s c) : (m.candidatesFrom s).length = c :=
  h.pairs.length_eq.trans (length_expectedPairs h.left h.right)

/-- Sorted, the candidates of an overlap are its pairs in the order of the
rows. -/
theorem IsOverlap.mergeSort_eq {s c : ℕ} (h : m.IsOverlap s c) :
    (m.candidatesFrom s).mergeSort tupleLe = expectedPairs m.sources s c :=
  mergeSort_eq_of_perm h.pairs (pairwise_expectedPairs m.sources s c)

/-- What the code compares says whether the candidates are an overlap. It
sorts the pairs and compares them with those that there should be. -/
theorem exists_isOverlap_iff (s : ℕ) : (∃ c, m.IsOverlap s c)
    ↔ (m.candidatesFrom s).mergeSort tupleLe
      = expectedPairs m.sources s (m.candidatesFrom s).length := by
  constructor
  · rintro ⟨c, h⟩
    rw [h.mergeSort_eq, h.length_eq]
  · intro h
    have hlen := congrArg List.length h
    rw [List.length_mergeSort] at hlen
    unfold expectedPairs lastN at hlen
    rw [List.length_zip, List.length_drop, List.length_take] at hlen
    refine ⟨(m.candidatesFrom s).length, by omega, by omega, ?_⟩
    rw [← h]
    exact (List.mergeSort_perm _ _).symm

/-- In rows grouped by photo, overlaps have the indices they should have.
So a list of overlaps is not refused while it is grouped. -/
theorem Overlaps.indexed {imageCount : ℤ} (hgrouped : m.Grouped imageCount) (h : m.Overlaps) :
    m.Indexed := by
  intro d hd
  have hlen : m.sources.length = m.lineItems.length := List.length_map _
  have hfirst : d.firstIndex < m.sources.length := hlen ▸ h.inPhoto d hd
  obtain ⟨c, hc⟩ := h.boundary m.sources[d.firstIndex]
  have hmem : (d.firstIndex, d.secondIndex) ∈ m.candidatesFrom m.sources[d.firstIndex] :=
    List.mem_map_of_mem (f := fun d : DuplicateCandidate => (d.firstIndex, d.secondIndex))
      (List.mem_filter.mpr ⟨hd, decide_eq_true (List.getElem?_eq_getElem hfirst)⟩)
  have hpair := List.of_mem_zip (hc.pairs.subset hmem)
  have hsecond := mem_positions.mp (List.mem_of_mem_take hpair.2)
  obtain ⟨hlt, hget⟩ := List.getElem?_eq_some_iff.mp hsecond
  refine ⟨⟨?_, hlt⟩, ?_⟩
  · -- in rows grouped by photo a row of a later photo stands further down
    by_contra hnot
    rcases Nat.lt_or_eq_of_le (Nat.not_lt.mp hnot) with hback | hback
    · have hle := (List.pairwise_iff_getElem.mp hgrouped.sorted) _ _ hlt hfirst hback
      omega
    · simp only [hback] at hget
      omega
  · rw [List.getD_eq_getElem?_getD, List.getD_eq_getElem?_getD, hsecond,
      List.getElem?_eq_getElem hfirst]
    rfl

/-! ## Checking the groups -/

/-- What the verification of a pair raises is no `ValueError`. The
tolerances are the defaults, which pass their own check. -/
theorem verifyPair_raises {pair : ℕ × ℕ} {e : PyError} (h : m.verifyPair ratio pair = .error e) :
    ¬ e.IsValueError := by
  have htolerances : ¬ (¬ ((0 : ℚ) ≤ 1 ∧ (1 : ℚ) ≤ 1) ∨ (0 : ℚ) < 0 ∨ (0 : ℚ) < 0) := by norm_num
  unfold verifyPair at h
  split at h
  · next first second _ _ =>
    unfold verifyDuplicate at h
    rw [if_neg htolerances] at h
    dsimp only at h
    split at h
    · exact absurd h (by simp)
    · split at h
      · exact absurd h (by simp)
      · rcases hq : Decimal.absDiffLe first.quantity.toDecimal second.quantity.toDecimal
          (.finite 0) with e' | same
        · rw [hq] at h
          obtain rfl := Except.error.inj h
          exact Decimal.absDiffLe_raises hq
        · rw [hq] at h
          cases same with
          | true => exact Decimal.absDiffLe_raises h
          | false => exact absurd h (by simp [bind, Except.bind])
  · rw [← Except.error.inj h]
    exact id

theorem allVerified_raises {pairs : List (ℕ × ℕ)} {e : PyError}
    (h : m.allVerified ratio pairs = .error e) : ¬ e.IsValueError := by
  induction pairs with
  | nil => exact absurd h (by simp [allVerified])
  | cons pair pairs ih =>
    unfold allVerified at h
    rcases hpair : m.verifyPair ratio pair with e' | verified
    · rw [hpair] at h
      obtain rfl := Except.error.inj h
      exact verifyPair_raises hpair
    · rw [hpair] at h
      cases verified with
      | true => exact ih h
      | false => exact absurd h (by simp [bind, Except.bind])

/-- The pairs of the group are the overlap that the code expects. -/
def Expected (m : MultiImageReceipt) (group : ℕ × List (ℕ × ℕ)) : Prop :=
  group.2.mergeSort tupleLe = expectedPairs m.sources group.1 group.2.length

/-- The verification of the group raises. -/
def Fails (ratio : String → String → ℚ) (m : MultiImageReceipt) (group : ℕ × List (ℕ × ℕ)) :
    Prop :=
  ∃ e, m.allVerified ratio (group.2.mergeSort tupleLe) = .error e

/-- A group passes, is refused with a `ValueError`, or its verification
raises. -/
theorem reconcileGroup_cases (ratio : String → String → ℚ) (m : MultiImageReceipt)
    (removed : List ℕ) (group : ℕ × List (ℕ × ℕ)) :
    (m.Expected group ∧ ¬ m.Fails ratio group
        ∧ ∃ removed', m.reconcileGroup ratio removed group = .ok removed')
      ∨ (¬ m.Expected group
        ∧ ∃ text, m.reconcileGroup ratio removed group = .error (.valueError text))
      ∨ (m.Expected group ∧ m.Fails ratio group
        ∧ ∃ e, ¬ e.IsValueError ∧ m.reconcileGroup ratio removed group = .error e) := by
  unfold reconcileGroup Expected Fails
  dsimp only
  rw [List.length_mergeSort]
  split
  · next hnot => exact .inr (.inl ⟨hnot, _, rfl⟩)
  · next hexpected =>
    rw [not_not] at hexpected
    rcases hall : m.allVerified ratio (group.2.mergeSort tupleLe) with e | verified
    · exact .inr (.inr ⟨hexpected, ⟨e, rfl⟩, e, allVerified_raises hall, rfl⟩)
    · refine .inl ⟨hexpected, by simp, ?_⟩
      cases verified with
      | true => exact ⟨_, rfl⟩
      | false => exact ⟨_, rfl⟩

/-- The loop over the groups passes if every group does; else its outcome
is that of the first group that does not. What comes after that group is
not looked at. -/
theorem foldlM_reconcileGroup_cases (ratio : String → String → ℚ) (m : MultiImageReceipt)
    (removed : List ℕ) (groups : Groups) :
    ((∀ group ∈ groups, m.Expected group ∧ ¬ m.Fails ratio group)
        ∧ ∃ removed', groups.foldlM (m.reconcileGroup ratio) removed = .ok removed')
      ∨ ∃ before group after, groups = before ++ group :: after
        ∧ (∀ g ∈ before, m.Expected g ∧ ¬ m.Fails ratio g)
        ∧ ((¬ m.Expected group
            ∧ ∃ text, groups.foldlM (m.reconcileGroup ratio) removed = .error (.valueError text))
          ∨ (m.Expected group ∧ m.Fails ratio group
            ∧ ∃ e, ¬ e.IsValueError
              ∧ groups.foldlM (m.reconcileGroup ratio) removed = .error e)) := by
  induction groups generalizing removed with
  | nil => exact .inl ⟨fun g hg => absurd hg List.not_mem_nil, removed, rfl⟩
  | cons group groups ih =>
    rw [List.foldlM_cons]
    obtain ⟨hexpected, hfails, removed', hok⟩ | ⟨hnot, text, herror⟩
      | ⟨hexpected, hfails, e, he, herror⟩ := reconcileGroup_cases ratio m removed group
    · rw [hok]
      obtain ⟨hall, hrest⟩ | ⟨before, g, after, rfl, hbefore, hrest⟩ := ih removed'
      · exact .inl ⟨List.forall_mem_cons.mpr ⟨⟨hexpected, hfails⟩, hall⟩, hrest⟩
      · exact .inr ⟨group :: before, g, after, rfl,
          List.forall_mem_cons.mpr ⟨⟨hexpected, hfails⟩, hbefore⟩, hrest⟩
    · rw [herror]
      exact .inr ⟨[], group, groups, rfl, fun g hg => absurd hg List.not_mem_nil,
        .inl ⟨hnot, text, rfl⟩⟩
    · rw [herror]
      exact .inr ⟨[], group, groups, rfl, fun g hg => absurd hg List.not_mem_nil,
        .inr ⟨hexpected, hfails, e, he, rfl⟩⟩

/-! ## When an error escapes

An error that is no `ValueError` is raised by the first group that raises
one, if no group before it was refused. So the condition speaks of the
groups that come before. -/

/-- The photo of a candidate. -/
def photo (m : MultiImageReceipt) (d : DuplicateCandidate) : ℕ := m.sources.getD d.firstIndex 0

/-- Among the photos in the order in which the candidates meet them, one
raises, and the candidates of every photo before it are an overlap whose
verification does not raise. It depends on the order of the candidates. -/
def RaisesFirst (ratio : String → String → ℚ) (m : MultiImageReceipt) : Prop :=
  ∃ met d rest, m.duplicateCandidates = met ++ d :: rest ∧ m.Raises ratio (m.photo d)
    ∧ ∀ d' ∈ met, m.photo d' ≠ m.photo d ∧ (∃ c, m.IsOverlap (m.photo d') c)
      ∧ ¬ m.Raises ratio (m.photo d')

/-- What the checks of a group say about its photo. -/
theorem expected_iff (s : ℕ) : m.Expected (s, m.candidatesFrom s) ↔ ∃ c, m.IsOverlap s c :=
  (m.exists_isOverlap_iff s).symm

theorem expected_and_fails_iff (s : ℕ) :
    m.Expected (s, m.candidatesFrom s) ∧ m.Fails ratio (s, m.candidatesFrom s)
      ↔ m.Raises ratio s := by
  constructor
  · rintro ⟨hexpected, hfails⟩
    obtain ⟨c, hc⟩ := (expected_iff s).mp hexpected
    have hsorted : (m.candidatesFrom s).mergeSort tupleLe = expectedPairs m.sources s c :=
      hc.mergeSort_eq
    unfold Fails at hfails
    dsimp only at hfails
    rw [hsorted] at hfails
    exact ⟨c, hc, hfails⟩
  · rintro ⟨c, hc, hfails⟩
    refine ⟨(expected_iff s).mpr ⟨c, hc⟩, ?_⟩
    unfold Fails
    dsimp only
    rw [hc.mergeSort_eq]
    exact hfails

/-- The rows are grouped by photo as the code checks it: it compares the
photos of the rows with the sorted list of them. -/
theorem grouped_iff {imageCount : ℤ} : m.Grouped imageCount
    ↔ ¬ (m.sources ≠ m.sources.mergeSort ∨ ∃ source ∈ m.sources, imageCount ≤ source) := by
  constructor
  · rintro h (hsort | ⟨s, hs, hle⟩)
    · refine hsort (List.mergeSort_of_pairwise (h.sorted.imp fun hab => ?_)).symm
      exact decide_eq_true hab
    · exact absurd (h.valid s hs) (not_lt.mpr hle)
  · intro hnot
    rw [not_or, not_not] at hnot
    refine ⟨?_, fun s hs => not_le.mp fun hle => hnot.2 ⟨s, hs, hle⟩⟩
    rw [hnot.1]
    exact List.pairwise_mergeSort' (· ≤ ·) m.sources

theorem Grouped.not_refused {imageCount : ℤ} (h : m.Grouped imageCount) :
    ¬ (m.sources ≠ m.sources.mergeSort ∨ ∃ source ∈ m.sources, imageCount ≤ source) :=
  grouped_iff.mp h

/-- The groups of candidates with the indices they should have: one for
each photo, with its candidates, in the order in which the photos were
met. -/
structure GroupsOf (m : MultiImageReceipt) (groups : Groups) : Prop where
  nodup : (groups.map Prod.fst).Nodup
  pairs : ∀ group ∈ groups, group.2 = m.candidatesFrom group.1
  keys : ∀ s, s ∈ groups.map Prod.fst ↔ ∃ d ∈ m.duplicateCandidates, m.photo d = s
  order : ∀ met d rest, m.duplicateCandidates = met ++ d :: rest →
    (∀ d' ∈ met, m.photo d' ≠ m.photo d) →
    ∃ before after, groups.map Prod.fst = before ++ m.photo d :: after
      ∧ ∀ s, s ∈ before ↔ ∃ d' ∈ met, m.photo d' = s

theorem Indexed.groupsOf (h : m.Indexed) :
    ∃ groups, m.duplicateCandidates.foldlM (groupCandidate m.sources) [] = .ok groups
      ∧ m.GroupsOf groups := by
  obtain ⟨-, groups, hgroups⟩ | ⟨hnot, -⟩ :=
    foldlM_groupCandidate m.sources m.duplicateCandidates []
  · have hstart : Collects m.sources [] [] := ⟨List.nodup_nil, fun _ => rfl⟩
    have hcollects : Collects m.sources m.duplicateCandidates groups := hstart.foldlM hgroups
    refine ⟨groups, hgroups, hcollects.nodup, ?_, fun s => ?_, ?_⟩
    · rintro ⟨s, pairs⟩ hgroup
      dsimp only
      rw [h.candidatesFrom_eq]
      exact (Groups.get_eq_of_mem hcollects.nodup hgroup).symm.trans (hcollects.get s)
    · have := @Collects.mem_keys _ [] _ _ _ (fun t => by simp) hgroups s
      rwa [List.nil_append] at this
    · intro met d rest hsplit hfresh
      rw [hsplit] at hgroups
      exact Groups.keys_split hgroups hfresh
  · exact absurd h hnot

/-- The first candidate of a photo. -/
theorem exists_first {s : ℕ} (h : ∃ d ∈ m.duplicateCandidates, m.photo d = s) :
    ∃ met d rest, m.duplicateCandidates = met ++ d :: rest ∧ m.photo d = s
      ∧ ∀ d' ∈ met, m.photo d' ≠ s := by
  obtain ⟨d, hd, hs⟩ := h
  obtain ⟨before, after, hsplit, hfresh⟩ :=
    List.eq_append_cons_of_mem (List.mem_map.mpr ⟨d, hd, hs⟩ : s ∈ m.duplicateCandidates.map m.photo)
  obtain ⟨met, rest', hcandidates, rfl, hrest'⟩ := List.map_eq_append_iff.mp hsplit
  obtain ⟨d', rest, rfl, hd', -⟩ := List.map_eq_cons_iff.mp hrest'
  exact ⟨met, d', rest, hcandidates, hd', fun e he heq => hfresh (List.mem_map.mpr ⟨e, he, heq⟩)⟩

theorem GroupsOf.mem {groups : Groups} (h : m.GroupsOf groups) {s : ℕ}
    (hs : s ∈ groups.map Prod.fst) : (s, m.candidatesFrom s) ∈ groups := by
  obtain ⟨group, hgroup, rfl⟩ := List.mem_map.mp hs
  have hpairs := h.pairs group hgroup
  rwa [← hpairs]

/-- **An error escapes** from the rows grouped by photo exactly if the
candidates have the indices they should have and a photo raises before any
is refused. -/
theorem removedRows_escapes_iff {imageCount : ℤ} (hgrouped : m.Grouped imageCount) :
    (∃ e, ¬ e.IsValueError ∧ m.removedRows ratio imageCount = .error e)
      ↔ m.Indexed ∧ m.RaisesFirst ratio := by
  rw [removedRows_of_sorted hgrouped.not_refused]
  by_cases hindexed : m.Indexed
  · obtain ⟨groups, hfold, hgroups⟩ := hindexed.groupsOf
    rw [hfold, and_iff_right hindexed]
    change (∃ e, ¬ e.IsValueError ∧ groups.foldlM (m.reconcileGroup ratio) [] = .error e) ↔ _
    obtain ⟨hall, removed, hok⟩ | ⟨before, ⟨s, pairs⟩, after, hsplit, hbefore, hcase⟩ :=
      foldlM_reconcileGroup_cases ratio m [] groups
    · -- every group passes, and so no photo raises
      rw [hok]
      refine iff_of_false (by simp) ?_
      rintro ⟨met, d, rest, hcandidates, hraises, -⟩
      have hkey : m.photo d ∈ groups.map Prod.fst := (hgroups.keys _).mpr
        ⟨d, by rw [hcandidates]; exact List.mem_append_right met List.mem_cons_self, rfl⟩
      exact (hall _ (hgroups.mem hkey)).2 ((expected_and_fails_iff _).mpr hraises).2
    · have hmem : (s, pairs) ∈ groups := hsplit ▸ List.mem_append_right before List.mem_cons_self
      obtain rfl : pairs = m.candidatesFrom s := hgroups.pairs _ hmem
      have hkeys : groups.map Prod.fst = before.map Prod.fst ++ s :: after.map Prod.fst := by
        rw [hsplit, List.map_append, List.map_cons]
      have hs : s ∉ before.map Prod.fst := by
        have hnodup := hgroups.nodup
        rw [hkeys, List.nodup_append] at hnodup
        exact fun h => hnodup.2.2 s h s List.mem_cons_self rfl
      have hpassed : ∀ t ∈ before.map Prod.fst,
          (∃ c, m.IsOverlap t c) ∧ ¬ m.Raises ratio t := by
        intro t ht
        obtain ⟨group, hgroup, rfl⟩ := List.mem_map.mp ht
        have hpairs : group = (group.1, m.candidatesFrom group.1) := Prod.ext rfl
          (hgroups.pairs group (hsplit ▸ List.mem_append_left _ hgroup))
        obtain ⟨hexpected, hfails⟩ := hbefore group hgroup
        rw [hpairs] at hexpected hfails
        exact ⟨(expected_iff _).mp hexpected,
          fun h => hfails ((expected_and_fails_iff _).mpr h).2⟩
      constructor
      · rintro ⟨e, he, herror⟩
        obtain ⟨-, text, htext⟩ | ⟨hexpected, hfails, -⟩ := hcase
        · rw [htext] at herror
          obtain rfl := Except.error.inj herror
          exact absurd trivial he
        · obtain ⟨met, d, rest, hcandidates, rfl, hfresh⟩ :=
            exists_first ((hgroups.keys s).mp (List.mem_map_of_mem hmem))
          obtain ⟨before', after', hkeys', hmet⟩ := hgroups.order met d rest hcandidates hfresh
          have hfirst : m.photo d ∉ before' := fun h => by
            obtain ⟨d', hd', heq⟩ := (hmet _).mp h
            exact hfresh d' hd' heq
          obtain ⟨heq, -⟩ := append_cons_split (hkeys.symm.trans hkeys') hfirst hs
          refine ⟨met, d, rest, hcandidates, (expected_and_fails_iff _).mp ⟨hexpected, hfails⟩,
            fun d' hd' => ⟨hfresh d' hd', hpassed _ ?_⟩⟩
          rw [heq]
          exact (hmet _).mpr ⟨d', hd', rfl⟩
      · rintro ⟨met, d, rest, hcandidates, hraises, hmet⟩
        obtain ⟨before', after', hkeys', hmem'⟩ :=
          hgroups.order met d rest hcandidates fun d' hd' => (hmet d' hd').1
        have hexpected' := ((expected_and_fails_iff _).mpr hraises).1
        have hnot : m.photo d ∉ before.map Prod.fst := fun h => (hpassed _ h).2 hraises
        obtain ⟨himproper, text, htext⟩ | ⟨-, -, hescapes⟩ := hcase
        · -- a refused group stands neither before the photo nor at it
          have hs' : s ∉ before' := fun h => by
            obtain ⟨d', hd', rfl⟩ := (hmem' _).mp h
            exact himproper ((expected_iff _).mpr (hmet d' hd').2.1)
          obtain ⟨-, rfl⟩ := append_cons_split (hkeys.symm.trans hkeys') hs' hnot
          exact absurd hexpected' himproper
        · exact hescapes
  · obtain ⟨hall, -⟩ | ⟨-, text, herror⟩ :=
      foldlM_groupCandidate m.sources m.duplicateCandidates []
    · exact absurd hall hindexed
    · rw [herror]
      refine iff_of_false ?_ fun h => hindexed h.1
      rintro ⟨e, he, h⟩
      obtain rfl := Except.error.inj h
      exact absurd trivial he

/-! ## The outcome

What is accepted are overlaps, and what is dropped are the rows that they
repeat. If no verification raises, candidates in another order have the
same outcome. -/

/-- Nothing is raised after the rows to be dropped are known. The copy is
validated again, and a receipt that loses rows is as valid as before. -/
theorem reconciled_eq_map (ratio : String → String → ℚ) (m : MultiImageReceipt)
    (imageCount : ℤ) : m.reconciled ratio imageCount
      = (m.removedRows ratio imageCount).map fun removed =>
        { toReceiptFields := m.toReceiptFields
          lineItems := (m.keptRows removed).map SourceLineItem.toLineItem } := by
  unfold reconciled
  cases m.removedRows ratio imageCount with
  | error e => rfl
  | ok removed =>
    have hdump : (m.keptRows removed).map (fun item => item.toLineItem.modelDump)
        = ((m.keptRows removed).map SourceLineItem.toLineItem).map LineItem.modelDump := by
      rw [List.map_map]
      rfl
    simp only [bind, Except.bind, hdump, Receipt.modelValidate_dump]
    rfl

/-- The same receipt, or a `ValueError` both times. Which one is found
first may depend on the order of the candidates. -/
def SameOutcome (a b : Except PyError Receipt) : Prop :=
  a = b ∨ ∃ e e', a = .error e ∧ b = .error e' ∧ e.IsValueError ∧ e'.IsValueError

/-- `reconciled` accepts overlaps and refuses everything else with a
`ValueError`, drops what it should, and does not depend on the order of
the candidates. -/
structure AcceptsExactly (ratio : String → String → ℚ) (m : MultiImageReceipt) (imageCount : ℤ) :
    Prop where
  accepts : (∃ r, m.reconciled ratio imageCount = .ok r) ↔ m.Overlaps
  refuses : ¬ m.Overlaps → ∃ e, m.reconciled ratio imageCount = .error e ∧ e.IsValueError
  drops : ∀ r, m.reconciled ratio imageCount = .ok r →
    ∃ removed, r.lineItems = (m.keptRows removed).map SourceLineItem.toLineItem
      ∧ ∀ i, i ∈ removed ↔ m.Dropped ratio i
  permutes : ∀ candidates, candidates.Perm m.duplicateCandidates →
    SameOutcome (m.reconciled ratio imageCount)
      ({ m with duplicateCandidates := candidates }.reconciled ratio imageCount)

/-- What an accepted list of candidates is, and what it drops. The rows
are given as a list by the code, and here by the property that they
have. -/
theorem removedRows_ok {imageCount : ℤ} (hgrouped : m.Grouped imageCount) {removed : List ℕ}
    (h : m.removedRows ratio imageCount = .ok removed) :
    m.Overlaps ∧ ∀ i, i ∈ removed ↔ m.Dropped ratio i := by
  have hindexed : m.Indexed := by
    rw [removedRows_of_sorted hgrouped.not_refused] at h
    obtain ⟨hall, -⟩ | ⟨-, text, herror⟩ :=
      foldlM_groupCandidate m.sources m.duplicateCandidates []
    · exact hall
    · rw [herror] at h
      exact absurd h (by simp [bind, Except.bind])
  obtain ⟨hexpected, hremoved⟩ := removedRows_eq_ok h
  have hoverlaps : m.Overlaps := by
    refine ⟨fun d hd => ?_, fun s => ?_⟩
    · have hlen : m.sources.length = m.lineItems.length := List.length_map _
      exact hlen ▸ (hindexed d hd).1.1.trans (hindexed d hd).1.2
    · rw [exists_isOverlap_iff, hindexed.candidatesFrom_eq]
      by_cases hnil : m.boundaryPairs s = []
      · rw [hnil]
        simp [expectedPairs, lastN]
      · exact hexpected s hnil
  refine ⟨hoverlaps, fun i => ?_⟩
  rw [hremoved]
  refine exists_congr fun s => ?_
  obtain ⟨c, hc⟩ := hoverlaps.boundary s
  -- sorted, the pairs stand in the order of the rows, so their second halves are the
  -- first rows of the next photo
  have hlater : ((m.boundaryPairs s).mergeSort tupleLe).map Prod.snd
      = (positions m.sources (s + 1)).take c := by
    rw [← hindexed.candidatesFrom_eq, hc.mergeSort_eq]
    unfold expectedPairs
    refine List.map_snd_zip ?_
    unfold lastN
    have hl := hc.left
    rw [List.length_take, List.length_drop]
    omega
  unfold Accepted
  rw [hlater, ← hindexed.candidatesFrom_eq]
  constructor
  · rintro ⟨hverified, hi⟩
    exact ⟨c, hc, hverified, hi⟩
  · rintro ⟨c', hc', hverified, hi⟩
    obtain rfl : c = c' := hc.length_eq.symm.trans hc'.length_eq
    exact ⟨hverified, hi⟩

section Permuted

variable {candidates : List DuplicateCandidate}

theorem candidatesFrom_perm (h : candidates.Perm m.duplicateCandidates) (s : ℕ) :
    ({ m with duplicateCandidates := candidates }.candidatesFrom s).Perm (m.candidatesFrom s) :=
  (h.filter _).map _

theorem isOverlap_perm (h : candidates.Perm m.duplicateCandidates) (s c : ℕ) :
    { m with duplicateCandidates := candidates }.IsOverlap s c ↔ m.IsOverlap s c :=
  ⟨fun hc => ⟨hc.left, hc.right, (candidatesFrom_perm h s).symm.trans hc.pairs⟩,
    fun hc => ⟨hc.left, hc.right, (candidatesFrom_perm h s).trans hc.pairs⟩⟩

theorem overlaps_perm (h : candidates.Perm m.duplicateCandidates) :
    { m with duplicateCandidates := candidates }.Overlaps ↔ m.Overlaps := by
  constructor
  · rintro ⟨hinPhoto, hboundary⟩
    refine ⟨fun d hd => hinPhoto d (h.mem_iff.mpr hd), fun s => ?_⟩
    obtain ⟨c, hc⟩ := hboundary s
    exact ⟨c, (isOverlap_perm h s c).mp hc⟩
  · rintro ⟨hinPhoto, hboundary⟩
    refine ⟨fun d hd => hinPhoto d (h.mem_iff.mp hd), fun s => ?_⟩
    obtain ⟨c, hc⟩ := hboundary s
    exact ⟨c, (isOverlap_perm h s c).mpr hc⟩

theorem indexed_perm (h : candidates.Perm m.duplicateCandidates) :
    { m with duplicateCandidates := candidates }.Indexed ↔ m.Indexed :=
  forall_congr' fun _ => imp_congr_left h.mem_iff

theorem allVerified_perm (pairs : List (ℕ × ℕ)) :
    { m with duplicateCandidates := candidates }.allVerified ratio pairs
      = m.allVerified ratio pairs := by
  induction pairs with
  | nil => rfl
  | cons pair pairs ih =>
    unfold allVerified
    rw [ih]
    rfl

theorem raises_perm (h : candidates.Perm m.duplicateCandidates) (s : ℕ) :
    { m with duplicateCandidates := candidates }.Raises ratio s ↔ m.Raises ratio s :=
  exists_congr fun c => and_congr (isOverlap_perm h s c)
    (exists_congr fun e => by rw [allVerified_perm]; rfl)

theorem dropped_perm (h : candidates.Perm m.duplicateCandidates) (i : ℕ) :
    { m with duplicateCandidates := candidates }.Dropped ratio i ↔ m.Dropped ratio i :=
  exists_congr fun s => exists_congr fun c => and_congr (isOverlap_perm h s c)
    (and_congr (forall_congr' fun _ => imp_congr_left (candidatesFrom_perm h s).mem_iff) Iff.rfl)

/-- The rows that are kept depend on which are dropped only. -/
theorem keptRows_congr {removed removed' : List ℕ} (h : ∀ i, i ∈ removed ↔ i ∈ removed') :
    { m with duplicateCandidates := candidates }.keptRows removed' = m.keptRows removed := by
  unfold keptRows
  congr 1
  refine List.filter_congr fun row _ => ?_
  rw [decide_eq_decide, h]

end Permuted

/-- A photo that raises makes `reconciled` raise, if its candidates come
first. They may, in an arrangement of the same candidates. -/
theorem Raises.escapes {imageCount : ℤ} (hgrouped : m.Grouped imageCount) (hindexed : m.Indexed)
    {s : ℕ} (h : m.Raises ratio s) :
    ∃ candidates, candidates.Perm m.duplicateCandidates ∧ ∃ e, ¬ e.IsValueError
      ∧ { m with duplicateCandidates := candidates }.removedRows ratio imageCount = .error e := by
  have hmem : ∃ d ∈ m.duplicateCandidates, m.photo d = s := by
    obtain ⟨c, hc, e, he⟩ := h
    have hne : m.candidatesFrom s ≠ [] := fun hnil => by
      have hsorted := hc.mergeSort_eq
      rw [hnil, List.mergeSort_nil] at hsorted
      rw [← hsorted] at he
      exact absurd he (by simp [allVerified])
    obtain ⟨pair, hpair⟩ := List.exists_mem_of_ne_nil _ hne
    obtain ⟨d, hd, -⟩ := List.mem_map.mp hpair
    obtain ⟨hd, hs⟩ := List.mem_filter.mp hd
    refine ⟨d, hd, ?_⟩
    unfold photo
    rw [List.getD_eq_getElem?_getD, of_decide_eq_true hs]
    rfl
  obtain ⟨d, hd, rfl⟩ := hmem
  have hperm := (List.perm_cons_erase hd).symm
  have hgrouped' : { m with duplicateCandidates := d :: m.duplicateCandidates.erase d }.Grouped
      imageCount := ⟨hgrouped.sorted, hgrouped.valid⟩
  refine ⟨d :: m.duplicateCandidates.erase d, hperm, ?_⟩
  refine (removedRows_escapes_iff hgrouped').mpr
    ⟨(indexed_perm hperm).mpr hindexed, [], d, _, rfl, (raises_perm hperm _).mpr h, ?_⟩
  exact fun d' hd' => absurd hd' List.not_mem_nil

/-- Without a photo that raises, every outcome is the one it should be.
All errors are `ValueError`s then, and they say that there is no
overlap. -/
theorem outcome_of_not_raises {imageCount : ℤ} (hgrouped : m.Grouped imageCount)
    (h : ¬ (m.Indexed ∧ ∃ s, m.Raises ratio s)) :
    (m.Overlaps ∧ ∃ removed, m.removedRows ratio imageCount = .ok removed)
      ∨ (¬ m.Overlaps ∧ ∃ e, e.IsValueError ∧ m.removedRows ratio imageCount = .error e) := by
  have hcaught : ∀ e, m.removedRows ratio imageCount = .error e → e.IsValueError := by
    intro e he
    by_contra hnot
    obtain ⟨hindexed, met, d, rest, -, hraises, -⟩ :=
      (removedRows_escapes_iff hgrouped).mp ⟨e, hnot, he⟩
    exact h ⟨hindexed, _, hraises⟩
  rcases hremoved : m.removedRows ratio imageCount with e | removed
  · refine .inr ⟨fun hoverlaps => ?_, e, hcaught e hremoved, rfl⟩
    -- the candidates of every photo are an overlap, and none raises
    have hindexed := hoverlaps.indexed hgrouped
    obtain ⟨groups, hfold, hgroups⟩ := hindexed.groupsOf
    rw [removedRows_of_sorted hgrouped.not_refused, hfold] at hremoved
    change groups.foldlM (m.reconcileGroup ratio) [] = .error e at hremoved
    obtain ⟨-, removed, hok⟩ | ⟨before, ⟨s, pairs⟩, after, hsplit, -, hcase⟩ :=
      foldlM_reconcileGroup_cases ratio m [] groups
    · rw [hok] at hremoved
      exact absurd hremoved (by simp)
    · have hmem : (s, pairs) ∈ groups := hsplit ▸ List.mem_append_right before List.mem_cons_self
      obtain rfl : pairs = m.candidatesFrom s := hgroups.pairs _ hmem
      obtain ⟨hnot, -⟩ | ⟨hexpected, hfails, -⟩ := hcase
      · exact hnot ((expected_iff s).mpr (hoverlaps.boundary s))
      · exact h ⟨hindexed, s, (expected_and_fails_iff s).mp ⟨hexpected, hfails⟩⟩
  · exact .inl ⟨(removedRows_ok hgrouped hremoved).1, removed, rfl⟩

/-- **Overlaps are accepted exactly, in any order**, unless the
verification of an overlap among candidates with the indices they should
have raises. The condition does not mention the order of the candidates,
although the code meets them in it. -/
theorem acceptsExactly_iff (ratio : String → String → ℚ) (m : MultiImageReceipt) (imageCount : ℤ)
    (hgrouped : m.Grouped imageCount) :
    m.AcceptsExactly ratio imageCount ↔ ¬ (m.Indexed ∧ ∃ s, m.Raises ratio s) := by
  constructor
  · rintro hexact ⟨hindexed, s, hraises⟩
    -- with the candidates of that photo first, the error would escape
    obtain ⟨candidates, hperm, e, he, herror⟩ := hraises.escapes hgrouped hindexed
    have hescapes : { m with duplicateCandidates := candidates }.reconciled ratio imageCount
        = .error e := by
      rw [reconciled_eq_map, herror]
      rfl
    have hsame := hexact.permutes candidates hperm
    rw [hescapes] at hsame
    obtain heq | ⟨e₁, e₂, -, heq, -, hvalue⟩ := hsame
    · by_cases hoverlaps : m.Overlaps
      · obtain ⟨r, hr⟩ := hexact.accepts.mpr hoverlaps
        rw [hr] at heq
        exact absurd heq (by simp)
      · obtain ⟨e', he', hvalue⟩ := hexact.refuses hoverlaps
        obtain rfl := Except.error.inj (heq.symm.trans he')
        exact he hvalue
    · obtain rfl := Except.error.inj heq
      exact he hvalue
  · intro hnot
    have houtcome := outcome_of_not_raises hgrouped hnot
    refine ⟨?_, ?_, ?_, ?_⟩
    · rw [reconciled_eq_map]
      obtain ⟨hoverlaps, removed, hok⟩ | ⟨hnot, e, -, herror⟩ := houtcome
      · rw [hok]
        exact iff_of_true ⟨_, rfl⟩ hoverlaps
      · rw [herror]
        exact iff_of_false (by simp [Except.map]) hnot
    · intro hrefused
      obtain ⟨hoverlaps, -⟩ | ⟨-, e, he, herror⟩ := houtcome
      · exact absurd hoverlaps hrefused
      · rw [reconciled_eq_map, herror]
        exact ⟨e, rfl, he⟩
    · intro r hr
      obtain ⟨removed, hremoved, -, hitems⟩ := reconciled_eq_ok hr
      exact ⟨removed, hitems, (removedRows_ok hgrouped hremoved).2⟩
    · intro candidates hperm
      -- no arrangement of the candidates raises, so there are two outcomes each time
      have hgrouped' : { m with duplicateCandidates := candidates }.Grouped imageCount :=
        ⟨hgrouped.sorted, hgrouped.valid⟩
      have hnot' : ¬ ({ m with duplicateCandidates := candidates }.Indexed
          ∧ ∃ s, { m with duplicateCandidates := candidates }.Raises ratio s) := by
        rintro ⟨hindexed, s, hraises⟩
        exact hnot ⟨(indexed_perm hperm).mp hindexed, s, (raises_perm hperm s).mp hraises⟩
      rw [reconciled_eq_map, reconciled_eq_map]
      obtain ⟨hoverlaps, removed, hok⟩ | ⟨hrefused, e, he, herror⟩ := houtcome <;>
        obtain ⟨hoverlaps', removed', hok'⟩ | ⟨hrefused', e', he', herror'⟩ :=
          outcome_of_not_raises hgrouped' hnot'
      · left
        have hmem : ∀ i, i ∈ removed ↔ i ∈ removed' := fun i => by
          rw [(removedRows_ok hgrouped hok).2, (removedRows_ok hgrouped' hok').2,
            dropped_perm hperm]
        have hkept : { m with duplicateCandidates := candidates }.keptRows removed'
            = m.keptRows removed := keptRows_congr hmem
        rw [hok, hok']
        exact congrArg (fun rows => Except.ok (Receipt.mk m.toReceiptFields
          (rows.map SourceLineItem.toLineItem))) hkept.symm
      · exact absurd ((overlaps_perm hperm).mpr hoverlaps) hrefused'
      · exact absurd ((overlaps_perm hperm).mp hoverlaps') hrefused
      · rw [herror, herror']
        exact .inr ⟨e, e', rfl, rfl, he, he'⟩

end MultiImageReceipt

end Candidates

/-! ## Totals too far apart -/

section TwoPhotos

open MultiImageReceipt

local instance : CaseFolding := asciiFolding

theorem grouped_twoPhotos (first second : ℚ) : (twoPhotos first second).Grouped 2 := by
  constructor
  · show [0, 1].Pairwise (· ≤ ·)
    decide
  · show ∀ s ∈ [0, 1], ((s : ℕ) : ℤ) < 2
    decide

theorem isOverlap_twoPhotos (first second : ℚ) : (twoPhotos first second).IsOverlap 0 1 := by
  have hlength : ∀ s < 2, 1 ≤ (positions [0, 1] s).length := by decide
  exact ⟨hlength 0 (by decide), hlength 1 (by decide), List.Perm.refl _⟩

theorem overlaps_twoPhotos (first second : ℚ) : (twoPhotos first second).Overlaps := by
  constructor
  · show ∀ d ∈ [(⟨0, 1⟩ : DuplicateCandidate)], d.firstIndex < 2
    decide
  · intro s
    cases s with
    | zero => exact ⟨1, isOverlap_twoPhotos first second⟩
    | succ s =>
      refine ⟨0, Nat.zero_le _, Nat.zero_le _, ?_⟩
      show List.Perm (((List.filter _ [(⟨0, 1⟩ : DuplicateCandidate)]).map _)) _
      rw [List.filter_cons_of_neg (by simp [twoPhotos, sources, milkRow])]
      simp [expectedPairs, lastN]

/-- Two rows that the model takes for one: what their verification raises
is raised. There is one group with one pair, so nothing can come before
it. -/
theorem reconciled_twoRows {m : MultiImageReceipt} (hgrouped : m.Grouped 2)
    (hsources : m.sources = [0, 1]) (hcandidates : m.duplicateCandidates = [⟨0, 1⟩])
    {e : PyError} (h : m.verifyPair exactRatio (0, 1) = .error e) :
    m.reconciled exactRatio 2 = .error e := by
  have hgroups : m.duplicateCandidates.foldlM (groupCandidate [0, 1]) []
      = .ok [(0, [(0, 1)])] := by
    rw [hcandidates]
    rfl
  have hgroup : m.reconcileGroup exactRatio [] (0, [(0, 1)]) = .error e := by
    have hexpected : expectedPairs [0, 1] 0 1 = [(0, 1)] := by decide
    have hall : m.allVerified exactRatio [(0, 1)] = .error e := by
      unfold allVerified
      rw [h]
      rfl
    unfold reconcileGroup
    rw [List.mergeSort_singleton, hsources]
    dsimp only
    rw [hall]
    exact if_neg (not_not.mpr hexpected.symm)
  rw [reconciled_eq_map, removedRows_of_sorted hgrouped.not_refused, hsources, hgroups]
  show Except.map _ (m.reconcileGroup exactRatio [] (0, [(0, 1)]) >>= fun removed =>
    pure removed) = _
  rw [hgroup]
  rfl

/-- Totals whose verification does not raise: everything is as it should
be. -/
theorem twoPhotos_acceptsExactly : (twoPhotos 1 1).AcceptsExactly exactRatio 2 := by
  refine (acceptsExactly_iff exactRatio (twoPhotos 1 1) 2 (grouped_twoPhotos 1 1)).mpr ?_
  rintro ⟨hindexed, s, hraises⟩
  obtain ⟨candidates, hperm, e, -, herror⟩ := hraises.escapes (grouped_twoPhotos 1 1) hindexed
  obtain rfl := List.perm_singleton.mp hperm
  have hclose : |(1 : ℚ) - 1| ≤ 1 / 2 * 10 ^ Decimal.etiny := by
    rw [sub_self, abs_zero]
    exact Decimal.half_etiny_nonneg
  have hok := (reconciled_twoPhotos hclose).1
  exact absurd (hok.symm.trans herror) (by simp)

/-- `1E+1000000` is no decimal of the default context. Its exponent is by
one too large, and it has one digit only. -/
theorem fix_overflows {x : ℚ} (hx : |x| = 10 ^ (Decimal.emax + 1)) :
    Decimal.fix x = .error .overflow := by
  have hlt : |x| < ((10 : ℕ) : ℚ) ^ (Decimal.emax + 1 + (Decimal.prec : ℕ)) := by
    rw [hx]
    exact_mod_cast zpow_lt_zpow_right₀ (by norm_num : (1 : ℚ) < 10) (by decide)
  have hround : Rounding.floatRound 10 Decimal.prec Decimal.etiny x = x := by
    rcases eq_or_eq_neg_of_abs_eq hx with rfl | rfl
    · exact Rounding.floatRound_of_mul (n := 1) (by decide) (by decide) (by norm_num) hlt
    · exact Rounding.floatRound_of_mul (n := -1) (by decide) (by decide) (by norm_num) hlt
  unfold Decimal.fix
  rw [hround]
  exact if_pos hx.ge

theorem abs_twice_five : |(5 * 10 ^ Decimal.emax + 5 * 10 ^ Decimal.emax : ℚ)|
    = 10 ^ (Decimal.emax + 1) := by
  have hten : (5 * 10 ^ Decimal.emax : ℚ) + 5 * 10 ^ Decimal.emax = 10 ^ (Decimal.emax + 1) := by
    rw [zpow_add_one₀ (by norm_num)]
    ring
  rw [hten]
  exact abs_of_pos (zpow_pos (by norm_num) _)

theorem absDiffLe_overflows : Decimal.absDiffLe (.finite (5 * 10 ^ Decimal.emax))
    (.finite (-(5 * 10 ^ Decimal.emax))) (.finite 0) = .error .overflow := by
  have hsub : Decimal.sub (.finite (5 * 10 ^ Decimal.emax))
      (.finite (-(5 * 10 ^ Decimal.emax))) = .error .overflow := by
    show Decimal.fix (5 * 10 ^ Decimal.emax + - -(5 * 10 ^ Decimal.emax)) = _
    rw [neg_neg]
    exact fix_overflows abs_twice_five
  unfold Decimal.absDiffLe
  rw [hsub]
  rfl

/-- A pair of bottles of milk, bought and returned, at `5E+999999`. -/
def hugePhotos : MultiImageReceipt :=
  twoPhotos (5 * 10 ^ Decimal.emax) (-(5 * 10 ^ Decimal.emax))

theorem verifyPair_hugePhotos : hugePhotos.verifyPair exactRatio (0, 1) = .error .overflow := by
  have hname : ¬ (collapse (casefold "Milk") = "" ∨ collapse (casefold "Milk") = "") := by decide
  have hratio : ¬ exactRatio (collapse (casefold "Milk")) (collapse (casefold "Milk")) < 1 :=
    not_lt.mpr ((one_le_exactRatio_iff _ _).mpr rfl)
  have hquantity : Decimal.absDiffLe (PyFloat.ofInt 1).toDecimal (PyFloat.ofInt 1).toDecimal
      (.finite 0) = .ok true := by
    refine (Decimal.absDiffLe_zero_iff _ _).mpr ?_
    rw [sub_self, abs_zero]
    exact Decimal.half_etiny_nonneg
  show verifyDuplicate exactRatio (milkRow 0 _).toLineItem (milkRow 1 _).toLineItem = _
  unfold verifyDuplicate
  rw [if_neg (by norm_num)]
  show (if collapse (casefold "Milk") = "" ∨ collapse (casefold "Milk") = "" then _ else _) = _
  rw [if_neg hname]
  show (if exactRatio (collapse (casefold "Milk")) (collapse (casefold "Milk")) < 1 then _
    else _) = _
  rw [if_neg hratio]
  show (Decimal.absDiffLe (PyFloat.ofInt 1).toDecimal (PyFloat.ofInt 1).toDecimal (.finite 0)
    >>= _) = _
  rw [hquantity]
  exact absDiffLe_overflows

/-- **An overlap is not accepted**: the verification raises `Overflow`. -/
theorem hugePhotos_raises : hugePhotos.Grouped 2 ∧ hugePhotos.Overlaps
    ∧ hugePhotos.reconciled exactRatio 2 = .error .overflow
    ∧ ¬ hugePhotos.AcceptsExactly exactRatio 2 := by
  have hgrouped : hugePhotos.Grouped 2 := grouped_twoPhotos _ _
  have hoverlaps : hugePhotos.Overlaps := overlaps_twoPhotos _ _
  have hreconciled : hugePhotos.reconciled exactRatio 2 = .error .overflow :=
    reconciled_twoRows hgrouped rfl rfl verifyPair_hugePhotos
  refine ⟨hgrouped, hoverlaps, hreconciled, fun h => ?_⟩
  obtain ⟨r, hr⟩ := h.accepts.mpr hoverlaps
  rw [hreconciled] at hr
  exact absurd hr (by simp)

end TwoPhotos

end VisionBill
