import VisionBill.Extraction
import VisionBill.Lib.Overlap

/-!
# Reconciliation loses no purchase

A row that `reconciled` drops repeats a row of the photo before, which may
itself be dropped as a repetition of a still earlier one; the chain ends
at a kept row, and as a boundary is matched row by row, a purchase that
was really made twice is kept twice. The argument is that of
`Overlap.Cuts`, and this module connects the code to it: the groups of
candidates are the boundaries, an accepted group is a cut, and a verified
pair has one key.

Verified pairs do have one key as long as the subtraction of their totals
does not underflow. Two different totals at a distance of at most half the
smallest subnormal number count as equal, and then the dropped row is a
row of its own.

## From positions to rows

The code works with positions in one list of all rows, and the argument is
about the rows of each photo. The two are connected by `rowsOf`, the rows
of a photo with their positions: since the answer is refused unless its
rows come photo by photo, the whole list is these lists one after another,
and a set of positions is a choice from each of them. What the loop has
marked is then, photo by photo, a beginning (`mem_removed_iff`), and what
is kept is the rest (`part_keptRows_eq_drop`).

## What is shown

`KeepsEveryPurchase` has four parts: the fields are those of the
extraction, the kept rows come in their order, each dropped row has an
earlier kept one with the same key, and no photo shows a key more often
than it is kept. The last part is what makes the third one safe: two
bottles of milk in one photo are two bottles on the receipt.

The two examples at the end are one boundary of one row each. With equal
totals the later row goes; with totals that differ by an amount below what
the context can represent it goes as well, and that purchase is lost.
-/

namespace VisionBill

section Reconciliation

variable [CaseFolding]

/-! ## What a verified pair has in common

A pair that is verified has one name and quantities and totals whose
difference is nothing after rounding. For ordinary numbers that means that
they are equal. -/

/-- The key of a row: its description up to whitespace and case, its
quantity and its total. Rows of one key are taken for the same printed
line. -/
def rowKey (item : LineItem) : String × PyFloat × ℚ :=
  (comparedName item, item.quantity, item.totalPrice)

/-- Two totals that differ, by too little for their difference to be
represented. Both have to be tiny, or to agree in very many digits. -/
def TotalsUnderflow (first second : LineItem) : Prop :=
  first.totalPrice ≠ second.totalPrice
    ∧ |first.totalPrice - second.totalPrice| ≤ 1 / 2 * 10 ^ Decimal.etiny

variable {ratio : String → String → ℚ}

/-- `verify_duplicate` accepts two rows exactly if their names agree and
are not blank, and both subtractions give zero. For the quantities that
means that they are equal; for the totals it need not. -/
theorem verifyDuplicate_eq_true_iff (hratio : ∀ a b, 1 ≤ ratio a b ↔ a = b)
    (first second : LineItem) :
    verifyDuplicate ratio first second = .ok true
      ↔ comparedName first ≠ "" ∧ comparedName first = comparedName second
        ∧ Decimal.absDiffLe first.quantity.toDecimal second.quantity.toDecimal (.finite 0)
            = .ok true
        ∧ Decimal.absDiffLe (.finite first.totalPrice) (.finite second.totalPrice) (.finite 0)
            = .ok true := by
  have htolerances : ¬ (¬ ((0 : ℚ) ≤ 1 ∧ (1 : ℚ) ≤ 1) ∨ (0 : ℚ) < 0 ∨ (0 : ℚ) < 0) := by norm_num
  unfold verifyDuplicate
  rw [if_neg htolerances]
  dsimp only
  -- the checks of the function, in its order
  by_cases hname : comparedName first = "" ∨ comparedName second = ""
  · rw [if_pos hname]
    constructor
    · intro h
      exact absurd h (by simp)
    · rintro ⟨hne, heq, -⟩
      rcases hname with h | h
      · exact absurd h hne
      · exact absurd (heq.trans h) hne
  · obtain ⟨hne, -⟩ := not_or.mp hname
    rw [if_neg hname]
    by_cases heq : comparedName first = comparedName second
    · rw [if_neg (not_lt.mpr ((hratio _ _).mpr heq))]
      rcases hq : Decimal.absDiffLe first.quantity.toDecimal second.quantity.toDecimal
        (.finite 0) with e | same
      · simp [bind, Except.bind]
      · rw [← heq]
        cases same <;> simp [bind, Except.bind, hne]
    · rw [if_pos (lt_of_not_ge fun h => heq ((hratio _ _).mp h))]
      simp [heq]

/-- A verified pair has one key, unless its totals underflow. -/
theorem rowKey_eq_of_verifyDuplicate (hratio : ∀ a b, 1 ≤ ratio a b ↔ a = b)
    {first second : LineItem} (h : verifyDuplicate ratio first second = .ok true)
    (hu : ¬ TotalsUnderflow first second) : rowKey first = rowKey second := by
  obtain ⟨-, hname, hquantity, htotal⟩ := (verifyDuplicate_eq_true_iff hratio _ _).mp h
  have hclose := (Decimal.absDiffLe_zero_iff _ _).mp htotal
  have hsame : first.totalPrice = second.totalPrice := by
    by_contra hne
    exact hu ⟨hne, hclose⟩
  unfold rowKey
  rw [hname, Decimal.absDiffLe_zero_toDecimal hquantity, hsame]

/-! ## Grouping the candidates

A group has the pairs of one boundary, in the order in which they came.
Every pair is in one group, and each group is looked at once. -/

omit [CaseFolding] in
/-- The pairs collected for a photo. -/
def Groups.get (source : ℕ) : Groups → List (ℕ × ℕ)
  | [] => []
  | (s, pairs) :: groups => if s = source then pairs else Groups.get source groups

omit [CaseFolding] in
theorem Groups.get_append (source t : ℕ) (pair : ℕ × ℕ) (groups : Groups) :
    (groups.append source pair).get t
      = if t = source then groups.get source ++ [pair] else groups.get t := by
  induction groups with
  | nil => simp [Groups.append, Groups.get, eq_comm]
  | cons group groups ih =>
    obtain ⟨s, pairs⟩ := group
    unfold Groups.append
    by_cases hs : s = source
    · subst hs
      by_cases ht : t = s
      · subst ht
        simp [Groups.get]
      · simp [Groups.get, ht, Ne.symm ht]
    · rw [if_neg hs, Groups.get, ih]
      by_cases ht : t = source
      · subst ht
        simp [Groups.get, hs]
      · by_cases hst : s = t <;> simp [Groups.get, ht, hst]

omit [CaseFolding] in
theorem Groups.map_fst_append (source : ℕ) (pair : ℕ × ℕ) (groups : Groups) :
    (groups.append source pair).map Prod.fst
      = if source ∈ groups.map Prod.fst then groups.map Prod.fst
        else groups.map Prod.fst ++ [source] := by
  induction groups with
  | nil => simp [Groups.append]
  | cons group groups ih =>
    obtain ⟨s, pairs⟩ := group
    unfold Groups.append
    by_cases hs : s = source
    · simp [hs]
    · simp only [if_neg hs, List.map_cons, ih, List.mem_cons, Ne.symm hs, false_or,
        List.cons_append]
      split <;> rfl

omit [CaseFolding] in
theorem Groups.get_eq_of_mem {source : ℕ} {pairs : List (ℕ × ℕ)} {groups : Groups}
    (hnodup : (groups.map Prod.fst).Nodup) (h : (source, pairs) ∈ groups) :
    groups.get source = pairs := by
  induction groups with
  | nil => exact absurd h List.not_mem_nil
  | cons group groups ih =>
    obtain ⟨s, ps⟩ := group
    rw [List.map_cons, List.nodup_cons] at hnodup
    rcases List.mem_cons.mp h with heq | h
    · obtain ⟨rfl, rfl⟩ := Prod.mk.inj heq
      exact if_pos rfl
    · have hne : s ≠ source := fun hs =>
        hnodup.1 (List.mem_map.mpr ⟨_, h, hs.symm⟩)
      rw [Groups.get, if_neg hne, ih hnodup.2 h]

omit [CaseFolding] in
theorem Groups.mem_of_get_ne_nil {source : ℕ} {groups : Groups} (h : groups.get source ≠ []) :
    (source, groups.get source) ∈ groups := by
  induction groups with
  | nil => exact absurd rfl h
  | cons group groups ih =>
    obtain ⟨s, ps⟩ := group
    unfold Groups.get at h ⊢
    split
    · next hs =>
      subst hs
      exact List.mem_cons_self
    · next hs =>
      rw [if_neg hs] at h
      exact List.mem_cons_of_mem _ (ih h)

omit [CaseFolding] in
/-- The candidates whose first row lies in a photo. -/
def pairsFrom (sources : List ℕ) (candidates : List DuplicateCandidate) (source : ℕ) :
    List (ℕ × ℕ) :=
  (candidates.filter (fun c => sources.getD c.firstIndex 0 = source)).map
    (fun c => (c.firstIndex, c.secondIndex))

omit [CaseFolding] in
/-- The groups hold the candidates processed so far, by photo. The loop
over the candidates keeps this, so the order in which photos are met does
not matter. -/
structure Collects (sources : List ℕ) (processed : List DuplicateCandidate) (groups : Groups) :
    Prop where
  nodup : (groups.map Prod.fst).Nodup
  get : ∀ s, groups.get s = pairsFrom sources processed s

omit [CaseFolding] in
theorem Collects.append {sources : List ℕ} {processed : List DuplicateCandidate}
    {groups : Groups} (h : Collects sources processed groups) (c : DuplicateCandidate) :
    Collects sources (processed ++ [c])
      (groups.append (sources.getD c.firstIndex 0) (c.firstIndex, c.secondIndex)) := by
  constructor
  · rw [Groups.map_fst_append]
    split
    · exact h.nodup
    · next hnew => exact List.nodup_append.mpr ⟨h.nodup, List.nodup_singleton _, by
        rintro a ha b hb rfl
        rw [List.mem_singleton] at hb
        exact hnew (hb ▸ ha)⟩
  · intro s
    rw [Groups.get_append, h.get, h.get]
    unfold pairsFrom
    rw [List.filter_append, List.map_append]
    split
    · next hs =>
      simp only [hs, List.filter_cons, List.filter_nil, decide_true, if_true, List.map_cons,
        List.map_nil]
    · next hs =>
      simp only [List.filter_cons, List.filter_nil, decide_eq_true_eq, Ne.symm hs, if_false,
        List.map_nil, List.append_nil]

omit [CaseFolding] in
/-- The loop over the candidates collects them all. The candidates that
were met before are generalised, since the groups so far are theirs. -/
theorem Collects.foldlM {sources : List ℕ} {candidates processed : List DuplicateCandidate}
    {groups groups' : Groups} (h : Collects sources processed groups)
    (hfold : candidates.foldlM (groupCandidate sources) groups = .ok groups') :
    Collects sources (processed ++ candidates) groups' := by
  induction candidates generalizing processed groups with
  | nil =>
    rw [List.foldlM_nil] at hfold
    obtain rfl := Except.ok.inj hfold
    rwa [List.append_nil]
  | cons c candidates ih =>
    rw [List.foldlM_cons] at hfold
    unfold groupCandidate at hfold
    dsimp only at hfold
    split at hfold
    · exact absurd hfold (by simp [bind, Except.bind])
    · split at hfold
      · exact absurd hfold (by simp [bind, Except.bind])
      · have := ih (h.append c) hfold
        rwa [List.append_assoc, List.singleton_append] at this

namespace MultiImageReceipt

variable {m : MultiImageReceipt}

/-- The candidate pairs of the boundary after a photo. -/
def boundaryPairs (m : MultiImageReceipt) (source : ℕ) : List (ℕ × ℕ) :=
  pairsFrom m.sources m.duplicateCandidates source

/-- Every pair of the boundary is verified. -/
def Accepted (ratio : String → String → ℚ) (m : MultiImageReceipt) (source : ℕ) : Prop :=
  ∀ pair ∈ m.boundaryPairs source, m.verifyPair ratio pair = .ok true

/-- No pair of a boundary that is accepted has totals that underflow. It
is a condition on the answer of the model alone; the predicates in it are
those of the comparison. -/
def NoUnderflow (ratio : String → String → ℚ) (m : MultiImageReceipt) : Prop :=
  ∀ source, m.Accepted ratio source → ∀ pair ∈ m.boundaryPairs source,
    ∀ first second, m.lineItems[pair.1]? = some first → m.lineItems[pair.2]? = some second →
      ¬ TotalsUnderflow first.toLineItem second.toLineItem

/-! ## Marking the repeated rows -/

theorem allVerified_eq_true_iff (pairs : List (ℕ × ℕ)) :
    m.allVerified ratio pairs = .ok true ↔ ∀ pair ∈ pairs, m.verifyPair ratio pair = .ok true := by
  induction pairs with
  | nil => simp [allVerified]
  | cons pair pairs ih =>
    rw [List.forall_mem_cons, ← ih, allVerified]
    rcases m.verifyPair ratio pair with e | verified
    · simp [bind, Except.bind]
    · cases verified <;> simp [bind, Except.bind]

/-- A group that passes is an ordered overlap; its later rows are marked
if every pair is verified, and nothing is marked otherwise. -/
theorem reconcileGroup_eq_ok {removed removed' : List ℕ} {group : ℕ × List (ℕ × ℕ)}
    (h : m.reconcileGroup ratio removed group = .ok removed') :
    group.2.mergeSort tupleLe = expectedPairs m.sources group.1 group.2.length
      ∧ ∀ i, i ∈ removed' ↔ i ∈ removed ∨ (∀ pair ∈ group.2, m.verifyPair ratio pair = .ok true)
          ∧ i ∈ (group.2.mergeSort tupleLe).map Prod.snd := by
  have hverified : m.allVerified ratio (group.2.mergeSort tupleLe) = .ok true ↔ _ :=
    allVerified_eq_true_iff _
  simp only [List.mem_mergeSort] at hverified
  unfold reconcileGroup at h
  dsimp only at h
  rw [List.length_mergeSort] at h
  split at h
  · exact absurd h (by simp [throw, throwThe, MonadExceptOf.throw, bind, Except.bind])
  · next hexpected =>
    refine ⟨not_not.mp hexpected, ?_⟩
    rcases hall : m.allVerified ratio (group.2.mergeSort tupleLe) with e | verified
    · rw [hall] at h
      exact absurd h (by simp [bind, Except.bind])
    · rw [hall] at h hverified
      intro i
      cases verified with
      | true =>
        obtain rfl := Except.ok.inj h
        rw [List.mem_append, and_iff_right (hverified.mp rfl)]
      | false =>
        obtain rfl := Except.ok.inj h
        have hnot : ¬ ∀ pair ∈ group.2, m.verifyPair ratio pair = .ok true := fun hall' =>
          absurd (hverified.mpr hall') (by simp)
        rw [or_iff_left (fun h' => hnot h'.1)]

theorem foldlM_reconcileGroup {groups : Groups} {removed removed' : List ℕ}
    (h : groups.foldlM (m.reconcileGroup ratio) removed = .ok removed') :
    (∀ group ∈ groups,
        group.2.mergeSort tupleLe = expectedPairs m.sources group.1 group.2.length)
      ∧ ∀ i, i ∈ removed' ↔ i ∈ removed
          ∨ ∃ group ∈ groups, (∀ pair ∈ group.2, m.verifyPair ratio pair = .ok true)
            ∧ i ∈ (group.2.mergeSort tupleLe).map Prod.snd := by
  induction groups generalizing removed with
  | nil =>
    rw [List.foldlM_nil] at h
    obtain rfl := Except.ok.inj h
    simp
  | cons group groups ih =>
    rw [List.foldlM_cons] at h
    rcases hg : m.reconcileGroup ratio removed group with e | next
    · rw [hg] at h
      exact absurd h (by simp [bind, Except.bind])
    · rw [hg] at h
      obtain ⟨hexp, hmem⟩ := reconcileGroup_eq_ok hg
      obtain ⟨hexps, hmems⟩ := ih h
      refine ⟨List.forall_mem_cons.mpr ⟨hexp, hexps⟩, fun i => ?_⟩
      rw [hmems, hmem, List.exists_mem_cons_iff, or_assoc]

/-! ## Boundaries as cuts

At each boundary a number of rows is cut off the beginning of a photo. A
row is kept if it is cut off by no boundary, and one that is cut off has
an equal one in the photo before. -/

/-- How many rows the boundary before a photo drops from it. -/
noncomputable def cut (ratio : String → String → ℚ) (m : MultiImageReceipt) : ℕ → ℕ
  | 0 => 0
  | s + 1 => open Classical in if m.Accepted ratio s then (m.boundaryPairs s).length else 0

theorem cut_of_accepted {s : ℕ} (h : m.Accepted ratio s) :
    m.cut ratio (s + 1) = (m.boundaryPairs s).length := if_pos h

theorem cut_of_not_accepted {s : ℕ} (h : ¬ m.Accepted ratio s) : m.cut ratio (s + 1) = 0 :=
  if_neg h

/-- For rows grouped in photo order, `reconciled` goes on to the
candidates. -/
theorem removedRows_of_sorted {imageCount : ℤ}
    (h : ¬ (m.sources ≠ m.sources.mergeSort ∨ ∃ source ∈ m.sources, imageCount ≤ source)) :
    m.removedRows ratio imageCount = (do
      let groups ← m.duplicateCandidates.foldlM (groupCandidate m.sources) []
      groups.foldlM (m.reconcileGroup ratio) []) := by
  unfold removedRows
  rw [if_neg h]

/-- What a run of `reconciled` establishes about the rows it removes. It
ended without an error, so each photo had the pairs that it was expected
to have. -/
theorem removedRows_eq_ok {imageCount : ℤ} {removed : List ℕ}
    (h : m.removedRows ratio imageCount = .ok removed) :
    (∀ s, m.boundaryPairs s ≠ [] → (m.boundaryPairs s).mergeSort tupleLe
        = expectedPairs m.sources s (m.boundaryPairs s).length)
      ∧ ∀ i, i ∈ removed ↔ ∃ s, m.Accepted ratio s
          ∧ i ∈ ((m.boundaryPairs s).mergeSort tupleLe).map Prod.snd := by
  unfold removedRows at h
  split at h
  · exact absurd h (by simp [throw, throwThe, MonadExceptOf.throw, bind, Except.bind])
  rcases hg : m.duplicateCandidates.foldlM (groupCandidate m.sources) [] with e | groups
  · rw [hg] at h
    exact absurd h (by simp [bind, Except.bind])
  rw [hg] at h
  -- the groups are those of the photos, whatever order they were made in
  have hstart : Collects m.sources [] [] := ⟨List.nodup_nil, fun _ => rfl⟩
  have hcollects : Collects m.sources m.duplicateCandidates groups := hstart.foldlM hg
  have hget : ∀ s, groups.get s = m.boundaryPairs s := hcollects.get
  obtain ⟨hexp, hmem⟩ := foldlM_reconcileGroup h
  constructor
  · intro s hs
    rw [← hget] at hs ⊢
    exact hexp _ (Groups.mem_of_get_ne_nil hs)
  · intro i
    rw [hmem, or_iff_right List.not_mem_nil]
    constructor
    · rintro ⟨⟨s, pairs⟩, hgroup, hver, hi⟩
      have hpairs : m.boundaryPairs s = pairs :=
        (hget s).symm.trans (Groups.get_eq_of_mem hcollects.nodup hgroup)
      refine ⟨s, fun pair hpair => hver pair (hpairs ▸ hpair), ?_⟩
      rwa [hpairs]
    · rintro ⟨s, hver, hi⟩
      have hne : groups.get s ≠ [] := by
        rw [hget]
        rintro hnil
        rw [hnil] at hi
        exact absurd hi (by simp)
      refine ⟨_, Groups.mem_of_get_ne_nil hne, ?_, ?_⟩
      · rw [hget]
        exact hver
      · rw [hget]
        exact hi

/-- The rows of a photo, with their positions. -/
def rowsOf (m : MultiImageReceipt) (source : ℕ) : List (SourceLineItem × ℕ) :=
  m.lineItems.zipIdx.filter (fun row => row.1.sourceImage = source)

theorem positions_sources (m : MultiImageReceipt) (s : ℕ) :
    positions m.sources s = (m.rowsOf s).map Prod.snd := by
  unfold positions sources rowsOf
  rw [List.zipIdx_map, List.filter_map, List.map_map]
  rfl

theorem part_lineItems (m : MultiImageReceipt) (s : ℕ) :
    Overlap.part SourceLineItem.sourceImage s m.lineItems = (m.rowsOf s).map Prod.fst := by
  unfold Overlap.part rowsOf
  conv_lhs => rw [← List.zipIdx_map_fst 0 m.lineItems]
  rw [List.filter_map]
  rfl

theorem part_keptRows (m : MultiImageReceipt) (removed : List ℕ) (s : ℕ) :
    Overlap.part SourceLineItem.sourceImage s (m.keptRows removed)
      = ((m.rowsOf s).filter (fun row => row.2 ∉ removed)).map Prod.fst := by
  unfold Overlap.part keptRows rowsOf
  rw [List.filter_map, List.filter_filter, List.filter_filter]
  congr 1
  exact List.filter_congr fun row _ => Bool.and_comm _ _

theorem nodup_rowsOf (m : MultiImageReceipt) (s : ℕ) : ((m.rowsOf s).map Prod.snd).Nodup := by
  have hall : (m.lineItems.zipIdx.map Prod.snd).Nodup := by
    rw [List.zipIdx_map_snd]
    exact List.nodup_range'
  exact hall.sublist (List.filter_sublist.map Prod.snd)

/-- A position belongs to one row. -/
theorem rowsOf_unique {s t : ℕ} {row row' : SourceLineItem × ℕ} (h : row ∈ m.rowsOf s)
    (h' : row' ∈ m.rowsOf t) (heq : row.2 = row'.2) : s = t := by
  obtain ⟨hmem, hs⟩ := List.mem_filter.mp h
  obtain ⟨hmem', ht⟩ := List.mem_filter.mp h'
  have hget := List.mem_zipIdx_iff_getElem?.mp hmem
  rw [heq, List.mem_zipIdx_iff_getElem?.mp hmem'] at hget
  rw [← of_decide_eq_true hs, ← of_decide_eq_true ht, Option.some.inj hget]

/-- The boundary after a photo, if it has candidates, is the end of that
photo against the beginning of the next. That is what the check of a group
against its expected pairs comes to. -/
theorem boundary_overlap {imageCount : ℤ} {removed : List ℕ}
    (h : m.removedRows ratio imageCount = .ok removed) (s : ℕ) :
    (m.boundaryPairs s).length ≤ (m.rowsOf s).length
      ∧ (m.boundaryPairs s).length ≤ (m.rowsOf (s + 1)).length
      ∧ (m.boundaryPairs s).mergeSort tupleLe
        = ((lastN (m.boundaryPairs s).length (m.rowsOf s)).zip
            ((m.rowsOf (s + 1)).take (m.boundaryPairs s).length)).map
              (Prod.map Prod.snd Prod.snd) := by
  by_cases hnil : m.boundaryPairs s = []
  · simp [hnil]
  · have hsorted := (removedRows_eq_ok h).1 s hnil
    have hlen := congrArg List.length hsorted
    unfold expectedPairs lastN at hlen hsorted
    rw [positions_sources, positions_sources] at hlen hsorted
    rw [List.length_mergeSort] at hlen
    simp only [List.length_zip, List.length_drop, List.length_map, List.length_take] at hlen
    refine ⟨by omega, by omega, ?_⟩
    rw [hsorted, ← List.zip_map]
    unfold lastN
    rw [List.length_map, List.map_drop, List.map_take]

/-- The removed positions are the cut-off beginnings of the photos: how
many rows go is decided at the boundary before a photo, and by nothing
else. -/
theorem mem_removed_iff {imageCount : ℤ} {removed : List ℕ}
    (h : m.removedRows ratio imageCount = .ok removed) (i : ℕ) :
    i ∈ removed ↔ ∃ s, i ∈ ((m.rowsOf (s + 1)).take (m.cut ratio (s + 1))).map Prod.snd := by
  rw [(removedRows_eq_ok h).2]
  refine exists_congr fun s => ?_
  obtain ⟨hl, hr, hsorted⟩ := boundary_overlap h s
  have hsnd : ((m.boundaryPairs s).mergeSort tupleLe).map Prod.snd
      = ((m.rowsOf (s + 1)).take (m.boundaryPairs s).length).map Prod.snd := by
    rw [hsorted, List.map_map, show Prod.snd ∘ Prod.map Prod.snd Prod.snd
      = (Prod.snd : SourceLineItem × ℕ → ℕ) ∘ (Prod.snd : (SourceLineItem × ℕ) × _ → _) from rfl,
      ← List.map_map, List.map_snd_zip]
    unfold lastN
    rw [List.length_take, List.length_drop]
    omega
  by_cases hacc : m.Accepted ratio s
  · rw [cut_of_accepted hacc, hsnd, and_iff_right hacc]
  · rw [cut_of_not_accepted hacc, List.take_zero, List.map_nil]
    exact iff_of_false (fun h' => hacc h'.1) List.not_mem_nil

omit [CaseFolding] in
theorem filter_notMem_take {α : Type} {l : List (α × ℕ)} (hl : (l.map Prod.snd).Nodup) (c : ℕ) :
    l.filter (fun x => x.2 ∉ (l.take c).map Prod.snd) = l.drop c := by
  have hdisjoint := hl
  rw [← List.take_append_drop c l, List.map_append, List.nodup_append] at hdisjoint
  conv_lhs => rw [← List.take_append_drop c l]
  rw [List.filter_append, List.filter_eq_nil_iff.mpr, List.nil_append, List.filter_eq_self.mpr]
  · intro x hx
    refine decide_eq_true fun hx' => ?_
    rw [List.take_append_drop] at hx'
    exact hdisjoint.2.2 _ hx' _ (List.mem_map_of_mem hx) rfl
  · intro x hx
    rw [List.take_append_drop]
    simpa using List.mem_map_of_mem (f := Prod.snd) hx

/-- What is kept of a photo is what the cut leaves. Positions are removed
by the code, and prefixes of photos are cut off in the library; they are
the same rows. -/
theorem part_keptRows_eq_drop {imageCount : ℤ} {removed : List ℕ}
    (h : m.removedRows ratio imageCount = .ok removed) (t : ℕ) :
    Overlap.part SourceLineItem.sourceImage t (m.keptRows removed)
      = (Overlap.part SourceLineItem.sourceImage t m.lineItems).drop (m.cut ratio t) := by
  rw [part_keptRows, part_lineItems, ← List.map_drop,
    ← filter_notMem_take (m.nodup_rowsOf t) (m.cut ratio t)]
  congr 1
  refine List.filter_congr fun row hrow => ?_
  rw [decide_eq_decide, not_iff_not, mem_removed_iff h]
  constructor
  · rintro ⟨s, hs⟩
    obtain ⟨row', hrow', heq⟩ := List.mem_map.mp hs
    have hst : t = s + 1 := rowsOf_unique hrow (List.mem_of_mem_take hrow') heq.symm
    rwa [hst]
  · intro hrow'
    cases t with
    | zero => exact absurd hrow' (by simp [cut])
    | succ s => exact ⟨s, hrow'⟩

omit [CaseFolding] in
theorem map_eq_map_of_zip {α β γ : Type} {f : α → γ} {g : β → γ} {l : List α} {l' : List β}
    (hlen : l.length = l'.length) (h : ∀ p ∈ l.zip l', f p.1 = g p.2) : l.map f = l'.map g := by
  induction l generalizing l' with
  | nil => rw [List.length_eq_zero_iff.mp hlen.symm, List.map_nil, List.map_nil]
  | cons a l ih =>
    cases l' with
    | nil => exact absurd hlen (by simp)
    | cons b l' =>
      rw [List.zip_cons_cons, List.forall_mem_cons] at h
      rw [List.map_cons, List.map_cons, h.1, ih (Nat.succ.inj hlen) h.2]

/-- **Reconciliation cuts off repeated rows**, if no accepted boundary
hides an underflow. The rows of a boundary are matched one to one, each
with the key of its partner, which is what the library asks of a cut. -/
theorem cuts (hratio : ∀ a b, 1 ≤ ratio a b ↔ a = b) (hu : m.NoUnderflow ratio)
    {imageCount : ℤ} {removed : List ℕ} (h : m.removedRows ratio imageCount = .ok removed) :
    Overlap.Cuts SourceLineItem.sourceImage (fun row => rowKey row.toLineItem)
      (m.cut ratio) m.lineItems (m.keptRows removed) where
  cut_zero := rfl
  kept_part := part_keptRows_eq_drop h
  repeats s := by
    rw [part_lineItems, part_lineItems]
    by_cases hacc : m.Accepted ratio s
    · rw [cut_of_accepted hacc]
      obtain ⟨hl, hr, hsorted⟩ := boundary_overlap h s
      have hkeys : (lastN (m.boundaryPairs s).length (m.rowsOf s)).map
            (fun row => rowKey row.1.toLineItem)
          = ((m.rowsOf (s + 1)).take (m.boundaryPairs s).length).map
            (fun row => rowKey row.1.toLineItem) := by
        refine map_eq_map_of_zip ?_ fun p hp => ?_
        · unfold lastN
          rw [List.length_drop, List.length_take]
          omega
        · -- a pair of the overlap is a candidate, and so verified
          have hpair : (p.1.2, p.2.2) ∈ m.boundaryPairs s := by
            have hsortedPair : (p.1.2, p.2.2) ∈ (m.boundaryPairs s).mergeSort tupleLe := by
              rw [hsorted]
              exact List.mem_map.mpr ⟨p, hp, rfl⟩
            exact List.mem_mergeSort.mp hsortedPair
          obtain ⟨hp₁, hp₂⟩ := List.of_mem_zip hp
          have hfirst := List.mem_zipIdx_iff_getElem?.mp
            (List.mem_of_mem_filter (List.mem_of_mem_drop hp₁))
          have hsecond := List.mem_zipIdx_iff_getElem?.mp
            (List.mem_of_mem_filter (List.mem_of_mem_take hp₂))
          have hver := hacc _ hpair
          unfold verifyPair at hver
          rw [hfirst, hsecond] at hver
          exact rowKey_eq_of_verifyDuplicate hratio hver
            (hu s hacc _ hpair _ _ hfirst hsecond)
      rw [← List.map_take, List.map_map, List.map_map]
      have hlast : ((lastN (m.boundaryPairs s).length (m.rowsOf s)).map
          (fun row => rowKey row.1.toLineItem)).Sublist
          ((m.rowsOf s).map (fun row => rowKey row.1.toLineItem)) :=
        (List.drop_sublist _ _).map _
      rw [hkeys] at hlast
      exact hlast
    · rw [cut_of_not_accepted hacc, List.take_zero, List.map_nil]
      exact List.nil_sublist _

/-! ## The result

What is kept is a part of the rows in their order; everything that was
left out repeats a row of an earlier photo; and of equal rows at least as
many are kept as any single photo shows. -/

/-- No purchase is lost: the receipt has the fields of the extraction, its
line items are the kept rows in their order, every row that was dropped
has a kept row with its key in an earlier photo, and no photo has more
rows with a key than are kept. -/
structure KeepsEveryPurchase (m : MultiImageReceipt) (removed : List ℕ) (r : Receipt) : Prop where
  fields : r.toReceiptFields = m.toReceiptFields
  lineItems : r.lineItems = (m.keptRows removed).map SourceLineItem.toLineItem
  order : (m.keptRows removed).Sublist m.lineItems
  dropped : ∀ i row, m.lineItems[i]? = some row → i ∈ removed →
    ∃ row' ∈ m.keptRows removed, rowKey row'.toLineItem = rowKey row.toLineItem
      ∧ row'.sourceImage < row.sourceImage
  repeated : ∀ key s, m.lineItems.countP
      (fun row => rowKey row.toLineItem = key && row.sourceImage = s)
    ≤ (m.keptRows removed).countP (fun row => rowKey row.toLineItem = key)

/-- What `reconciled` returns, it assembles from the kept rows. The copy
is validated again on the way, which changes nothing. -/
theorem reconciled_eq_ok {imageCount : ℤ} {r : Receipt}
    (h : m.reconciled ratio imageCount = .ok r) :
    ∃ removed, m.removedRows ratio imageCount = .ok removed
      ∧ r.toReceiptFields = m.toReceiptFields
      ∧ r.lineItems = (m.keptRows removed).map SourceLineItem.toLineItem := by
  unfold reconciled at h
  rcases hr : m.removedRows ratio imageCount with e | removed
  · rw [hr] at h
    exact absurd h (by simp [bind, Except.bind])
  · rw [hr] at h
    have hdump : (m.keptRows removed).map (fun item => item.toLineItem.modelDump)
        = ((m.keptRows removed).map SourceLineItem.toLineItem).map LineItem.modelDump := by
      rw [List.map_map]
      rfl
    simp only [bind, Except.bind, hdump, Receipt.modelValidate_dump] at h
    obtain rfl := Except.ok.inj h
    exact ⟨removed, rfl, rfl, rfl⟩

/-- **Reconciliation loses no purchase**, unless the totals of a pair it
relies on underflow. Whatever the model proposes, and however many photos
there are: an answer that is not accepted is an error and no receipt. -/
theorem reconciled_keepsEveryPurchase (hratio : ∀ a b, 1 ≤ ratio a b ↔ a = b)
    (m : MultiImageReceipt) (hu : m.NoUnderflow ratio) (imageCount : ℤ) (r : Receipt)
    (h : m.reconciled ratio imageCount = .ok r) :
    ∃ removed, m.removedRows ratio imageCount = .ok removed ∧ m.KeepsEveryPurchase removed r := by
  obtain ⟨removed, hremoved, hfields, hitems⟩ := reconciled_eq_ok h
  have hcuts := cuts hratio hu hremoved
  refine ⟨removed, hremoved, hfields, hitems, ?_, ?_, ?_⟩
  · conv_rhs => rw [← List.zipIdx_map_fst 0 m.lineItems]
    exact List.filter_sublist.map Prod.fst
  · intro i row hrow hi
    obtain ⟨s, hs⟩ := (mem_removed_iff hremoved i).mp hi
    obtain ⟨⟨row', j⟩, hmem, rfl⟩ := List.mem_map.mp hs
    have hmem' := List.mem_of_mem_take hmem
    have hget := List.mem_zipIdx_iff_getElem?.mp (List.mem_of_mem_filter hmem')
    obtain rfl : row = row' := Option.some.inj (hrow.symm.trans hget)
    have hsource : row.sourceImage = s + 1 := of_decide_eq_true (List.mem_filter.mp hmem').2
    have hlost : row ∈ (Overlap.part SourceLineItem.sourceImage (s + 1) m.lineItems).take
        (m.cut ratio (s + 1)) := by
      rw [part_lineItems, ← List.map_take]
      exact List.mem_map_of_mem hmem
    rw [hsource]
    exact hcuts.exists_kept_of_lost hlost
  · intro key s
    rw [Overlap.Cuts.countP_part]
    refine (hcuts.countP_le key s).trans (List.countP_mono_left fun row _ hrow => ?_)
    exact (Bool.and_eq_true_iff.mp hrow).1

end MultiImageReceipt

end Reconciliation

/-! ## A boundary of one row

One row in each of two photos, proposed as the same printed line. -/

section TwoPhotos

open MultiImageReceipt

local instance : CaseFolding := asciiFolding

/-- A ratio that tells equal names from all others. -/
def exactRatio (a b : String) : ℚ := if a = b then 1 else 0

theorem one_le_exactRatio_iff (a b : String) : 1 ≤ exactRatio a b ↔ a = b := by
  unfold exactRatio
  split_ifs with h <;> simp [h]

/-- One bottle of milk, as a photo shows it. -/
def milkRow (source : ℕ) (total : ℚ) : SourceLineItem where
  description := "Milk"
  spendingCategory := .milk
  quantity := .ofInt 1
  unitPrice := total
  totalPrice := total
  tags := []
  quantity_pos := isPos_one
  tags_normal := rfl
  sourceImage := source

/-- Two photos with a bottle of milk each, which the model takes for
one. -/
def twoPhotos (first second : ℚ) : MultiImageReceipt where
  toReceiptFields := emptyFields
  lineItems := [milkRow 0 first, milkRow 1 second]
  duplicateCandidates := [⟨0, 1⟩]

theorem reconciled_twoPhotos {first second : ℚ}
    (h : |first - second| ≤ 1 / 2 * 10 ^ Decimal.etiny) :
    (twoPhotos first second).removedRows exactRatio 2 = .ok [1]
      ∧ (twoPhotos first second).reconciled exactRatio 2
        = .ok { toReceiptFields := emptyFields, lineItems := [(milkRow 0 first).toLineItem] } := by
  have hver : (twoPhotos first second).verifyPair exactRatio (0, 1) = .ok true := by
    refine (verifyDuplicate_eq_true_iff one_le_exactRatio_iff _ _).mpr ⟨?_, rfl, ?_, ?_⟩
    · show collapse (casefold "Milk") ≠ ""
      decide
    · refine (Decimal.absDiffLe_zero_iff _ _).mpr ?_
      rw [sub_self, abs_zero]
      exact Decimal.half_etiny_nonneg
    · exact (Decimal.absDiffLe_zero_iff _ _).mpr h
  have hremoved : (twoPhotos first second).removedRows exactRatio 2 = .ok [1] := by
    have hsort : [0, 1].mergeSort = [0, 1] := List.mergeSort_of_pairwise (by decide)
    have hsources : (twoPhotos first second).sources = [0, 1] := rfl
    have hgroups : (twoPhotos first second).duplicateCandidates.foldlM (groupCandidate [0, 1]) []
        = .ok [(0, [(0, 1)])] := rfl
    have hgroup : (twoPhotos first second).reconcileGroup exactRatio [] (0, [(0, 1)])
        = .ok [1] := by
      have hexpected : expectedPairs [0, 1] 0 1 = [(0, 1)] := by decide
      unfold reconcileGroup
      rw [List.mergeSort_singleton, hsources]
      simp only [List.length_singleton, hexpected, allVerified, hver]
      rfl
    have hsorted : ¬ ((twoPhotos first second).sources ≠ (twoPhotos first second).sources.mergeSort
        ∨ ∃ source ∈ (twoPhotos first second).sources, (2 : ℤ) ≤ source) := by
      rw [hsources, hsort]
      decide
    rw [removedRows_of_sorted hsorted, hsources, hgroups]
    show ((twoPhotos first second).reconcileGroup exactRatio [] (0, [(0, 1)])
      >>= fun removed => pure removed) = _
    rw [hgroup]
    rfl
  refine ⟨hremoved, ?_⟩
  unfold reconciled
  rw [hremoved]
  exact Receipt.modelValidate_dump emptyFields [(milkRow 0 first).toLineItem]

/-- Equal totals: the second row is dropped, and nothing is lost. The
distance is zero, not only rounded to it. -/
theorem twoPhotos_keepsEveryPurchase :
    ∃ removed r, (twoPhotos 1 1).reconciled exactRatio 2 = .ok r
      ∧ (twoPhotos 1 1).removedRows exactRatio 2 = .ok removed
      ∧ (twoPhotos 1 1).KeepsEveryPurchase removed r := by
  have hclose : |(1 : ℚ) - 1| ≤ 1 / 2 * 10 ^ Decimal.etiny := by
    rw [sub_self, abs_zero]
    exact Decimal.half_etiny_nonneg
  have h := (reconciled_twoPhotos hclose).2
  have hu : (twoPhotos 1 1).NoUnderflow exactRatio := by
    rintro source - pair hpair first second hfirst hsecond ⟨hne, -⟩
    have hpair' : pair = (0, 1) := by
      obtain ⟨c, hc, rfl⟩ := List.mem_map.mp hpair
      rw [List.mem_singleton.mp (List.mem_of_mem_filter hc)]
    subst hpair'
    obtain rfl := Option.some.inj hfirst
    obtain rfl := Option.some.inj hsecond
    exact hne rfl
  obtain ⟨removed, hremoved, hkeeps⟩ := reconciled_keepsEveryPurchase one_le_exactRatio_iff
    (twoPhotos 1 1) hu 2 _ h
  exact ⟨removed, _, h, hremoved, hkeeps⟩

/-- **A purchase is lost to underflow**: totals of `1E-1000030` and
`2E-1000030` differ by less than a decimal of the default context can
hold. -/
theorem twoPhotos_losesPurchase :
    ∃ r, (twoPhotos (10 ^ (-1000030 : ℤ)) (2 * 10 ^ (-1000030 : ℤ))).reconciled exactRatio 2
        = .ok r
      ∧ ¬ ∃ removed,
        (twoPhotos (10 ^ (-1000030 : ℤ)) (2 * 10 ^ (-1000030 : ℤ))).removedRows exactRatio 2
          = .ok removed
        ∧ (twoPhotos (10 ^ (-1000030 : ℤ)) (2 * 10 ^ (-1000030 : ℤ))).KeepsEveryPurchase
          removed r := by
  have hpos : (0 : ℚ) < 10 ^ (-1000030 : ℤ) := zpow_pos (by norm_num) _
  have hclose : |(10 : ℚ) ^ (-1000030 : ℤ) - 2 * 10 ^ (-1000030 : ℤ)|
      ≤ 1 / 2 * 10 ^ Decimal.etiny := by
    have hsplit : (10 : ℚ) ^ Decimal.etiny = 10 ^ (-1000030 : ℤ) * 10 ^ (4 : ℤ) := by
      rw [← zpow_add₀ (by norm_num)]
      rfl
    have hfour : (10 : ℚ) ^ (4 : ℤ) = 10000 := by norm_num
    rw [hsplit, hfour, abs_sub_comm, abs_of_pos (by linarith)]
    linarith
  obtain ⟨hremoved, h⟩ := reconciled_twoPhotos hclose
  refine ⟨_, h, ?_⟩
  rintro ⟨removed, hremoved', hkeeps⟩
  obtain rfl := Except.ok.inj (hremoved.symm.trans hremoved')
  obtain ⟨row, hrow, hkey, -⟩ := hkeeps.dropped 1 _ rfl (List.mem_singleton.mpr rfl)
  have hkept : row = milkRow 0 (10 ^ (-1000030 : ℤ)) := List.mem_singleton.mp hrow
  subst hkept
  have htotal : (10 : ℚ) ^ (-1000030 : ℤ) = 2 * 10 ^ (-1000030 : ℤ) :=
    congrArg (fun key => key.2.2) hkey
  linarith

end TwoPhotos

end VisionBill
