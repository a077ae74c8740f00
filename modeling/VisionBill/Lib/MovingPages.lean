import VisionBill.Lib.Pages
import Mathlib.Data.List.Perm.Subperm

/-!
# Reading pages of rows that change

A reader asks for one page after another, each at an offset of its own,
and stops at the first page that is shorter than it could be (`readAll`).
Rows may come and go between the pages, so what is read need not be what
there is, or ever was.

## Ranks

The rank of a row – how many rows come before it – says on which page it
is (`Listing.mem_page_iff`). A page is asked for by its position, so a row
is missed when its rank falls behind the reader, and read twice when its
rank grows past a page that was read already.

## What a reader can rely on

* Where rows are only added, ranks grow, and a row that was there from the
  beginning never slips behind the reader (`Read.subset_of_growing`).
* Where rows are only removed, ranks fall, and no row that has been read
  comes again (`Read.nodup_of_shrinking`).
* Where the rows are the same throughout, every row is read once, and the
  number of pages is known (`Read.perm_of_const`).

All of them need that no group of equal keys straddles a boundary between
pages: the order within a group is nobody's promise, and may be another
one for each page.
-/

namespace Pages

variable {α κ : Type*} [LinearOrder κ] {key : α → κ} {rows l : List α}

/-! ## Ranks -/

/-- How many rows come before a row, whatever is done with equal keys. -/
def rank (key : α → κ) (rows : List α) (x : α) : ℕ := rows.countP fun z => key x < key z

theorem rank_lt_length {x : α} (hx : x ∈ rows) : rank key rows x < rows.length := by
  refine lt_of_le_of_ne List.countP_le_length fun heq => ?_
  exact lt_irrefl _ (of_decide_eq_true (List.countP_eq_length.mp heq x hx))

/-- Where rows are only added, ranks grow. -/
theorem rank_mono {rows' : List α} (hnodup : rows.Nodup) (hsub : rows ⊆ rows') (x : α) :
    rank key rows x ≤ rank key rows' x :=
  (List.subperm_of_subset hnodup hsub).countP_le _

namespace Listing

/-- A row comes before a position where its rank does, if no group of
equal keys straddles the position. -/
theorem mem_take_iff (h : Listing key rows l) {m : ℕ} (hstraddles : ¬ Straddles key rows m)
    {x : α} (hx : x ∈ rows) : x ∈ l.take m ↔ rank key rows x < m := by
  constructor
  · intro hmem
    by_contra hlt
    have hle : m ≤ l.countP fun z => key x < key z := by
      rw [h.perm.countP_eq]
      exact not_lt.mp hlt
    have hfilter : x ∈ l.filter fun z => key x < key z := by
      rw [filter_eq_take (lt_upClosed (key x)) h.sorted]
      exact List.take_subset_take_left l hle hmem
    exact lt_irrefl _ (of_decide_eq_true (List.mem_filter.mp hfilter).2)
  · intro hlt
    have hle : rows.countP (fun z => key x ≤ key z) ≤ m :=
      not_lt.mp fun hafter => hstraddles ⟨x, hx, hlt, hafter⟩
    have hmem : x ∈ l.filter fun z => key x ≤ key z :=
      List.mem_filter.mpr ⟨h.perm.mem_iff.mpr hx, decide_eq_true le_rfl⟩
    rw [filter_eq_take (le_upClosed (key x)) h.sorted, h.perm.countP_eq] at hmem
    exact List.take_subset_take_left l hle hmem

/-- **A row is on the page on which its rank is.** No group of equal keys
crosses an end of the page, so the rank decides, and not the order within
a group, which may be another one with every request. -/
theorem mem_page_iff (h : Listing key rows l) (hnodup : rows.Nodup) {limit offset : ℕ}
    (hoffset : ¬ Straddles key rows offset) (hend : ¬ Straddles key rows (offset + limit))
    {x : α} (hx : x ∈ rows) :
    x ∈ page l limit offset ↔ offset ≤ rank key rows x ∧ rank key rows x < offset + limit := by
  have hsplit : l.take (offset + limit) = l.take offset ++ page l limit offset := List.take_add
  have hdisjoint : List.Disjoint (l.take offset) (page l limit offset) := by
    have hnodup' := (h.perm.nodup_iff.mpr hnodup).sublist (List.take_sublist (offset + limit) l)
    rw [hsplit] at hnodup'
    exact List.disjoint_of_nodup_append hnodup'
  rw [← not_lt, ← h.mem_take_iff hoffset hx, ← h.mem_take_iff hend hx, hsplit, List.mem_append]
  exact ⟨fun hmem => ⟨fun hbefore => hdisjoint hbefore hmem, .inr hmem⟩,
    fun hmem => hmem.2.resolve_left hmem.1⟩

end Listing

/-! ## The reader

It reads the pages of lists that may differ from request to request. What
it misses or reads twice is decided by what was added or removed before
the place it has come to. -/

/-- What a reader has in the end, who appends page after page and stops at
the first one that is shorter than the limit; nothing, if the pages go on
or have not come. A page that is exactly full is followed by another one,
which may be empty. -/
def readAll (limit : ℕ) : List (List α) → Option (List α)
  | [] => none
  | p :: ps =>
    if p.length < limit then if ps.isEmpty then some p else none
    else (readAll limit ps).map fun rest => p ++ rest

variable {limit : ℕ}

/-- All pages but the last one are full. The first page that is not full
is where the reader stops, so there is one such page exactly. -/
theorem readAll_eq_some {ps : List (List α)} {all : List α} (h : readAll limit ps = some all) :
    all = ps.flatten ∧ ∃ full last, ps = full ++ [last] ∧ (∀ p ∈ full, limit ≤ p.length)
      ∧ last.length < limit := by
  induction ps generalizing all with
  | nil => exact absurd h (by simp [readAll])
  | cons p ps ih =>
    unfold readAll at h
    split at h
    · next hshort =>
      split at h
      · next hempty =>
        obtain rfl := List.isEmpty_iff.mp hempty
        obtain rfl := Option.some.inj h
        exact ⟨(List.append_nil p).symm, [], p, rfl, by simp, hshort⟩
      · exact absurd h (by simp)
    · next hfull =>
      obtain ⟨rest, hrest, rfl⟩ := Option.map_eq_some_iff.mp h
      obtain ⟨rfl, full, last, rfl, hall, hlast⟩ := ih hrest
      exact ⟨rfl, p :: full, last, rfl, List.forall_mem_cons.mpr ⟨not_lt.mp hfull, hall⟩, hlast⟩

/-- Pages that were asked for one after another, each of a listing of the
rows that there were. The listings are arbitrary: what the order leaves
open may turn out differently each time. -/
structure Read (key : α → κ) (limit : ℕ) (rows : ℕ → List α) (ps : List (List α)) : Prop where
  nodup : ∀ k, (rows k).Nodup
  page : ∀ k p, ps[k]? = some p →
    ∃ l, Listing key (rows k) l ∧ p = Pages.page l limit (k * limit)
  /-- No group of equal keys straddles the beginning of a page. -/
  start : ∀ k < ps.length, ¬ Straddles key (rows k) (k * limit)
  /-- Nor does one straddle its end. -/
  stop : ∀ k < ps.length, ¬ Straddles key (rows k) (k * limit + limit)

/-- Only which rows there are matters for a group to straddle a
position. -/
theorem straddles_of_perm {rows' : List α} (h : rows.Perm rows') {position : ℕ} :
    Straddles key rows position ↔ Straddles key rows' position := by
  unfold Straddles
  simp only [h.mem_iff, h.countP_eq]

namespace Read

variable {rows : ℕ → List α} {ps : List (List α)} {all : List α}

/-- A reader cannot tell rows from the same rows in another order. -/
theorem of_perm {rows' : ℕ → List α} (h : Read key limit rows ps)
    (hperm : ∀ k, (rows k).Perm (rows' k)) : Read key limit rows' ps where
  nodup k := (hperm k).nodup_iff.mp (h.nodup k)
  page k p hp := by
    obtain ⟨l, hl, rfl⟩ := h.page k p hp
    exact ⟨l, ⟨hl.perm.trans (hperm k), hl.sorted⟩, rfl⟩
  start k hk := mt (straddles_of_perm (hperm k)).mpr (h.start k hk)
  stop k hk := mt (straddles_of_perm (hperm k)).mpr (h.stop k hk)

theorem mem_page_iff (h : Read key limit rows ps) {k : ℕ} {p : List α} (hp : ps[k]? = some p)
    {x : α} (hx : x ∈ rows k) :
    x ∈ p ↔ k * limit ≤ rank key (rows k) x ∧ rank key (rows k) x < k * limit + limit := by
  obtain ⟨l, hl, rfl⟩ := h.page k p hp
  have hk : k < ps.length := (List.getElem?_eq_some_iff.mp hp).1
  exact hl.mem_page_iff (h.nodup k) (h.start k hk) (h.stop k hk) hx

theorem mem_rows (h : Read key limit rows ps) {k : ℕ} {p : List α} (hp : ps[k]? = some p)
    {x : α} (hx : x ∈ p) : x ∈ rows k := by
  obtain ⟨l, hl, rfl⟩ := h.page k p hp
  exact hl.perm.mem_iff.mp (List.mem_of_mem_drop (List.mem_of_mem_take hx))

theorem nodup_page (h : Read key limit rows ps) {p : List α} (hp : p ∈ ps) : p.Nodup := by
  obtain ⟨k, hk⟩ := List.getElem?_of_mem hp
  obtain ⟨l, hl, rfl⟩ := h.page k p hk
  exact (hl.perm.nodup_iff.mpr (h.nodup k)).sublist
    ((List.take_sublist _ _).trans (List.drop_sublist _ _))

/-- Behind the last page there is nothing. -/
theorem length_rows_lt (h : Read key limit rows ps) {k : ℕ} {p : List α} (hp : ps[k]? = some p)
    (hshort : p.length < limit) : (rows k).length < k * limit + limit := by
  obtain ⟨l, hl, rfl⟩ := h.page k p hp
  unfold Pages.page at hshort
  rw [List.length_take, List.length_drop, hl.perm.length_eq] at hshort
  omega

/-- **Where rows are only added**, a reader gets every row that was there
from the beginning. As long as it has not got a row, the rank of the row
is not behind its position. -/
theorem subset_of_growing (h : Read key limit rows ps) (hread : readAll limit ps = some all)
    (hgrow : ∀ k, rows k ⊆ rows (k + 1)) : rows 0 ⊆ all := by
  intro x hx
  obtain ⟨rfl, full, last, hps, -, hshort⟩ := readAll_eq_some hread
  have hmem : ∀ k, x ∈ rows k := fun k => by
    induction k with
    | zero => exact hx
    | succ k ih => exact hgrow k ih
  have hpage : ∀ {k : ℕ} {p : List α}, ps[k]? = some p → x ∈ p → x ∈ ps.flatten :=
    fun hp hxp => List.mem_flatten.mpr ⟨_, List.mem_of_getElem? hp, hxp⟩
  -- a row that the reader has not got yet is never behind
  have hahead : ∀ k < ps.length, x ∈ ps.flatten ∨ k * limit ≤ rank key (rows k) x := by
    intro k
    induction k with
    | zero => exact fun _ => .inr (by simp)
    | succ k ih =>
      intro hk
      rcases ih (Nat.lt_of_succ_lt hk) with hgot | hle
      · exact .inl hgot
      have hp : ps[k]? = some ps[k] := List.getElem?_eq_getElem _
      by_cases hlt : rank key (rows k) x < k * limit + limit
      · exact .inl (hpage hp ((h.mem_page_iff hp (hmem k)).mpr ⟨hle, hlt⟩))
      · right
        calc (k + 1) * limit = k * limit + limit := Nat.succ_mul k limit
          _ ≤ rank key (rows k) x := not_lt.mp hlt
          _ ≤ rank key (rows (k + 1)) x := rank_mono (h.nodup k) (hgrow k) x
  have hlast : ps[full.length]? = some last := by
    rw [hps]
    exact List.getElem?_concat_length
  rcases hahead full.length (List.getElem?_eq_some_iff.mp hlast).1 with hgot | hle
  · exact hgot
  · have hrank : rank key (rows full.length) x < full.length * limit + limit :=
      (rank_lt_length (hmem full.length)).trans (h.length_rows_lt hlast hshort)
    exact hpage hlast ((h.mem_page_iff hlast (hmem _)).mpr ⟨hle, hrank⟩)

/-- **Where rows are only removed**, a reader gets no row twice: a row
that was read on a page has a rank before its end, and keeps one. -/
theorem nodup_of_shrinking (h : Read key limit rows ps) (hread : readAll limit ps = some all)
    (hshrink : ∀ k, rows (k + 1) ⊆ rows k) : all.Nodup ∧ all ⊆ rows 0 := by
  obtain ⟨rfl, -⟩ := readAll_eq_some hread
  have hsub : ∀ {j k : ℕ}, j ≤ k → rows k ⊆ rows j := fun hjk =>
    Nat.le_induction (List.Subset.refl _) (fun k _ ih => List.Subset.trans (hshrink k) ih) _ hjk
  constructor
  · refine List.nodup_flatten.mpr ⟨fun p hp => h.nodup_page hp, ?_⟩
    rw [List.pairwise_iff_getElem]
    intro j k hj hk hlt x hxj hxk
    have hpj : ps[j]? = some ps[j] := List.getElem?_eq_getElem hj
    have hpk : ps[k]? = some ps[k] := List.getElem?_eq_getElem hk
    have hrowk := h.mem_rows hpk hxk
    have hearly := ((h.mem_page_iff hpj (h.mem_rows hpj hxj)).mp hxj).2
    have hlate := ((h.mem_page_iff hpk hrowk).mp hxk).1
    have hfall : rank key (rows k) x ≤ rank key (rows j) x :=
      rank_mono (h.nodup k) (hsub hlt.le) x
    have hpages : j * limit + limit ≤ k * limit := by
      rw [← Nat.succ_mul]
      exact Nat.mul_le_mul_right limit hlt
    omega
  · intro x hx
    obtain ⟨p, hp, hxp⟩ := List.mem_flatten.mp hx
    obtain ⟨k, hk⟩ := List.getElem?_of_mem hp
    exact hsub (Nat.zero_le k) (h.mem_rows hk hxp)

/-- **Where nothing changes**, a reader gets every row once. -/
theorem perm_of_const (h : Read key limit (fun _ => l) ps) (hread : readAll limit ps = some all) :
    all.Perm l := by
  have hgot := h.subset_of_growing hread fun _ => List.Subset.refl _
  obtain ⟨hnodup, hsub⟩ := h.nodup_of_shrinking hread fun _ => List.Subset.refl _
  exact (List.perm_ext_iff_of_nodup hnodup (h.nodup 0)).mpr fun x => ⟨@hsub x, @hgot x⟩

/-- How many pages it takes then. There is always one more than the full
ones, and it is empty if nothing is left over. -/
theorem length_of_const (h : Read key limit (fun _ => l) ps) (hread : readAll limit ps = some all) :
    ps.length = l.length / limit + 1 := by
  obtain ⟨-, full, last, hps, hfull, hshort⟩ := readAll_eq_some hread
  have hlast : ps[full.length]? = some last := by
    rw [hps]
    exact List.getElem?_concat_length
  have hbefore : full.length * limit ≤ l.length := by
    rcases Nat.eq_zero_or_pos full.length with hzero | hpos
    · rw [hzero, Nat.zero_mul]
      exact Nat.zero_le _
    · -- the page before the last one is full
      obtain ⟨n, hn⟩ := Nat.exists_eq_add_of_le' hpos
      have hlt : n < full.length := by omega
      have hp : ps[n]? = some full[n] := by
        rw [hps, List.getElem?_append_left hlt]
        exact List.getElem?_eq_getElem hlt
      have hlength := hfull full[n] (List.getElem_mem hlt)
      obtain ⟨l', hl', hpage⟩ := h.page n _ hp
      rw [hpage] at hlength
      unfold Pages.page at hlength
      rw [List.length_take, List.length_drop, hl'.perm.length_eq] at hlength
      rw [hn, Nat.succ_mul]
      omega
  have hafter := h.length_rows_lt hlast hshort
  rw [hps, List.length_append, List.length_singleton,
    Nat.div_eq_of_lt_le hbefore (by rw [Nat.succ_mul]; exact hafter)]

end Read

/-! ## Rows by what identifies them -/

section Tags

variable {τ : Type*} {tag : α → τ} {key : τ → κ}

theorem Listing.map (h : Listing (key ∘ tag) rows l) : Listing key (rows.map tag) (l.map tag) :=
  ⟨h.perm.map tag, List.pairwise_map.mpr h.sorted⟩

theorem map_page (limit offset : ℕ) : (page l limit offset).map tag = page (l.map tag) limit offset := by
  unfold page
  rw [List.map_take, List.map_drop]

theorem straddles_map {position : ℕ} :
    Straddles key (rows.map tag) position ↔ Straddles (key ∘ tag) rows position := by
  unfold Straddles
  simp only [List.mem_map, List.countP_map, exists_exists_and_eq_and]
  exact Iff.rfl

/-- Reading is the same, whether rows are tagged before or after. -/
theorem readAll_map {ps : List (List α)} :
    readAll limit (ps.map (List.map tag)) = (readAll limit ps).map (List.map tag) := by
  induction ps with
  | nil => rfl
  | cons p ps ih =>
    rw [List.map_cons, readAll, readAll, List.length_map, List.isEmpty_map, ih]
    split
    · split <;> rfl
    · rw [Option.map_map, Option.map_map]
      refine Option.map_congr fun rest _ => ?_
      exact List.map_append.symm

/-- What is read of the rows is read of their tags, if no two rows have
one. -/
theorem Read.map {rows : ℕ → List α} {ps : List (List α)} (h : Read (key ∘ tag) limit rows ps)
    (hnodup : ∀ k, ((rows k).map tag).Nodup) :
    Read key limit (fun k => (rows k).map tag) (ps.map (List.map tag)) where
  nodup := hnodup
  page k p hp := by
    rw [List.getElem?_map] at hp
    obtain ⟨q, hq, rfl⟩ := Option.map_eq_some_iff.mp hp
    obtain ⟨l, hl, rfl⟩ := h.page k q hq
    exact ⟨l.map tag, hl.map, map_page _ _⟩
  start k hk := straddles_map.not.mpr (h.start k (hk.trans_eq (List.length_map _)))
  stop k hk := straddles_map.not.mpr (h.stop k (hk.trans_eq (List.length_map _)))

end Tags

end Pages
