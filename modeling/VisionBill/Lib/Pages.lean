import Mathlib.Data.List.Sort
import Mathlib.Data.List.Count
import Mathlib.Data.List.Perm.Basic
import Mathlib.Data.Prod.Lex
import Mathlib.Algebra.Order.Group.Nat

/-!
# Pages of a sorted answer

Rows are listed by a key, largest first, and rows with equal keys in any
order: the key does not determine the list. A page is a section of such a
list, and the next page is a section of another list of the same rows. So
two pages need not fit together, although each of them is right.

## What is shown

Where no group of equal keys straddles the boundary between two sections,
the rows on either side of it do not depend on the list
(`Listing.take_perm`); and where one does, a row may be on the last page
and again on the next (`Listing.exists_straddling`). So pages cover the
rows once each if no group straddles a boundary between pages, and only
then (`pages_perm_iff`).

The last section is about the first rows alone, of which some are picked
afterwards: `first_filter_iff` says when as many rows of a kind are among
them as could be. Both equivalences have a list in one direction, made to
spoil the property, and a count in the other.
-/

namespace Pages

variable {α κ : Type*} [LinearOrder κ] {key : α → κ} {rows l l' : List α}

/-- A list of rows by descending key. This is all that `ORDER BY`
promises, so results about listings hold of every answer that there can
be. -/
structure Listing (key : α → κ) (rows l : List α) : Prop where
  perm : l.Perm rows
  sorted : l.Pairwise fun a b => key b ≤ key a

/-- A section of a list. -/
def page (l : List α) (limit offset : ℕ) : List α := (l.drop offset).take limit

/-- A group of rows with equal keys straddles a position: it begins before
the position and ends after it. A group that begins or ends at the
position does not. -/
def Straddles (key : α → κ) (rows : List α) (position : ℕ) : Prop :=
  ∃ x ∈ rows, rows.countP (fun z => key x < key z) < position
    ∧ position < rows.countP fun z => key x ≤ key z

instance (key : α → κ) (rows : List α) (position : ℕ) :
    Decidable (Straddles key rows position) :=
  inferInstanceAs (Decidable (∃ x ∈ rows, _))

/-! ## Listings

A listing of a collection is one of its orders that fit the sort key. Two
listings of the same rows agree in where each key begins and ends, and
need not agree within it. -/

theorem exists_listing (key : α → κ) (rows : List α) : ∃ l, Listing key rows l := by
  refine ⟨rows.insertionSort fun a b => key b ≤ key a, List.perm_insertionSort _ _, ?_⟩
  have htotal : Std.Total fun a b : α => key b ≤ key a := ⟨fun a b => le_total (key b) (key a)⟩
  have htrans : IsTrans α fun a b => key b ≤ key a := ⟨fun a b c hab hbc => hbc.trans hab⟩
  exact List.pairwise_insertionSort _ rows

/-- A listing begins with the rows that a bound on the key admits. This is
what being sorted is used for: how many there are says where they are. -/
theorem filter_eq_take {p : α → Bool} (hp : ∀ a b, key b ≤ key a → p b → p a)
    (hsorted : l.Pairwise fun a b => key b ≤ key a) : l.filter p = l.take (l.countP p) := by
  induction l with
  | nil => rfl
  | cons a l ih =>
    obtain ⟨hle, htail⟩ := List.pairwise_cons.mp hsorted
    by_cases ha : p a
    · rw [List.filter_cons_of_pos ha, List.countP_cons_of_pos ha, List.take_succ_cons, ih htail]
    · have hnone : ∀ b ∈ a :: l, ¬ p b := by
        rintro b hb
        rcases List.mem_cons.mp hb with rfl | hb
        · exact ha
        · exact fun hpb => ha (hp a b (hle b hb) hpb)
      rw [List.filter_eq_nil_iff.mpr hnone, List.countP_eq_zero.mpr hnone, List.take_zero]

/-- What follows does not meet the bound. -/
theorem not_of_mem_drop {p : α → Bool} (hp : ∀ a b, key b ≤ key a → p b → p a)
    (hsorted : l.Pairwise fun a b => key b ≤ key a) {a : α} (ha : a ∈ l.drop (l.countP p)) :
    ¬ p a := by
  have hcount : (l.take (l.countP p)).countP p + (l.drop (l.countP p)).countP p = l.countP p := by
    rw [← List.countP_append, List.take_append_drop]
  have htake : (l.take (l.countP p)).countP p = l.countP p := by
    rw [← filter_eq_take hp hsorted, List.countP_filter]
    simp only [Bool.and_self]
  exact List.countP_eq_zero.mp (by omega) a ha

namespace Listing

/-- Rows that a bound on the key admits are the first ones of every
listing. -/
theorem take_countP_perm (h : Listing key rows l) {p : α → Bool}
    (hp : ∀ a b, key b ≤ key a → p b → p a) :
    (l.take (rows.countP p)).Perm (rows.filter p) := by
  rw [← h.perm.countP_eq, ← filter_eq_take hp h.sorted]
  exact h.perm.filter p

theorem le_upClosed (v : κ) : ∀ a b : α, key b ≤ key a → decide (v ≤ key b) → decide (v ≤ key a) :=
  fun _ _ hab hb => decide_eq_true ((of_decide_eq_true hb).trans hab)

theorem lt_upClosed (v : κ) : ∀ a b : α, key b ≤ key a → decide (v < key b) → decide (v < key a) :=
  fun _ _ hab hb => decide_eq_true ((of_decide_eq_true hb).trans_le hab)

/-- Where no group straddles a position, what comes before it is given by
a bound on the key. -/
theorem exists_bound (h : Listing key rows l) {m : ℕ} (hpos : 0 < m) (hm : m ≤ rows.length)
    (hstraddles : ¬ Straddles key rows m) :
    ∃ v, rows.countP (fun z => v ≤ key z) = m := by
  have hlt : m - 1 < l.length := by
    rw [h.perm.length_eq]
    omega
  refine ⟨key l[m - 1], ?_⟩
  have hge : m ≤ rows.countP fun z => key l[m - 1] ≤ key z := by
    rw [← h.perm.countP_eq]
    by_contra hcount
    have hmem : l[m - 1] ∈ l.drop (l.countP fun z => key l[m - 1] ≤ key z) := by
      rw [List.mem_drop_iff_getElem]
      exact ⟨m - 1 - l.countP (fun z => key l[m - 1] ≤ key z), by omega, by congr 1; omega⟩
    exact not_of_mem_drop (le_upClosed _) h.sorted hmem (decide_eq_true le_rfl)
  have hlt' : rows.countP (fun z => key l[m - 1] < key z) < m := by
    rw [← h.perm.countP_eq]
    by_contra hcount
    have hmem : l[m - 1] ∈ l.filter fun z => key l[m - 1] < key z := by
      rw [filter_eq_take (lt_upClosed _) h.sorted, List.mem_take_iff_getElem]
      exact ⟨m - 1, by omega, rfl⟩
    exact lt_irrefl _ (of_decide_eq_true (List.mem_filter.mp hmem).2)
  have hle : rows.countP (fun z => key l[m - 1] ≤ key z) ≤ m := by
    by_contra hcount
    exact hstraddles ⟨l[m - 1], h.perm.mem_iff.mp (List.getElem_mem hlt), hlt', by omega⟩
  exact le_antisymm hle hge

/-- **Where no group straddles a position**, every listing has the same
rows before it. Listings differ in the order within their groups, and such
a prefix is made of whole groups. -/
theorem take_perm (h : Listing key rows l) (h' : Listing key rows l') {m : ℕ}
    (hstraddles : ¬ Straddles key rows m) : (l.take m).Perm (l'.take m) := by
  rcases Nat.eq_zero_or_pos m with rfl | hpos
  · exact List.Perm.refl _
  rcases le_total m rows.length with hm | hm
  · obtain ⟨v, hv⟩ := h.exists_bound hpos hm hstraddles
    rw [← hv]
    exact (h.take_countP_perm (le_upClosed v)).trans (h'.take_countP_perm (le_upClosed v)).symm
  · rw [List.take_of_length_le (h.perm.length_eq.trans_le hm),
      List.take_of_length_le (h'.perm.length_eq.trans_le hm)]
    exact h.perm.trans h'.perm.symm

/-- And so between two such positions. -/
theorem page_perm (h : Listing key rows l) (h' : Listing key rows l') {limit offset : ℕ}
    (hoffset : ¬ Straddles key rows offset) (hend : ¬ Straddles key rows (offset + limit)) :
    (page l limit offset).Perm (page l' limit offset) := by
  have hall := h.take_perm h' hend
  rw [List.take_add, List.take_add] at hall
  have hfirst : (l'.take offset ++ (l.drop offset).take limit).Perm
      (l.take offset ++ (l.drop offset).take limit) :=
    (h'.take_perm h hoffset).append_right _
  exact (List.perm_append_left_iff _).mp (hfirst.trans hall)

/-- **Where a group straddles a position**, a row may come right before it
in one listing, and right after it in another. The two rows on its sides
have one key and change places. -/
theorem exists_straddling {m : ℕ} (h : Straddles key rows m) :
    ∃ l l' a, Listing key rows l ∧ Listing key rows l' ∧ a ∈ l.take m
      ∧ ∃ rest, l'.drop m = a :: rest := by
  obtain ⟨x, -, hbefore, hafter⟩ := h
  obtain ⟨l, hl⟩ := exists_listing key rows
  rw [← hl.perm.countP_eq] at hbefore hafter
  have hlen := List.countP_le_length (p := fun z => key x ≤ key z) (l := l)
  have hm : m < l.length := hafter.trans_le hlen
  have hkey : ∀ i (hi : i < l.length), m - 1 ≤ i → i ≤ m → key l[i] = key x := by
    intro i hi hlow hhigh
    apply le_antisymm
    · have hmem : l[i] ∈ l.drop (l.countP fun z => key x < key z) := by
        rw [List.mem_drop_iff_getElem]
        exact ⟨i - l.countP (fun z => key x < key z), by omega, by congr 1; omega⟩
      have hnot := not_of_mem_drop (lt_upClosed (key x)) hl.sorted hmem
      exact not_lt.mp fun hlt => hnot (decide_eq_true hlt)
    · have hmem : l[i] ∈ l.filter fun z => key x ≤ key z := by
        rw [filter_eq_take (le_upClosed _) hl.sorted, List.mem_take_iff_getElem]
        exact ⟨i, by omega, rfl⟩
      exact of_decide_eq_true (List.mem_filter.mp hmem).2
  -- the rows on the two sides of the position change places
  have hsplit : l = l.take (m - 1) ++ l[m - 1] :: l[m] :: l.drop (m + 1) := by
    have hdrop : l.drop (m - 1) = l[m - 1] :: l.drop m := by
      rw [List.drop_eq_getElem_cons (by omega)]
      congr 2
      omega
    rw [← List.drop_eq_getElem_cons hm, ← hdrop, List.take_append_drop]
  have htake : (l.take (m - 1)).length = m - 1 := List.length_take_of_le (by omega)
  refine ⟨l, l.take (m - 1) ++ l[m] :: l[m - 1] :: l.drop (m + 1), l[m - 1], hl, ⟨?_, ?_⟩, ?_,
    l.drop (m + 1), ?_⟩
  · refine List.Perm.trans ?_ hl.perm
    conv_rhs => rw [hsplit]
    exact (List.Perm.swap _ _ _).append_left _
  · have hsame : (l.take (m - 1) ++ l[m] :: l[m - 1] :: l.drop (m + 1)).map key = l.map key := by
      conv_rhs => rw [hsplit]
      simp only [List.map_append, List.map_cons]
      rw [hkey m hm (by omega) le_rfl, hkey (m - 1) (by omega) le_rfl (by omega)]
    have hsorted := hl.sorted
    rw [← List.pairwise_map (f := key) (R := fun a b => b ≤ a)] at hsorted ⊢
    rw [hsame]
    exact hsorted
  · rw [List.mem_take_iff_getElem]
    exact ⟨m - 1, by omega, rfl⟩
  · rw [List.drop_append, htake, List.drop_of_length_le (by omega : _ ≤ m),
      show m - (m - 1) = 1 by omega]
    rfl

end Listing

/-! ## Reading page after page

The pages of one listing, one after another, are that listing. So nothing
is missing and nothing twice as long as all pages are of the same one. -/

/-- The first pages, each of a listing of its own. -/
def pages (ls : ℕ → List α) (limit n : ℕ) : List α :=
  (List.range n).flatMap fun k => page (ls k) limit (k * limit)

variable {limit : ℕ}

/-- A page is empty if it lies behind the rows. -/
theorem page_eq_nil_iff (hlimit : 0 < limit) {offset : ℕ} :
    page l limit offset = [] ↔ l.length ≤ offset := by
  unfold page
  rw [List.take_eq_nil_iff, List.drop_eq_nil_iff]
  exact ⟨fun h => h.resolve_left hlimit.ne', .inr⟩

/-- The number of pages that are not empty. -/
def pageCount (limit length : ℕ) : ℕ := (length + limit - 1) / limit

theorem lt_pageCount_iff (hlimit : 0 < limit) {k length : ℕ} :
    k < pageCount limit length ↔ k * limit < length := by
  unfold pageCount
  rw [← Nat.succ_le_iff, Nat.le_div_iff_mul_le hlimit, Nat.succ_mul]
  omega

theorem pageCount_le_iff (hlimit : 0 < limit) {k length : ℕ} :
    pageCount limit length ≤ k ↔ length ≤ k * limit := by
  rw [← not_lt, lt_pageCount_iff hlimit, not_lt]

/-- The pages of one listing are its first rows. -/
theorem pages_const (l : List α) (limit n : ℕ) : pages (fun _ => l) limit n = l.take (n * limit) := by
  induction n with
  | zero => rw [Nat.zero_mul, List.take_zero, pages, List.range_zero, List.flatMap_nil]
  | succ n ih =>
    rw [Nat.succ_mul, List.take_add, ← ih, pages, List.range_succ, List.flatMap_append,
      List.flatMap_singleton]
    rfl

/-- Pages between which no group straddles do not depend on the
listings. -/
theorem pages_perm {ls : ℕ → List α} (hls : ∀ k, Listing key rows (ls k))
    (hl : Listing key rows l) (hstraddles : ∀ k, ¬ Straddles key rows (k * limit)) (n : ℕ) :
    (pages ls limit n).Perm (l.take (n * limit)) := by
  rw [← pages_const]
  refine List.Perm.flatMap_left _ fun k _ => (hls k).page_perm hl (hstraddles k) ?_
  rw [← Nat.succ_mul]
  exact hstraddles (k + 1)

/-- **Pages cover the rows once each** if no group of equal keys straddles
a boundary between pages, and only then. The pages are any number of them
that reaches beyond the rows, and each may be of a listing of its own. -/
theorem pages_perm_iff (hlimit : 0 < limit) (hnodup : rows.Nodup) :
    (∀ ls : ℕ → List α, (∀ k, Listing key rows (ls k)) →
        (pages ls limit (pageCount limit rows.length)).Perm rows)
      ↔ ∀ k, ¬ Straddles key rows (k * limit) := by
  constructor
  · rintro hall k hstraddles
    obtain ⟨l, l', a, hl, hl', ha, rest, hrest⟩ := Listing.exists_straddling hstraddles
    have hk : k < pageCount limit rows.length := by
      obtain ⟨x, -, -, hafter⟩ := hstraddles
      exact (lt_pageCount_iff hlimit).mpr (hafter.trans_le List.countP_le_length)
    -- the pages before the boundary are taken from one listing, and those after it from the other
    obtain ⟨n, hn⟩ : ∃ n, pageCount limit rows.length = k + (n + 1) :=
      ⟨pageCount limit rows.length - k - 1, by omega⟩
    have hls : ∀ j, Listing key rows (if j < k then l else l') := by
      intro j
      split
      · exact hl
      · exact hl'
    have hbefore : pages (fun j => if j < k then l else l') limit k = l.take (k * limit) := by
      rw [← pages_const]
      refine List.flatMap_congr fun j hj => ?_
      dsimp only
      rw [if_pos (List.mem_range.mp hj)]
    have hsplit : List.range (k + (n + 1))
        = List.range k ++ k :: (List.range n).map fun j => k + (j + 1) := by
      rw [List.range_add, List.range_succ_eq_map, List.map_cons, List.map_map]
      rfl
    have hperm := hall _ hls
    rw [hn, pages, hsplit, List.flatMap_append, List.flatMap_cons, if_neg (lt_irrefl k)] at hperm
    have hmem : a ∈ page l' limit (k * limit) := by
      unfold page
      rw [hrest, List.take_cons hlimit]
      exact List.mem_cons_self
    rw [← hbefore] at ha
    exact List.disjoint_of_nodup_append (hperm.nodup_iff.mpr hnodup) ha
      (List.mem_append_left _ hmem)
  · intro hstraddles ls hls
    obtain ⟨l, hl⟩ := exists_listing key rows
    refine (pages_perm hls hl hstraddles _).trans ?_
    rw [List.take_of_length_le ?_]
    · exact hl.perm
    · rw [hl.perm.length_eq]
      exact (pageCount_le_iff hlimit).mp le_rfl

/-! ## The first rows -/

section First

variable [DecidableEq α]

omit [DecidableEq α] in
theorem countP_le_add {p q r : α → Bool} (h : ∀ z, r z → p z ∨ q z) (l : List α) :
    l.countP r ≤ l.countP p + l.countP q := by
  induction l with
  | nil => exact le_rfl
  | cons z l ih =>
    simp only [List.countP_cons]
    have hz := h z
    split_ifs with hr hp hq <;> simp_all <;> omega

theorem countP_eq_le_one (hnodup : rows.Nodup) (a : α) : rows.countP (fun z => z = a) ≤ 1 := by
  rw [show (fun z => decide (z = a)) = (· == a) from funext fun z => rfl]
  exact List.nodup_iff_count_le_one.mp hnodup a

/-- A listing in which one row comes as early as its key admits, and
another one as late. -/
theorem exists_listing_between (key : α → κ) (hnodup : rows.Nodup) {x y : α} (hx : x ∈ rows)
    (hy : y ∈ rows) (hne : x ≠ y) :
    ∃ l, Listing key rows l
      ∧ (∀ n, rows.countP (fun z => key x < key z) < n → x ∈ l.take n)
      ∧ ∀ n, n < rows.countP (fun z => key y ≤ key z) → y ∈ l.drop n := by
  let rank : α → ℕ := fun z => if z = x then 2 else if z = y then 0 else 1
  let order : α → κ ×ₗ ℕ := fun z => toLex (key z, rank z)
  have hfirst : ∀ z, rank x ≤ rank z → z = x := by
    intro z hz
    by_contra hzx
    simp only [rank, if_pos, if_neg hzx] at hz
    split at hz <;> omega
  have hlast : ∀ z, z ≠ y → rank y < rank z := by
    intro z hz
    simp only [rank, if_neg hne.symm, if_pos, if_neg hz]
    split <;> omega
  have hle : ∀ z z', order z ≤ order z' ↔ key z < key z' ∨ key z = key z' ∧ rank z ≤ rank z' :=
    fun z z' => Prod.Lex.toLex_le_toLex
  have hlt : ∀ z z', order z < order z' ↔ key z < key z' ∨ key z = key z' ∧ rank z < rank z' :=
    fun z z' => Prod.Lex.toLex_lt_toLex
  obtain ⟨l, hl⟩ := exists_listing order rows
  refine ⟨l, ⟨hl.perm, hl.sorted.imp fun {a b} hab => ?_⟩, fun n hn => ?_, fun n hn => ?_⟩
  · rcases (hle b a).mp hab with h | h
    · exact h.le
    · exact h.1.le
  · -- before the first row come those with larger keys
    have hsplit : rows.countP (fun z => order x ≤ order z)
        ≤ rows.countP (fun z => key x < key z) + rows.countP fun z => z = x := by
      refine countP_le_add (fun z hz => ?_) rows
      simp only [decide_eq_true_eq] at hz ⊢
      exact ((hle x z).mp hz).imp id fun h => hfirst z h.2
    have hcount : rows.countP (fun z => order x ≤ order z) ≤ n := by
      have := countP_eq_le_one hnodup x
      omega
    have hmem : x ∈ l.filter fun z => order x ≤ order z :=
      List.mem_filter.mpr ⟨hl.perm.mem_iff.mpr hx, decide_eq_true le_rfl⟩
    rw [filter_eq_take (Listing.le_upClosed _) hl.sorted, hl.perm.countP_eq] at hmem
    exact List.take_subset_take_left l hcount hmem
  · -- and all rows with keys as large come before the last one
    have hsplit : rows.countP (fun z => key y ≤ key z)
        ≤ rows.countP (fun z => order y < order z) + rows.countP fun z => z = y := by
      refine countP_le_add (fun z hz => ?_) rows
      simp only [decide_eq_true_eq] at hz ⊢
      by_cases hzy : z = y
      · exact .inr hzy
      · exact .inl ((hlt y z).mpr (hz.lt_or_eq.imp id fun h => ⟨h, hlast z hzy⟩))
    have hcount : n ≤ rows.countP fun z => order y < order z := by
      have := countP_eq_le_one hnodup y
      omega
    have hnot : y ∉ l.take (rows.countP fun z => order y < order z) := by
      rw [← hl.perm.countP_eq, ← filter_eq_take (Listing.lt_upClosed _) hl.sorted]
      exact fun hmem => lt_irrefl _ (of_decide_eq_true (List.mem_filter.mp hmem).2)
    have hmem : y ∈ l := hl.perm.mem_iff.mpr hy
    rw [← List.take_append_drop (rows.countP fun z => order y < order z) l] at hmem
    exact List.drop_subset_drop_left l hcount ((List.mem_append.mp hmem).resolve_left hnot)

/-- **The first rows hold as many of a kind as there are**, or as many as
they are, in every listing, if no row of another kind can displace one of
them: where it may come early enough, the other one cannot come too late.
Two rows decide it, since a listing that spoils the property can be made
of the rest in any order (`exists_listing_between`). -/
theorem first_filter_iff (key : α → κ) (hnodup : rows.Nodup) (p : α → Bool) (n : ℕ) :
    (∀ l, Listing key rows l → ((l.take n).filter p).length = min n (rows.countP p))
      ↔ ∀ x ∈ rows, ∀ y ∈ rows, p x = false → p y = true →
          n ≤ rows.countP (fun z => key x < key z)
            ∨ rows.countP (fun z => key y ≤ key z) ≤ n := by
  have hsplit : ∀ l, Listing key rows l →
      (l.take n).countP p + (l.drop n).countP p = rows.countP p := by
    intro l hl
    rw [← List.countP_append, List.take_append_drop, hl.perm.countP_eq]
  constructor
  · rintro hall x hx y hy hpx hpy
    by_contra hdisplaced
    obtain ⟨hfew, hmany⟩ := not_or.mp hdisplaced
    have hne : x ≠ y := by
      rintro rfl
      exact Bool.false_ne_true (hpx.symm.trans hpy)
    obtain ⟨l, hl, hearly, hlate⟩ := exists_listing_between key hnodup hx hy hne
    have hfull := hall l hl
    rw [← List.countP_eq_length_filter] at hfull
    have hlt : (l.take n).countP p < (l.take n).length := by
      refine lt_of_le_of_ne List.countP_le_length fun heq => ?_
      have := List.countP_eq_length.mp heq x (hearly n (not_le.mp hfew))
      exact Bool.false_ne_true (hpx.symm.trans this)
    have hpos : 0 < (l.drop n).countP p :=
      List.countP_pos_iff.mpr ⟨y, hlate n (not_le.mp hmany), hpy⟩
    have hlength := List.length_take_le n l
    have := hsplit l hl
    omega
  · rintro hcond l hl
    rw [← List.countP_eq_length_filter]
    have hsum := hsplit l hl
    by_cases hfull : ∀ x ∈ l.take n, p x = true
    · have hcount := List.countP_eq_length.mpr hfull
      rw [List.length_take] at hcount
      have hbound := List.countP_le_length (p := p) (l := l)
      rw [hl.perm.countP_eq] at hbound
      rcases le_total n l.length with hn | hn
      · omega
      · rw [List.drop_of_length_le hn, List.countP_nil] at hsum
        omega
    · obtain ⟨x, hx, hpx⟩ : ∃ x ∈ l.take n, p x = false := by
        simpa using hfull
      have hnone : (l.drop n).countP p = 0 := by
        refine List.countP_eq_zero.mpr fun y hy hpy => ?_
        have hcond' := hcond x (hl.perm.mem_iff.mp (List.mem_of_mem_take hx)) y
          (hl.perm.mem_iff.mp (List.mem_of_mem_drop hy)) hpx hpy
        rw [← hl.perm.countP_eq, ← hl.perm.countP_eq] at hcond'
        rcases hcond' with hmany | hfew
        · -- the first rows all have larger keys than this one of them
          have hmem := List.take_subset_take_left l hmany hx
          rw [← filter_eq_take (Listing.lt_upClosed _) hl.sorted] at hmem
          exact lt_irrefl _ (of_decide_eq_true (List.mem_filter.mp hmem).2)
        · -- and all rows with keys as large as this one are among the first
          have hmem := List.drop_subset_drop_left l hfew hy
          exact not_of_mem_drop (Listing.le_upClosed _) hl.sorted hmem (decide_eq_true le_rfl)
      have hlength := List.length_take_le n l
      have hle := List.countP_le_length (p := p) (l := l.take n)
      omega

end First

end Pages
