import Mathlib.Algebra.BigOperators.Group.List.Basic
import Mathlib.Algebra.Order.BigOperators.Group.List
import Mathlib.Algebra.Order.Group.Abs
import Mathlib.Data.List.Dedup

/-!
# Sums by key

A list of rows is summed up by key in two ways: at once, one sum for each
key that occurs (`groupSum`, and `groups` with the rows themselves), and
row after row, in a dictionary whose missing keys stand for zero
(`Tally`). Rows may take part in the second or not.

Everything said of such sums follows from one fact, `sum_fibers`: adding
up the sums of some keys counts each row whose key is among them once.

## Which of the two to use

A database groups at once, and a program adds up as it goes. Both give one
sum for each key that occurs, and both add up to the same if the rows do
(`sumOver_groupSum`, `Sums.sumOver_entries`). So two computations of a
total that take different ways are compared at the rows, and never with
each other.

The values are those of any commutative monoid. Whether what is added up
are amounts, counts or durations does not matter, and neither does the
order of the rows. Only where sizes are compared (`sum_abs_groupSum_le`)
are they taken from an ordered group.

## What a key is

A row of a dictionary may have no key, and then takes no part; a group of
a database has a key that may be an absence, which is a key like any
other. The selector of a dictionary therefore returns an option, and that
of a group does not.
-/

namespace Tally

variable {α κ M : Type} [DecidableEq κ] [AddCommMonoid M]

/-- The sum of the rows that have a property. It is the common form that
all other sums are brought to. -/
def sumOver (value : α → M) (p : α → Prop) [DecidablePred p] (l : List α) : M :=
  ((l.filter p).map value).sum

section SumOver

variable (value : α → M) (p : α → Prop) [DecidablePred p]

omit [DecidableEq κ] in
@[simp] theorem sumOver_nil : sumOver value p [] = 0 := rfl

omit [DecidableEq κ] in
theorem sumOver_cons (a : α) (l : List α) :
    sumOver value p (a :: l) = (if p a then value a else 0) + sumOver value p l := by
  unfold sumOver
  by_cases h : p a
  · rw [List.filter_cons_of_pos (by simpa using h), if_pos h, List.map_cons, List.sum_cons]
  · rw [List.filter_cons_of_neg (by simpa using h), if_neg h, zero_add]

omit [DecidableEq κ] in
theorem sumOver_append (l l' : List α) :
    sumOver value p (l ++ l') = sumOver value p l + sumOver value p l' := by
  unfold sumOver
  rw [List.filter_append, List.map_append, List.sum_append]

omit [DecidableEq κ] in
theorem sumOver_congr {p q : α → Prop} [DecidablePred p] [DecidablePred q] {l : List α}
    (h : ∀ a ∈ l, p a ↔ q a) : sumOver value p l = sumOver value q l := by
  unfold sumOver
  rw [List.filter_congr fun a ha => decide_eq_decide.mpr (h a ha)]

omit [DecidableEq κ] in
theorem sumOver_map {β : Type} (f : β → α) (l : List β) :
    sumOver value p (l.map f) = sumOver (value ∘ f) (fun b => p (f b)) l := by
  unfold sumOver
  rw [List.filter_map, List.map_map]
  rfl

omit [DecidableEq κ] in
theorem sumOver_perm {l l' : List α} (h : l.Perm l') : sumOver value p l = sumOver value p l' :=
  ((h.filter _).map value).sum_eq

omit [DecidableEq κ] in
theorem sumOver_eq_zero {l : List α} (h : ∀ a ∈ l, ¬ p a) : sumOver value p l = 0 := by
  unfold sumOver
  rw [List.filter_eq_nil_iff.mpr fun a ha => by simpa using h a ha]
  rfl

omit [DecidableEq κ] in
theorem sumOver_filter (q : α → Prop) [DecidablePred q] (l : List α) :
    sumOver value p (l.filter q) = sumOver value (fun a => q a ∧ p a) l := by
  unfold sumOver
  rw [List.filter_filter]
  simp only [Bool.decide_and, Bool.and_comm]

omit [DecidableEq κ] in
/-- Two properties that exclude each other. A row with both would be
counted twice on the one side and once on the other. -/
theorem sumOver_or {p q : α → Prop} [DecidablePred p] [DecidablePred q] {l : List α}
    (h : ∀ a ∈ l, ¬ (p a ∧ q a)) :
    sumOver value (fun a => p a ∨ q a) l = sumOver value p l + sumOver value q l := by
  induction l with
  | nil => rw [sumOver_nil, sumOver_nil, sumOver_nil, add_zero]
  | cons a l ih =>
    have hnot := h a List.mem_cons_self
    rw [sumOver_cons, sumOver_cons, sumOver_cons, ih fun b hb => h b (List.mem_cons_of_mem a hb)]
    by_cases hp : p a
    · have hq : ¬ q a := fun hq => hnot ⟨hp, hq⟩
      rw [if_pos hp, if_neg hq, if_pos (Or.inl hp), zero_add, add_assoc]
    · by_cases hq : q a
      · rw [if_neg hp, if_pos hq, if_pos (Or.inr hq), zero_add, add_left_comm]
      · rw [if_neg hp, if_neg hq, if_neg (not_or.mpr ⟨hp, hq⟩), zero_add, zero_add, zero_add]

omit [DecidableEq κ] in
theorem sumOver_true (l : List α) : sumOver value (fun _ => True) l = (l.map value).sum := by
  unfold sumOver
  rw [List.filter_eq_self.mpr fun _ _ => by simp]

end SumOver

section Bounds

variable {G : Type} [AddCommGroup G] [LinearOrder G] [IsOrderedAddMonoid G]

omit [DecidableEq κ] in
/-- A sum over some rows is at most what the rows have in absolute
terms. -/
theorem abs_sumOver_le (value : α → G) (p : α → Prop) [DecidablePred p] (l : List α) :
    |sumOver value p l| ≤ (l.map fun a => |value a|).sum := by
  induction l with
  | nil => simp
  | cons a l ih =>
    rw [sumOver_cons, List.map_cons, List.sum_cons]
    refine (abs_add_le _ _).trans (add_le_add ?_ ih)
    split
    · exact le_rfl
    · rw [abs_zero]
      exact abs_nonneg _

omit [DecidableEq κ] in
theorem abs_sumOver_le_sumOver (value : α → G) (p : α → Prop) [DecidablePred p] (l : List α) :
    |sumOver value p l| ≤ sumOver (fun a => |value a|) p l := by
  have h := abs_sumOver_le value (fun _ => True) (l.filter p)
  rw [sumOver_true] at h
  exact h

end Bounds

/-- The sum of some keys' indicator values counts a key that is among them
once. -/
theorem sum_indicator {keys : List κ} (hnodup : keys.Nodup) (o : Option κ) (v : M) :
    (keys.map fun k => if o = some k then v else 0).sum
      = if o ∈ keys.map some then v else 0 := by
  induction keys with
  | nil => rfl
  | cons k keys ih =>
    rw [List.map_cons, List.sum_cons, ih (List.nodup_cons.mp hnodup).2, List.map_cons]
    by_cases h : o = some k
    · have hnot : o ∉ keys.map some := fun hmem => by
        obtain ⟨k', hk', heq⟩ := List.mem_map.mp hmem
        have : k' = k := Option.some.inj (heq.trans h)
        exact (List.nodup_cons.mp hnodup).1 (this ▸ hk')
      rw [if_pos h, if_neg hnot, add_zero, if_pos (List.mem_cons.mpr (Or.inl h))]
    · rw [if_neg h, zero_add]
      exact if_congr (by rw [List.mem_cons, or_iff_right h]) rfl rfl

/-- **Summing by key loses nothing and counts nothing twice**: the sums of
some keys add up to the sum of the rows that have one of these keys. The
keys are distinct, so a row is met at its own key and at no other. -/
theorem sum_fibers {keys : List κ} (hnodup : keys.Nodup) (sel : α → Option κ) (value : α → M)
    {p : α → Prop} [DecidablePred p] {l : List α}
    (hp : ∀ a ∈ l, p a ↔ ∃ k ∈ keys, sel a = some k) :
    (keys.map fun k => sumOver value (fun a => sel a = some k) l).sum = sumOver value p l := by
  induction l with
  | nil => simp
  | cons a l ih =>
    have hsplit : (keys.map fun k => sumOver value (fun a => sel a = some k) (a :: l))
        = keys.map fun k => (if sel a = some k then value a else 0)
            + sumOver value (fun a => sel a = some k) l :=
      List.map_congr_left fun k _ => sumOver_cons value _ a l
    have hmem : sel a ∈ keys.map some ↔ p a := by
      rw [hp a List.mem_cons_self, List.mem_map]
      simp only [eq_comm]
    rw [hsplit, List.sum_map_add, ih fun b hb => hp b (List.mem_cons_of_mem a hb),
      sum_indicator hnodup, sumOver_cons]
    exact congrArg (· + _) (if_congr hmem rfl rfl)

/-! ## One sum for each key -/

/-- The sum of the rows of each key that occurs. -/
def groupSum (key : α → κ) (value : α → M) (l : List α) : List (κ × M) :=
  (l.map key).dedup.map fun k => (k, sumOver value (fun a => key a = k) l)

/-- The groups that have a property add up to the rows that have it, where
the property is one of the key. Filtering before grouping and after it is
the same. -/
theorem sumOver_groupSum (key : α → κ) (value : α → M) (p : κ → Prop) [DecidablePred p]
    (l : List α) :
    sumOver Prod.snd (fun group => p group.1) (groupSum key value l)
      = sumOver value (fun a => p (key a)) l := by
  have hkeys : ∀ a ∈ l, p (key a) ↔ ∃ k ∈ (l.map key).dedup.filter p, some (key a) = some k := by
    intro a ha
    have hmem : key a ∈ (l.map key).dedup := List.mem_dedup.mpr (List.mem_map_of_mem ha)
    constructor
    · intro hp
      exact ⟨key a, List.mem_filter.mpr ⟨hmem, by simpa using hp⟩, rfl⟩
    · rintro ⟨k, hk, heq⟩
      rw [Option.some.inj heq]
      simpa using (List.mem_filter.mp hk).2
  have hfibers := sum_fibers (((l.map key).nodup_dedup).filter p) (fun a => some (key a)) value
    hkeys
  simp only [Option.some.injEq] at hfibers
  have hleft : sumOver Prod.snd (fun group => p group.1) (groupSum key value l)
      = (((l.map key).dedup.filter p).map fun k => sumOver value (fun a => key a = k) l).sum := by
    unfold sumOver groupSum
    rw [List.filter_map, List.map_map]
    rfl
  exact hleft.trans hfibers

/-- Grouping makes no sum of absolute values larger. Amounts of opposite
signs may cancel within a group, so it can make it smaller. -/
theorem sum_abs_groupSum_le {G : Type} [AddCommGroup G] [LinearOrder G] [IsOrderedAddMonoid G]
    (key : α → κ) (value : α → G) (l : List α) :
    ((groupSum key value l).map fun group => |group.2|).sum ≤ (l.map fun a => |value a|).sum := by
  have hgroups := sumOver_groupSum key (fun a => |value a|) (fun _ => True) l
  rw [sumOver_true, sumOver_true] at hgroups
  rw [← hgroups]
  unfold groupSum
  rw [List.map_map, List.map_map]
  exact List.sum_le_sum fun k _ => abs_sumOver_le_sumOver value _ l

theorem mem_groupSum {key : α → κ} {value : α → M} {l : List α} {k : κ} {v : M} :
    (k, v) ∈ groupSum key value l
      ↔ (∃ a ∈ l, key a = k) ∧ v = sumOver value (fun a => key a = k) l := by
  unfold groupSum
  rw [List.mem_map]
  constructor
  · rintro ⟨k', hk', heq⟩
    obtain ⟨rfl, rfl⟩ := Prod.mk.inj heq
    exact ⟨List.mem_map.mp (List.mem_dedup.mp hk'), rfl⟩
  · rintro ⟨hk, rfl⟩
    exact ⟨k, List.mem_dedup.mpr (List.mem_map.mpr hk), rfl⟩

/-! ## The rows of each key

The rows are a union of groups, one for each key, and a sum over the rows
is the sum over the groups. -/

/-- The rows of each key that occurs. -/
def groups (key : α → κ) (l : List α) : List (κ × List α) :=
  (l.map key).dedup.map fun k => (k, l.filter fun a => key a = k)

theorem map_fst_groups (key : α → κ) (l : List α) :
    (groups key l).map Prod.fst = (l.map key).dedup := by
  unfold groups
  rw [List.map_map]
  exact List.map_id _

/-- A group has a row, since its key occurs. -/
theorem exists_of_mem_groups {key : α → κ} {l : List α} {group : κ × List α}
    (h : group ∈ groups key l) : ∃ a ∈ l, key a = group.1 := by
  have hkey := List.mem_map_of_mem (f := Prod.fst) h
  rw [map_fst_groups, List.mem_dedup] at hkey
  exact List.mem_map.mp hkey

theorem groupSum_eq_map_groups (key : α → κ) (value : α → M) (l : List α) :
    groupSum key value l = (groups key l).map fun group => (group.1, (group.2.map value).sum) := by
  unfold groupSum groups
  rw [List.map_map]
  rfl

/-- The sums of the groups that have a property. -/
theorem sumOver_groups (key : α → κ) (value : α → M) (p : κ → Prop) [DecidablePred p]
    (l : List α) :
    sumOver (fun group => (group.2.map value).sum) (fun group => p group.1) (groups key l)
      = sumOver value (fun a => p (key a)) l := by
  rw [← sumOver_groupSum key value p l, groupSum_eq_map_groups, sumOver_map]
  rfl

/-- Two lists that have the same sum for each key have the same sum. The
keys may be computed differently on either side, as long as they mean the
same. -/
theorem sum_eq_of_sumOver_eq {β : Type} {key : α → κ} {value : α → M} {l : List α} {key' : β → κ}
    {value' : β → M} {l' : List β}
    (h : ∀ k, sumOver value (fun a => key a = k) l = sumOver value' (fun b => key' b = k) l') :
    (l.map value).sum = (l'.map value').sum := by
  have hnodup := (l.map key ++ l'.map key').nodup_dedup
  have hleft := sum_fibers hnodup (fun a => some (key a)) value (p := fun _ => True)
    fun a ha => iff_of_true trivial
      ⟨key a, List.mem_dedup.mpr (List.mem_append_left _ (List.mem_map_of_mem ha)), rfl⟩
  have hright := sum_fibers hnodup (fun b => some (key' b)) value' (p := fun _ => True)
    fun b hb => iff_of_true trivial
      ⟨key' b, List.mem_dedup.mpr (List.mem_append_right _ (List.mem_map_of_mem hb)), rfl⟩
  simp only [Option.some.injEq, sumOver_true] at hleft hright
  rw [← hleft, ← hright, List.map_congr_left fun k _ => h k]

end Tally

/-! ## A dictionary of sums -/

/-- A dictionary whose missing keys stand for zero, with its entries in
the order in which they were made. Reading a key does not make an
entry. -/
structure Tally (κ M : Type) where
  entries : List (κ × M)
  nodup : (entries.map Prod.fst).Nodup

namespace Tally

variable {α κ M : Type} [DecidableEq κ] [AddCommMonoid M]

/-- The dictionary without entries. -/
def empty : Tally κ M := ⟨[], List.nodup_nil⟩

/-- The keys that have an entry. -/
def keys (d : Tally κ M) : List κ := d.entries.map Prod.fst

/-- The value of a key. -/
def get (d : Tally κ M) (k : κ) : M := ((d.entries.find? (fun e => e.1 = k)).map Prod.snd).getD 0

/-- An entry list with a new value for a key, at its place if it has
one. -/
def setEntry (k : κ) (v : M) : List (κ × M) → List (κ × M)
  | [] => [(k, v)]
  | e :: entries => if e.1 = k then (k, v) :: entries else e :: setEntry k v entries

omit [AddCommMonoid M] in
theorem map_fst_setEntry (k : κ) (v : M) (entries : List (κ × M)) :
    (setEntry k v entries).map Prod.fst
      = if k ∈ entries.map Prod.fst then entries.map Prod.fst
        else entries.map Prod.fst ++ [k] := by
  induction entries with
  | nil => rfl
  | cons e entries ih =>
    unfold setEntry
    by_cases he : e.1 = k
    · simp [he]
    · simp only [if_neg he, List.map_cons, ih, List.mem_cons, Ne.symm he, false_or,
        List.cons_append]
      split <;> rfl

omit [AddCommMonoid M] in
theorem nodup_setEntry (k : κ) (v : M) {entries : List (κ × M)}
    (h : (entries.map Prod.fst).Nodup) : ((setEntry k v entries).map Prod.fst).Nodup := by
  rw [map_fst_setEntry]
  split
  · exact h
  · next hnew =>
    rw [← List.concat_eq_append]
    exact List.Nodup.concat hnew h

/-- `d[k] = v`. -/
def set (d : Tally κ M) (k : κ) (v : M) : Tally κ M :=
  ⟨setEntry k v d.entries, nodup_setEntry k v d.nodup⟩

theorem get_set (d : Tally κ M) (k k' : κ) (v : M) :
    (d.set k v).get k' = if k' = k then v else d.get k' := by
  show ((((setEntry k v d.entries).find? (fun e => e.1 = k')).map Prod.snd).getD 0) = _
  unfold get
  induction d.entries with
  | nil => by_cases h : k' = k <;> simp [setEntry, h, eq_comm]
  | cons e entries ih =>
    unfold setEntry
    by_cases he : e.1 = k
    · by_cases h : k' = k
      · simp [he, h]
      · simp [he, h, Ne.symm h]
    · rw [if_neg he]
      by_cases h : e.1 = k'
      · have hne : k' ≠ k := fun heq => he (h.trans heq)
        simp [h, hne]
      · rw [List.find?_cons_of_neg (by simpa using h), ih,
          List.find?_cons_of_neg (by simpa using h)]

omit [AddCommMonoid M] in
theorem mem_keys_set (d : Tally κ M) (k k' : κ) (v : M) :
    k' ∈ (d.set k v).keys ↔ k' = k ∨ k' ∈ d.keys := by
  show k' ∈ (setEntry k v d.entries).map Prod.fst ↔ _
  rw [map_fst_setEntry]
  unfold keys
  split
  · next h => exact ⟨Or.inr, fun h' => h'.elim (fun heq => heq ▸ h) id⟩
  · rw [List.mem_append, List.mem_singleton, or_comm]

/-- An entry holds the value of its key. There is one entry for each key,
and so the lookup cannot find another. -/
theorem get_of_mem {d : Tally κ M} {e : κ × M} (h : e ∈ d.entries) : d.get e.1 = e.2 := by
  unfold get
  have hfind : d.entries.find? (fun e' => e'.1 = e.1) = some e := by
    rw [List.find?_eq_some_iff_append]
    obtain ⟨s, t, heq⟩ := List.append_of_mem h
    refine ⟨by simp, s, t, heq, fun e' he' => ?_⟩
    have hnodup := d.nodup
    rw [heq, List.map_append, List.nodup_append] at hnodup
    have hne := hnodup.2.2 e'.1 (List.mem_map_of_mem he') e.1 (by simp)
    simpa using hne
  rw [hfind]
  rfl

/-- The dictionary holds the sums of the rows by the key that the selector
gives them; a row without one takes no part. This is the invariant of a
loop that adds up: which keys have an entry is part of it, since a key
whose rows add up to zero is listed and one without rows is not. -/
structure Sums (sel : α → Option κ) (value : α → M) (l : List α) (d : Tally κ M) : Prop where
  get : ∀ k, d.get k = sumOver value (fun a => sel a = some k) l
  mem_keys : ∀ k, k ∈ d.keys ↔ ∃ a ∈ l, sel a = some k

namespace Sums

variable {sel : α → Option κ} {value : α → M} {l : List α} {d : Tally κ M}

theorem empty : Sums sel value [] (Tally.empty : Tally κ M) :=
  ⟨fun _ => rfl, fun _ => ⟨fun h => absurd h List.not_mem_nil, fun ⟨_, h, _⟩ =>
    absurd h List.not_mem_nil⟩⟩

/-- A row that takes no part. -/
theorem skip (h : Sums sel value l d) {a : α} (ha : sel a = none) :
    Sums sel value (l ++ [a]) d := by
  constructor
  · intro k
    rw [h.get, sumOver_append, sumOver_cons, ha, if_neg (by simp), sumOver_nil, add_zero, add_zero]
  · intro k
    rw [h.mem_keys]
    simp [or_and_right, exists_or, ha]

/-- A row that is added to the value of its key. -/
theorem add (h : Sums sel value l d) {a : α} {k : κ} (ha : sel a = some k) :
    Sums sel value (l ++ [a]) (d.set k (d.get k + value a)) := by
  constructor
  · intro k'
    rw [get_set, sumOver_append, sumOver_cons, sumOver_nil, add_zero, ha]
    split
    · next heq => rw [heq, if_pos rfl, h.get]
    · next hne => rw [if_neg (fun heq => hne (Option.some.inj heq).symm), add_zero, h.get]
  · intro k'
    rw [mem_keys_set, h.mem_keys]
    simp [or_and_right, exists_or, ha, or_comm, eq_comm]

/-- **The entries that have a property add up to the rows whose key has
it.** A program that looks at some entries only, or leaves some out, can
be judged by the rows. -/
theorem sumOver_entries (h : Sums sel value l d) (p : κ → Prop) [DecidablePred p] :
    sumOver Prod.snd (fun e => p e.1) d.entries
      = sumOver value (fun a => (sel a).any (fun k => p k) = true) l := by
  have hentries : sumOver Prod.snd (fun e => p e.1) d.entries
      = ((d.keys.filter p).map fun k => sumOver value (fun a => sel a = some k) l).sum := by
    unfold sumOver keys
    rw [List.filter_map, List.map_map]
    congr 1
    refine List.map_congr_left fun e he => ?_
    rw [← get_of_mem (List.mem_of_mem_filter he)]
    exact h.get e.1
  have hnodup : d.keys.Nodup := d.nodup
  rw [hentries]
  refine sum_fibers (hnodup.filter _) sel value fun a ha => ?_
  cases hsel : sel a with
  | none => simp
  | some k =>
    have hkey : k ∈ d.keys := (h.mem_keys k).mpr ⟨a, ha, hsel⟩
    simp [hkey]

end Sums

end Tally
