import Mathlib.Data.List.Nodup

/-!
# Tables with a key

A table is a list of rows, in their physical order, no two of which have
the same key. Each operation of a database keeps the keys distinct or
fails, so a table with a repeated key cannot be built. The lemmas say what
a lookup by key finds after each operation.

## What the operations may do

Rows are rewritten only by functions that keep the key (`modify`,
`update`), and inserted only where their key is not taken (`insert`). An
upsert does one or the other. So the invariant is never a side condition
of the statements that use a table: it is discharged where the operation
is defined, once.

A lookup after an operation is always given as a lookup before it, by
cases on whether the key is the one concerned. With these equations a
statement about several rows of several tables reduces to statements about
single keys.

## Rows in another order

The physical order is nothing that a statement can rely on: two tables
with the same rows (`Table.SameRows`) are looked up alike. What a
statement says of some of the rows may depend on where they lie, but on
nothing that lies between them: whatever order those rows are put into,
the whole table can be put into an order in which they come that way
(`Table.exists_sameRows_of_filter`).
-/

/-- Rows with distinct keys. The condition is on the keys and not on the
rows, so that it survives any change to the rest of a row. -/
structure Table (ρ : Type*) {κ : Type*} (key : ρ → κ) where
  /-- The rows, in physical order. -/
  rows : List ρ
  nodup : (rows.map key).Nodup

namespace Table

variable {ρ κ : Type*} {key : ρ → κ}

@[ext] theorem ext {t t' : Table ρ key} (h : t.rows = t'.rows) : t = t' := by
  cases t
  cases t'
  congr

/-- The table without rows. -/
def empty : Table ρ key := ⟨[], List.nodup_nil⟩

/-- The rows that meet a condition. -/
def filter (p : ρ → Bool) (t : Table ρ key) : Table ρ key :=
  ⟨t.rows.filter p, t.nodup.sublist (List.filter_sublist.map key)⟩

/-- Rows rewritten without a change of their keys: an `UPDATE` that sets
other columns. -/
def modify (f : ρ → ρ) (hf : ∀ r, key (f r) = key r) (t : Table ρ key) : Table ρ key :=
  ⟨t.rows.map f, by
    rw [List.map_map, show key ∘ f = key from funext hf]
    exact t.nodup⟩

/-- Rows with a property identified by their key are the same row. This is
what a primary key is for, and most arguments about a table end with
it. -/
theorem eq_of_key_eq (t : Table ρ key) {r r' : ρ} (hr : r ∈ t.rows) (hr' : r' ∈ t.rows)
    (h : key r = key r') : r = r' :=
  List.inj_on_of_nodup_map t.nodup hr hr' h

variable [DecidableEq κ]

theorem key_ite {f : ρ → ρ} (hf : ∀ r, key (f r) = key r) (k : κ) (r : ρ) :
    key (if key r = k then f r else r) = key r := by
  split
  · exact hf r
  · rfl

/-- The row with a key rewritten. -/
def update (k : κ) (f : ρ → ρ) (hf : ∀ r, key (f r) = key r) (t : Table ρ key) : Table ρ key :=
  t.modify (fun r => if key r = k then f r else r) (key_ite hf k)

/-- The row with a key. -/
def get? (t : Table ρ key) (k : κ) : Option ρ := t.rows.find? (fun r => key r = k)

/-- A new row at the end, unless its key is taken. The failure is that of
a unique index, and the caller decides what it means. -/
def insert (t : Table ρ key) (r : ρ) : Option (Table ρ key) :=
  if h : key r ∈ t.rows.map key then none
  else some ⟨t.rows ++ [r], by
    rw [List.map_append, List.nodup_append]
    refine ⟨t.nodup, List.nodup_singleton _, ?_⟩
    rintro a ha b hb rfl
    rw [List.map_singleton, List.mem_singleton] at hb
    exact h (hb ▸ ha)⟩

/-- `INSERT ... ON CONFLICT DO UPDATE`: the row takes the place of the one
with its key, if there is one. -/
def upsert (t : Table ρ key) (r : ρ) : Table ρ key :=
  if h : key r ∈ t.rows.map key then
    ⟨t.rows.map (fun r' => if key r' = key r then r else r'), by
      rw [List.map_map, show key ∘ (fun r' => if key r' = key r then r else r') = key from
        funext fun r' => by
          show key (if key r' = key r then r else r') = key r'
          split
          · next heq => exact heq.symm
          · rfl]
      exact t.nodup⟩
  else ⟨t.rows ++ [r], by
    rw [List.map_append, List.nodup_append]
    refine ⟨t.nodup, List.nodup_singleton _, ?_⟩
    rintro a ha b hb rfl
    rw [List.map_singleton, List.mem_singleton] at hb
    exact h (hb ▸ ha)⟩

theorem get?_eq_some_iff {t : Table ρ key} {k : κ} {r : ρ} :
    t.get? k = some r ↔ r ∈ t.rows ∧ key r = k := by
  unfold get?
  constructor
  · intro h
    exact ⟨List.mem_of_find?_eq_some h, of_decide_eq_true (List.find?_some h :)⟩
  · rintro ⟨hr, hk⟩
    rcases hfind : t.rows.find? (fun r => key r = k) with _ | r'
    · exact absurd hk (by simpa using List.find?_eq_none.mp hfind r hr)
    · have hk' : key r' = k := of_decide_eq_true (List.find?_some hfind :)
      rw [t.eq_of_key_eq (List.mem_of_find?_eq_some hfind) hr (hk'.trans hk.symm)]

theorem get?_eq_none_iff {t : Table ρ key} {k : κ} :
    t.get? k = none ↔ ∀ r ∈ t.rows, key r ≠ k := by
  unfold get?
  rw [List.find?_eq_none]
  exact forall₂_congr fun r _ => by simp

theorem get?_filter (t : Table ρ key) (p : ρ → Bool) (k : κ) :
    (t.filter p).get? k = (t.get? k).filter p := by
  ext r
  rw [get?_eq_some_iff, Option.filter_eq_some_iff, get?_eq_some_iff]
  unfold filter
  rw [List.mem_filter]
  exact and_right_comm

/-- A lookup after the row with a key was removed. All other keys are
looked up as before, as one equation says with it. -/
theorem get?_filter_ne (t : Table ρ key) (k k' : κ) :
    (t.filter (fun r => key r ≠ k)).get? k' = if k' = k then none else t.get? k' := by
  rw [get?_filter]
  ext r
  rw [Option.filter_eq_some_iff, get?_eq_some_iff]
  split
  · next h =>
    subst h
    simp
  · next h =>
    rw [get?_eq_some_iff, and_iff_left_iff_imp]
    rintro ⟨-, rfl⟩
    exact decide_eq_true h

theorem get?_modify (t : Table ρ key) (f : ρ → ρ) (hf : ∀ r, key (f r) = key r) (k : κ) :
    (t.modify f hf).get? k = (t.get? k).map f := by
  ext r
  rw [get?_eq_some_iff, Option.map_eq_some_iff]
  unfold modify
  rw [List.mem_map]
  constructor
  · rintro ⟨⟨a, ha, rfl⟩, hk⟩
    exact ⟨a, get?_eq_some_iff.mpr ⟨ha, (hf a).symm.trans hk⟩, rfl⟩
  · rintro ⟨a, ha, rfl⟩
    obtain ⟨hmem, hk⟩ := get?_eq_some_iff.mp ha
    exact ⟨⟨a, hmem, rfl⟩, (hf a).trans hk⟩

/-- A lookup after a row was rewritten. The rewriting may not change the
key, or the other rows would not be safe from it. -/
theorem get?_update (t : Table ρ key) (k : κ) (f : ρ → ρ) (hf : ∀ r, key (f r) = key r) (k' : κ) :
    (t.update k f hf).get? k' = if k' = k then (t.get? k).map f else t.get? k' := by
  unfold update
  rw [get?_modify]
  split
  · next h =>
    subst h
    exact Option.map_congr fun r hr => if_pos (get?_eq_some_iff.mp hr).2
  · next h =>
    refine (Option.map_congr fun r hr => if_neg ?_).trans Option.map_id'
    rw [(get?_eq_some_iff.mp hr).2]
    exact h

/-- The rows after a row was rewritten. An old row is still there if it
has another key, and the rest is the row that was rewritten. -/
theorem mem_update {t : Table ρ key} {k : κ} {f : ρ → ρ} {hf : ∀ r, key (f r) = key r} {r : ρ} :
    r ∈ (t.update k f hf).rows
      ↔ (r ∈ t.rows ∧ key r ≠ k) ∨ ∃ r₀ ∈ t.rows, key r₀ = k ∧ f r₀ = r := by
  unfold update modify
  rw [List.mem_map]
  constructor
  · rintro ⟨a, ha, rfl⟩
    by_cases h : key a = k
    · exact .inr ⟨a, ha, h, (if_pos h).symm⟩
    · rw [if_neg h]
      exact .inl ⟨ha, h⟩
  · rintro (⟨hr, hne⟩ | ⟨a, ha, hk, rfl⟩)
    · exact ⟨r, hr, if_neg hne⟩
    · exact ⟨a, ha, if_pos hk⟩

theorem insert_eq_some_iff {t t' : Table ρ key} {r : ρ} :
    t.insert r = some t' ↔ key r ∉ t.rows.map key ∧ t'.rows = t.rows ++ [r] := by
  unfold insert
  split
  · next h => simp [h]
  · next h =>
    rw [Option.some.injEq, and_iff_right h, Table.ext_iff]
    exact eq_comm

theorem insert_eq_none_iff {t : Table ρ key} {r : ρ} :
    t.insert r = none ↔ key r ∈ t.rows.map key := by
  unfold insert
  split
  · next h => simp [h]
  · next h => simp [h]

/-- A lookup after an insertion. The table refuses a key that is taken, so
nothing that was found before is hidden by the new row. -/
theorem get?_insert {t t' : Table ρ key} {r : ρ} (h : t.insert r = some t') (k : κ) :
    t'.get? k = if key r = k then some r else t.get? k := by
  obtain ⟨hnew, hrows⟩ := insert_eq_some_iff.mp h
  unfold get?
  rw [hrows, List.find?_append, List.find?_singleton]
  by_cases hk : key r = k
  · have hnone : t.rows.find? (fun r' => key r' = k) = none := by
      rw [List.find?_eq_none]
      intro r' hr' hk'
      exact hnew (List.mem_map.mpr ⟨r', hr', (of_decide_eq_true hk').trans hk.symm⟩)
    rw [hnone, if_pos hk]
    simp [hk]
  · rw [if_neg hk]
    simp [hk]

/-- What was found before an insertion is found after it. -/
theorem get?_of_insert {t t' : Table ρ key} {r a : ρ} (h : t.insert r = some t') {k : κ}
    (hk : t.get? k = some a) : t'.get? k = some a := by
  have hne : key r ≠ k := by
    rintro rfl
    obtain ⟨ha, hkey⟩ := get?_eq_some_iff.mp hk
    exact (insert_eq_some_iff.mp h).1 (List.mem_map.mpr ⟨a, ha, hkey⟩)
  rw [get?_insert h, if_neg hne, hk]

/-- A lookup after an upsert: the new row at its own key, and what was
there at any other one. -/
theorem get?_upsert (t : Table ρ key) (r : ρ) (k : κ) :
    (t.upsert r).get? k = if key r = k then some r else t.get? k := by
  unfold upsert
  split
  · next hold =>
    ext a
    rw [get?_eq_some_iff, List.mem_map]
    split
    · next hk =>
      constructor
      · rintro ⟨⟨b, hb, rfl⟩, hkey⟩
        by_cases heq : key b = key r
        · rw [if_pos heq]
        · rw [if_neg heq] at hkey
          exact absurd (hkey.trans hk.symm) heq
      · intro ha
        obtain rfl := Option.some.inj ha
        obtain ⟨b, hb, hkey⟩ := List.mem_map.mp hold
        exact ⟨⟨b, hb, if_pos hkey⟩, hk⟩
    · next hk =>
      rw [get?_eq_some_iff]
      constructor
      · rintro ⟨⟨b, hb, rfl⟩, hkey⟩
        by_cases heq : key b = key r
        · rw [if_pos heq] at hkey
          exact absurd hkey hk
        · rw [if_neg heq] at hkey ⊢
          exact ⟨hb, hkey⟩
      · rintro ⟨ha, hkey⟩
        exact ⟨⟨a, ha, if_neg fun heq => hk (heq.symm.trans hkey)⟩, hkey⟩
  · next hnew =>
    have hinsert : t.insert r = some ⟨t.rows ++ [r], _⟩ := dif_neg hnew
    exact get?_insert hinsert k

/-! ## Rows in another order -/

omit [DecidableEq κ] in
/-- The same rows, wherever they lie. A statement without `ORDER BY` may
answer differently on two such tables, and in nothing but the order of its
answer. -/
def SameRows (t t' : Table ρ key) : Prop := t.rows.Perm t'.rows

omit [DecidableEq κ] in
instance [DecidableEq ρ] (t t' : Table ρ key) : Decidable (t.SameRows t') :=
  inferInstanceAs (Decidable (t.rows.Perm t'.rows))

/-- A row is found by its key wherever it lies. -/
theorem SameRows.get?_eq {t t' : Table ρ key} (h : t.SameRows t') (k : κ) :
    t'.get? k = t.get? k := by
  ext r
  rw [get?_eq_some_iff, get?_eq_some_iff]
  exact and_congr_left fun _ => h.mem_iff.symm

omit [DecidableEq κ] in
theorem SameRows.filter {t t' : Table ρ key} (h : t.SameRows t') (p : ρ → Bool) :
    (t.filter p).SameRows (t'.filter p) := List.Perm.filter p h

omit [DecidableEq κ] in
/-- **Some of the rows can be put into any order**, the others staying
where they were, behind them. An order of the rows of one owner is
therefore part of an order of the table. -/
theorem exists_sameRows_of_filter {t l : Table ρ key} {p : ρ → Bool}
    (h : (t.filter p).SameRows l) : ∃ t', t.SameRows t' ∧ t'.filter p = l := by
  have hperm : t.rows.Perm (l.rows ++ t.rows.filter fun r => !p r) :=
    (List.filter_append_perm p t.rows).symm.trans (List.Perm.append_right _ h)
  refine ⟨⟨l.rows ++ t.rows.filter fun r => !p r, (hperm.map key).nodup_iff.mp t.nodup⟩, hperm,
    Table.ext ?_⟩
  have hkept : l.rows.filter p = l.rows :=
    List.filter_eq_self.mpr fun r hr => (List.mem_filter.mp (h.mem_iff.mpr hr)).2
  have hdropped : (t.rows.filter fun r => !p r).filter p = [] :=
    List.filter_eq_nil_iff.mpr fun r hr => by simpa using (List.mem_filter.mp hr).2
  show (l.rows ++ t.rows.filter fun r => !p r).filter p = l.rows
  rw [List.filter_append, hkept, hdropped, List.append_nil]

end Table
