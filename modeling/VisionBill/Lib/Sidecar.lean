import Mathlib.Data.List.Nodup
import Mathlib.Logic.Function.Basic

/-!
# Files with companions

Some files come with a companion, whose name is computed from that of the
file. A `Layout` says which names are those of main files; on them the
companion's name is injective, and it is never the name of a main file.

A store *holds* entries over a base (`Layout.Holds`) if its files are
those of the base, and besides them one for each entry and one for each
companion. Files that are put, moved and removed together with their
companions change the entries and nothing else; without entries the base
is left (`holds_nil_iff`).

## Why a base

What a program may not touch is part of what has to be said of it: files
that were there before, and files of others in the same directory. With a
base this need not be said separately, since the store is the base with
what the entries add to it. In particular a removal that leaves the base
is a removal of everything that was put, with nothing left behind and
nothing else gone.

The names of the entries are distinct, and none of them is of the base.
The operations ask only for what a program can check: that new names are
free, or that the file is there.
-/

/-- Names of files, and the names of their companions. The two conditions
are all that is used of how a companion is named. -/
structure Layout (π : Type) where
  /-- The names of main files. -/
  Main : π → Prop
  side : π → π
  side_inj : ∀ p q, Main p → Main q → side p = side q → p = q
  side_not_main : ∀ p, Main p → ¬ Main (side p)

namespace Layout

variable {π β : Type}

/-- A main file, and its companion if there is one. A file may never get a
companion, and loses it only together with itself. -/
structure Entry (π β : Type) where
  main : π
  content : β
  extra : Option β
deriving DecidableEq

variable (L : Layout π)

/-- The files of a base and those of some entries. Each name is accounted
for by at most one of these: a main file of an entry, a companion, or the
base. -/
structure Holds (base : π → Option β) (entries : List (Entry π β)) (files : π → Option β) :
    Prop where
  nodup : (entries.map Entry.main).Nodup
  main : ∀ e ∈ entries, L.Main e.main
  fresh : ∀ e ∈ entries, base e.main = none ∧ base (L.side e.main) = none
  content : ∀ e ∈ entries, files e.main = some e.content
  extra : ∀ e ∈ entries, files (L.side e.main) = e.extra
  rest : ∀ q, (∀ e ∈ entries, q ≠ e.main ∧ q ≠ L.side e.main) → files q = base q

variable {L} {base files : π → Option β} {entries : List (Entry π β)} {e : Entry π β} {p : π}

theorem holds_nil_iff : L.Holds base [] files ↔ files = base := by
  constructor
  · intro h
    exact funext fun q => h.rest q fun e he => absurd he List.not_mem_nil
  · rintro rfl
    exact ⟨List.nodup_nil, fun _ h => absurd h List.not_mem_nil,
      fun _ h => absurd h List.not_mem_nil, fun _ h => absurd h List.not_mem_nil,
      fun _ h => absurd h List.not_mem_nil, fun _ _ => rfl⟩

theorem side_ne_main (hp : L.Main p) : L.side p ≠ p := fun heq =>
  L.side_not_main p hp (heq.symm ▸ hp)

/-! ## What is held -/

namespace Holds

theorem eq_of_main (h : L.Holds base entries files) {e' : Entry π β} (he : e ∈ entries)
    (he' : e' ∈ entries) (heq : e.main = e'.main) : e = e' :=
  List.inj_on_of_nodup_map h.nodup he he' heq

theorem main_ne_side (h : L.Holds base entries files) (he : e ∈ entries) (hp : L.Main p) :
    p ≠ L.side e.main := fun heq => L.side_not_main e.main (h.main e he) (heq ▸ hp)

/-- A main file that is not of the base is that of an entry. A companion
cannot be it, since no companion has the name of a main file. -/
theorem exists_entry (h : L.Holds base entries files) (hp : L.Main p) (hbase : base p = none)
    (hfile : files p ≠ none) : ∃ e ∈ entries, e.main = p := by
  by_contra hno
  refine hfile ((h.rest p fun e he => ⟨fun heq => hno ⟨e, he, heq.symm⟩, ?_⟩).trans hbase)
  exact h.main_ne_side he hp

/-- Without entries, and only then, the base is left. -/
theorem eq_base_iff (h : L.Holds base entries files) : files = base ↔ entries = [] := by
  constructor
  · rintro rfl
    refine List.eq_nil_iff_forall_not_mem.mpr fun e he => ?_
    exact absurd ((h.content e he).symm.trans (h.fresh e he).1) (by simp)
  · rintro rfl
    exact holds_nil_iff.mp h

/-- Where there is no file, there is none of the base. -/
theorem base_eq_none (h : L.Holds base entries files) {q : π} (hq : files q = none)
    (hmain : ∀ e ∈ entries, q ≠ e.main) : base q = none := by
  by_cases hside : ∃ e ∈ entries, q = L.side e.main
  · obtain ⟨e, he, rfl⟩ := hside
    exact (h.fresh e he).2
  · rw [← h.rest q fun e he => ⟨hmain e he, fun heq => hside ⟨e, he, heq⟩⟩]
    exact hq

/-- A name without a file is not that of an entry. -/
theorem ne_main (h : L.Holds base entries files) (hp : files p = none) (he : e ∈ entries) :
    e.main ≠ p := fun heq => absurd ((h.content e he).symm.trans (heq ▸ hp)) (by simp)

/-- Where a main file is missing, so is its companion. -/
theorem side_eq_none (h : L.Holds base entries files) (hp : L.Main p)
    (hbase : base (L.side p) = none) (hfree : files p = none) : files (L.side p) = none := by
  rw [← hbase]
  refine h.rest (L.side p) fun e he => ⟨fun heq => ?_, fun heq => ?_⟩
  · exact L.side_not_main p hp (heq ▸ h.main e he)
  · exact h.ne_main hfree he (L.side_inj _ _ hp (h.main e he) heq).symm

variable [DecidableEq π]

/-! ## What the operations do

There are three: a pair of files is put, the second file of a pair
appears, and a pair is removed. Everything that a program does to such a
store is made of them. -/

/-- A new main file, perhaps with a companion. Both names have to be free,
also if there is no companion yet, because one may be attached later. -/
theorem put (h : L.Holds base entries files) (hp : L.Main p) (hfree : files p = none)
    (hside : files (L.side p) = none) (v : β) (extra : Option β) :
    L.Holds base (⟨p, v, extra⟩ :: entries)
      (Function.update (Function.update files p (some v)) (L.side p) extra) := by
  have hne : ∀ e ∈ entries, e.main ≠ p := fun e he => h.ne_main hfree he
  have hmain : ∀ e ∈ entries, L.side p ≠ e.main := fun e he heq =>
    L.side_not_main p hp (heq ▸ h.main e he)
  refine ⟨?_, List.forall_mem_cons.mpr ⟨hp, h.main⟩, ?_, ?_, ?_, fun q hq => ?_⟩
  · refine List.nodup_cons.mpr ⟨fun hmem => ?_, h.nodup⟩
    obtain ⟨e, he, heq⟩ := List.mem_map.mp hmem
    exact hne e he heq
  · refine List.forall_mem_cons.mpr ⟨⟨?_, ?_⟩, h.fresh⟩
    · exact h.base_eq_none hfree fun e he => (hne e he).symm
    · exact h.base_eq_none hside hmain
  · refine List.forall_mem_cons.mpr ⟨?_, fun e he => ?_⟩
    · rw [Function.update_of_ne (side_ne_main hp).symm, Function.update_self]
    · rw [Function.update_of_ne (hmain e he).symm, Function.update_of_ne (hne e he)]
      exact h.content e he
  · refine List.forall_mem_cons.mpr ⟨Function.update_self .., fun e he => ?_⟩
    have hne_side : L.side e.main ≠ L.side p := fun heq =>
      hne e he (L.side_inj _ _ (h.main e he) hp heq)
    rw [Function.update_of_ne hne_side,
      Function.update_of_ne (h.main_ne_side he hp).symm]
    exact h.extra e he
  · obtain ⟨⟨hqp, hqside⟩, hrest⟩ := List.forall_mem_cons.mp hq
    rw [Function.update_of_ne hqside, Function.update_of_ne hqp]
    exact h.rest q hrest

omit [DecidableEq π] in
/-- The names of another entry. -/
theorem names_ne (h : L.Holds base entries files) {x : Entry π β} (he : e ∈ entries)
    (hx : x ∈ entries) (hne : x.main ≠ e.main) :
    x.main ≠ L.side e.main ∧ L.side x.main ≠ e.main ∧ L.side x.main ≠ L.side e.main :=
  ⟨h.main_ne_side he (h.main x hx), (h.main_ne_side hx (h.main e he)).symm,
    fun heq => hne (L.side_inj _ _ (h.main x hx) (h.main e he) heq)⟩

/-- A file and its companion are removed, and with them their entry. What
the other entries and the base have under these names is nothing. -/
theorem remove (h : L.Holds base entries files) (he : e ∈ entries) :
    L.Holds base (entries.filter fun x => x.main ≠ e.main)
      (Function.update (Function.update files e.main none) (L.side e.main) none) := by
  have hmem : ∀ x ∈ entries.filter fun x => x.main ≠ e.main, x ∈ entries ∧ x.main ≠ e.main := by
    intro x hx
    exact ⟨(List.mem_filter.mp hx).1, of_decide_eq_true (List.mem_filter.mp hx).2⟩
  refine ⟨h.nodup.sublist (List.filter_sublist.map _), fun x hx => h.main x (hmem x hx).1,
    fun x hx => h.fresh x (hmem x hx).1, fun x hx => ?_, fun x hx => ?_, fun q hq => ?_⟩
  · obtain ⟨hx, hne⟩ := hmem x hx
    rw [Function.update_of_ne (h.names_ne he hx hne).1, Function.update_of_ne hne]
    exact h.content x hx
  · obtain ⟨hx, hne⟩ := hmem x hx
    obtain ⟨-, hmain, hside⟩ := h.names_ne he hx hne
    rw [Function.update_of_ne hside, Function.update_of_ne hmain]
    exact h.extra x hx
  · by_cases hqside : q = L.side e.main
    · rw [hqside, Function.update_self]
      exact (h.fresh e he).2.symm
    · by_cases hqmain : q = e.main
      · rw [Function.update_of_ne hqside, hqmain, Function.update_self]
        exact (h.fresh e he).1.symm
      · rw [Function.update_of_ne hqside, Function.update_of_ne hqmain]
        refine h.rest q fun x hx => ?_
        by_cases hne : x.main = e.main
        · rw [hne]
          exact ⟨hqmain, hqside⟩
        · exact hq x (List.mem_filter.mpr ⟨hx, decide_eq_true hne⟩)

/-- One entry is removed. Its main file is the name of one entry only, so
the filter leaves out no other. -/
theorem length_remove (h : L.Holds base entries files) (he : e ∈ entries) :
    (entries.filter fun x => x.main ≠ e.main).length + 1 = entries.length := by
  have hcount : entries.countP (fun x => x.main = e.main) = 1 := by
    have hone := List.count_eq_one_of_mem h.nodup (List.mem_map_of_mem he)
    rw [List.count_eq_countP, List.countP_map] at hone
    rw [← hone]
    refine List.countP_congr fun x _ => ?_
    simp
  have hlength : entries.length = _ :=
    List.length_eq_countP_add_countP fun x : Entry π β => decide (x.main = e.main)
  rw [hcount] at hlength
  rw [hlength, ← List.countP_eq_length_filter, Nat.add_comm]
  refine congrArg (1 + ·) (List.countP_congr fun x _ => ?_)
  simp

/-- An entry with another companion. -/
def attached (p : π) (extra : Option β) (x : Entry π β) : Entry π β :=
  if x.main = p then { x with extra := extra } else x

theorem main_attached (p : π) (extra : Option β) (x : Entry π β) :
    (attached p extra x).main = x.main := by
  unfold attached
  split <;> rfl

theorem map_main_attached (p : π) (extra : Option β) (entries : List (Entry π β)) :
    (entries.map (attached p extra)).map Entry.main = entries.map Entry.main := by
  rw [List.map_map]
  exact List.map_congr_left fun x _ => main_attached p extra x

/-- A file gets a companion, or another one. This is how a file is put in
two steps, or its companion is made once more. -/
theorem attach (h : L.Holds base entries files) (he : e ∈ entries) (extra : Option β) :
    L.Holds base (entries.map (attached e.main extra))
      (Function.update files (L.side e.main) extra) := by
  refine ⟨(map_main_attached e.main extra entries).symm ▸ h.nodup, ?_, ?_, ?_, ?_, fun q hq => ?_⟩
  all_goals try rw [List.forall_mem_map]
  · intro x hx
    rw [main_attached]
    exact h.main x hx
  · intro x hx
    rw [main_attached]
    exact h.fresh x hx
  · intro x hx
    rw [main_attached, Function.update_of_ne (h.main_ne_side he (h.main x hx)), h.content x hx]
    unfold attached
    split <;> rfl
  · intro x hx
    rw [main_attached]
    by_cases hne : x.main = e.main
    · rw [hne, Function.update_self]
      unfold attached
      rw [if_pos hne]
    · rw [Function.update_of_ne (h.names_ne he hx hne).2.2, h.extra x hx]
      unfold attached
      rw [if_neg hne]
  · have hnames : ∀ x ∈ entries, q ≠ x.main ∧ q ≠ L.side x.main := fun x hx => by
      have hx' := hq _ (List.mem_map_of_mem hx)
      rwa [main_attached] at hx'
    rw [Function.update_of_ne (hnames e he).2]
    exact h.rest q hnames

/-- An entry under another name. -/
def moved (p d : π) (x : Entry π β) : Entry π β := if x.main = p then { x with main := d } else x

/-- An entry is renamed among entries with different names. What is there
afterwards is the renamed one and the others, in whatever order. -/
theorem mem_map_moved (h : L.Holds base entries files) (he : e ∈ entries) (d : π)
    (x : Entry π β) : x ∈ entries.map (moved e.main d)
      ↔ x ∈ { e with main := d } :: entries.filter fun x => x.main ≠ e.main := by
  rw [List.mem_map, List.mem_cons, List.mem_filter]
  constructor
  · rintro ⟨y, hy, rfl⟩
    unfold moved
    split
    · next heq => exact Or.inl (by rw [h.eq_of_main hy he heq])
    · next hne => exact Or.inr ⟨hy, decide_eq_true hne⟩
  · rintro (rfl | ⟨hx, hne⟩)
    · exact ⟨e, he, if_pos rfl⟩
    · exact ⟨x, hx, if_neg (of_decide_eq_true hne)⟩

theorem nodup_map_moved (h : L.Holds base entries files) {d : π} (p : π) (hfree : files d = none) :
    ((entries.map (moved p d)).map Entry.main).Nodup := by
  rw [List.map_map]
  refine List.Nodup.map_on (fun x hx y hy heq => ?_) h.nodup.of_map
  have hx' := h.ne_main hfree hx
  have hy' := h.ne_main hfree hy
  simp only [Function.comp_apply, moved] at heq
  split at heq <;> split at heq
  · next hxp hyp => exact h.eq_of_main hx hy (hxp.trans hyp.symm)
  · exact absurd heq.symm hy'
  · exact absurd heq hx'
  · exact h.eq_of_main hx hy heq

omit [DecidableEq π] in
/-- The order of the entries is irrelevant. -/
theorem congr (h : L.Holds base entries files) {entries' : List (Entry π β)}
    (hmem : ∀ x, x ∈ entries' ↔ x ∈ entries) (hnodup : (entries'.map Entry.main).Nodup) :
    L.Holds base entries' files :=
  ⟨hnodup, fun x hx => h.main x ((hmem x).mp hx), fun x hx => h.fresh x ((hmem x).mp hx),
    fun x hx => h.content x ((hmem x).mp hx), fun x hx => h.extra x ((hmem x).mp hx),
    fun q hq => h.rest q fun x hx => hq x ((hmem x).mpr hx)⟩

/-- A file and its companion are moved together. Names change in two
places at once, so the entries before and after are compared name by
name. -/
theorem move (h : L.Holds base entries files) (he : e ∈ entries) {d : π} (hd : L.Main d)
    (hfree : files d = none) (hside : files (L.side d) = none) :
    L.Holds base (entries.map (moved e.main d))
      (Function.update (Function.update
        (Function.update (Function.update files e.main none) (L.side e.main) none) d
          (some e.content)) (L.side d) e.extra) := by
  have hnone : ∀ q, files q = none →
      Function.update (Function.update files e.main none) (L.side e.main) none q = none := by
    intro q hq
    rw [Function.update_apply, Function.update_apply]
    split
    · rfl
    · split
      · rfl
      · exact hq
  have hput := (h.remove he).put hd (hnone d hfree) (hnone _ hside) e.content e.extra
  exact hput.congr (h.mem_map_moved he d) (h.nodup_map_moved e.main hfree)

end Holds

end Layout
