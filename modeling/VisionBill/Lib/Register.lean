import Mathlib.Data.List.Basic
import Mathlib.Data.List.Count
import Mathlib.Data.List.Nodup
import Mathlib.Order.Nat

/-!
# A register of places

Things lie at places, at most one at each, and a register says of a number
of things where they are. Whoever moves a thing enters its new place
afterwards. Until then the register is behind: who reads it looks in vain,
or finds something else that has come to lie there in the meantime.

So it is not true at any moment that things lie where the register has
them. What stays true is a balance, place by place and thing by thing
(`Balanced`): whatever is said to be at a place, by the register or by a
move that is still to be entered, is there or has left by such a move. A
move does not touch the register and keeps the balance whatever is moved;
an entry keeps it if it replaces the place from which the thing was moved.
The order of the moves and of their entries does not matter. Once
everything is entered, things lie where the register has them
(`Balanced.settled`).

## Why one counts

Two moves that are still to be entered may have brought different things
to one place, one after the other, and the same thing may have been to a
place twice. A set of pairs would not tell these apart, so the balance
counts how often a pair of a place and a thing occurs on either side. A
place has at most one thing, so where the counts of the register are
settled the pair occurs once.

Some of the places may be of no interest, such as those of companions that
nothing registers; `Main` says which ones matter.
-/

namespace Register

variable {κ π β : Type}

/-- A move that is not entered yet: what was moved, from where, and
whereto. The key says which entry of the register it is about. -/
structure Move (κ π β : Type) where
  mover : κ
  source : π
  destination : π
  thing : β

/-- What a move takes away, and from where. -/
def Move.left (m : Move κ π β) : π × β := (m.source, m.thing)

/-- What a move brings, and whereto. -/
def Move.arrived (m : Move κ π β) : π × β := (m.destination, m.thing)

section Lies

variable [DecidableEq β] {store : π → Option β}

/-- How often a thing lies at a place: once or not at all. It is a number
so that it can be balanced against what the moves have brought and
taken. -/
def lies (store : π → Option β) (x : π × β) : ℕ := if store x.1 = some x.2 then 1 else 0

theorem lies_le_one (x : π × β) : lies store x ≤ 1 := by
  unfold lies
  split <;> simp

theorem lies_pos {x : π × β} (h : 0 < lies store x) : store x.1 = some x.2 := by
  unfold lies at h
  split at h
  · assumption
  · exact absurd h (Nat.lt_irrefl 0)

end Lies

variable [DecidableEq π] [DecidableEq β]

/-- **The register and the moves that are not entered account for the
store**: what is said to be somewhere is there, or has been moved away.
Only some of the places matter. What is said stands on the left, by the
register or by a move that has arrived; what became of it stands on the
right. -/
def Balanced (Main : π → Prop) (store : π → Option β) (places : List π) (things : List β)
    (moves : List (Move κ π β)) : Prop :=
  ∀ x, Main x.1 → (places.zip things).count x + (moves.map Move.arrived).count x
    ≤ lies store x + (moves.map Move.left).count x

variable {Main : π → Prop} {store store' : π → Option β} {places : List π}
  {things : List β} {moves moves' : List (Move κ π β)} {m : Move κ π β}

omit [DecidableEq π] [DecidableEq β] in
/-- The entry at an index. Places and things are two lists that belong
together, and this is how one is taken out of both. -/
theorem zip_entry {before after : List π} {p : π} {b : β}
    (h : things[before.length]? = some b) :
    (before ++ p :: after).zip things
      = before.zip (things.take before.length)
        ++ (p, b) :: after.zip (things.drop (before.length + 1)) := by
  obtain ⟨hlen, rfl⟩ := List.getElem?_eq_some_iff.mp h
  have hthings : things = things.take before.length
      ++ things[before.length] :: things.drop (before.length + 1) := by
    rw [List.getElem_cons_drop, List.take_append_drop]
  have htake : before.length = (things.take before.length).length := by
    rw [List.length_take, Nat.min_eq_left hlen.le]
  conv_lhs => rw [hthings]
  rw [List.zip_append htake, List.zip_cons_cons]

namespace Balanced

/-- Things that lie where the register has them are accounted for. Nothing
has been moved yet, so the history is empty. -/
theorem start (hlie : List.Forall₂ (fun p b => store p = some b) places things)
    (hnodup : places.Nodup) : Balanced Main store places things ([] : List (Move κ π β)) := by
  intro x _
  rw [List.map_nil, List.map_nil, List.count_nil, Nat.add_zero, Nat.add_zero]
  by_cases hmem : x ∈ places.zip things
  · have hstore : store x.1 = some x.2 := (List.forall₂_iff_zip.mp hlie).2 hmem
    have hentries : (places.zip things).Nodup := by
      refine List.Nodup.of_map Prod.fst ?_
      rwa [List.map_fst_zip hlie.length_eq.le]
    rw [List.count_eq_one_of_mem hentries hmem, lies, if_pos hstore]
  · rw [List.count_eq_zero_of_not_mem hmem]
    exact Nat.zero_le _

/-- **A move**, to a place where nothing lies. The thing leaves one place
and comes to lie at another, and the move that is now to be entered says
so on both sides of the balance. -/
theorem move (h : Balanced Main store places things moves)
    (hsource : store m.source = some m.thing) (hfree : store m.destination = none)
    (hstore : ∀ p, Main p → store' p = if p = m.destination then some m.thing
      else if p = m.source then none else store p) :
    Balanced Main store' places things (m :: moves) := by
  intro x hx
  have hne : m.source ≠ m.destination := fun heq => by
    rw [heq, hfree] at hsource
    exact absurd hsource (by simp)
  -- what lies there less and more is what the move accounts for
  have hlies : lies store' x + (if m.left = x then 1 else 0)
      = lies store x + if m.arrived = x then 1 else 0 := by
    obtain ⟨p, b⟩ := x
    unfold lies Move.left Move.arrived
    dsimp only
    rw [hstore p hx]
    by_cases hp : p = m.destination
    · subst hp
      simp [hfree, hne, Prod.ext_iff]
    · by_cases hp' : p = m.source
      · subst hp'
        simp [hp, Ne.symm hp, hsource, Prod.ext_iff]
      · simp [hp, hp', Ne.symm hp, Ne.symm hp', Prod.ext_iff]
  have hbefore := h x hx
  rw [List.map_cons, List.map_cons, List.count_cons, List.count_cons]
  simp only [beq_iff_eq]
  omega

/-- **An entry** of a move over the place from which the thing was moved.
The two sides lose the same: what the register said of the old place, and
what the move had taken from it. -/
theorem enter {before after : List π}
    (h : Balanced Main store (before ++ m.source :: after) things moves)
    (hthing : things[before.length]? = some m.thing) (hmoves : moves.Perm (m :: moves')) :
    Balanced Main store (before ++ m.destination :: after) things moves' := by
  intro x hx
  have hleft : m.left = (m.source, m.thing) := rfl
  have harrived : m.arrived = (m.destination, m.thing) := rfl
  have hbefore := h x hx
  rw [zip_entry hthing, (hmoves.map _).count_eq, (hmoves.map _).count_eq, List.map_cons,
    List.map_cons, List.count_cons, List.count_cons, List.count_append, List.count_cons, hleft,
    harrived] at hbefore
  rw [zip_entry hthing, List.count_append, List.count_cons]
  omega

/-- **When every move is entered**, things lie where the register has
them, each at a place of its own. Two things at one place would count
twice there, and a place has room for one. -/
theorem settled (h : Balanced Main store places things ([] : List (Move κ π β)))
    (hlen : places.length = things.length) (hmain : ∀ p ∈ places, Main p) :
    List.Forall₂ (fun p b => store p = some b) places things ∧ places.Nodup := by
  have hcount : ∀ x ∈ places.zip things, (places.zip things).count x ≤ lies store x := by
    intro x hx
    simpa using h x (hmain x.1 (List.of_mem_zip hx).1)
  have hstore : ∀ x ∈ places.zip things, store x.1 = some x.2 := fun x hx =>
    lies_pos (Nat.lt_of_lt_of_le (List.count_pos_iff.mpr hx) (hcount x hx))
  refine ⟨List.forall₂_iff_zip.mpr ⟨hlen, fun {p b} hx => hstore (p, b) hx⟩, ?_⟩
  have hentries : (places.zip things).Nodup := by
    refine List.nodup_iff_count_le_one.mpr fun x => ?_
    by_cases hx : x ∈ places.zip things
    · exact (hcount x hx).trans (lies_le_one x)
    · rw [List.count_eq_zero_of_not_mem hx]
      exact Nat.zero_le 1
  rw [← List.map_fst_zip hlen.le]
  -- two entries of one place are of the one thing that lies there
  refine hentries.map_on fun x hx y hy hfst => Prod.ext hfst ?_
  have hx' := hstore x hx
  rw [hfst, hstore y hy] at hx'
  exact (Option.some.inj hx').symm

end Balanced

end Register
