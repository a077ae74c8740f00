import Mathlib.Data.Option.Basic

/-!
# A link stored at both ends

Left records may name a right record, and right records may name a left
one. The two references are of different kinds. Those of the left are
checked when they are written: a foreign key sees to it that the right
record exists, and a unique index that nobody else names it. Those of the
right are checked by nobody. They are written later, in a step of their
own, by a writer that remembers which left record it has made. Deleting a
record clears the references to it, on either side.

## What is shown

The two ends agree in the sense of `Backlink.Inv`: whenever a right record
names a left one, that one is there and names it back. The converse is not
part of it, since between the two steps of a writer the left record names
the right one and is not yet named by it.

## What carries it

The step that writes the right end is only as good as what its writer
knows. What it knows is a promise (`Promised`): of the pair it remembers,
either is gone or the left one names the right one. A writer holds a
promise from its first step on, and must still hold it at the second one,
when others have deleted and inserted records in between. Promises survive
every step (`Step.promised`), because no identifier is issued twice: a
record that is gone does not come back as another one. With the promise,
every step keeps the two ends in agreement (`Step.inv`).
-/

namespace Backlink

variable {ι : Type*}

/-- The records of the two sides, with what they name. A record may be
missing, and one that is there may name nothing. -/
structure State (ι : Type*) where
  left : ι → Option (Option ι)
  right : ι → Option (Option ι)
  /-- The identifiers that have been in use. -/
  issued : ι → Prop

/-- What a writer may remember about a right record and a left one. It
says nothing about whether the two are there, which others may change at
any time: it says what the left one names if both are. -/
structure Promised (s : State ι) (b a : ι) : Prop where
  issued_right : s.issued b
  issued_left : s.issued a
  names : ∀ o, s.left a = some o → s.right b ≠ none → o = some b

variable [DecidableEq ι]

/-- What a step may do. A system whose steps are all of these kinds keeps
its two ends in agreement, whatever else it does to its records. -/
inductive Step (s s' : State ι) : Prop
  /-- Nothing that concerns the links. -/
  | stutter (hleft : s'.left = s.left) (hright : s'.right = s.right)
  /-- A new left record, which may name a right one that nobody names. -/
  | insertLeft (a : ι) (o : Option ι) (hnew : ¬ s.issued a) (hissued : s'.issued a)
      (hexists : ∀ b, o = some b → s.right b ≠ none)
      (hfree : ∀ b, o = some b → ∀ a', s.left a' ≠ some (some b))
      (hleft : ∀ x, s'.left x = if x = a then some o else s.left x) (hright : s'.right = s.right)
  /-- A new right record. -/
  | insertRight (b : ι) (hnew : ¬ s.issued b) (hissued : s'.issued b)
      (hleft : s'.left = s.left)
      (hright : ∀ x, s'.right x = if x = b then some none else s.right x)
  /-- A right record, if it is there, gets the name of a left one that
  is. -/
  | link (b a : ι) (hpromised : Promised s b a) (hexists : s.right b ≠ none → s.left a ≠ none)
      (hleft : s'.left = s.left)
      (hright : ∀ x, s'.right x = if x = b then (s.right b).map (fun _ => some a) else s.right x)
  /-- A left record goes, and is forgotten. -/
  | dropLeft (a : ι) (hleft : ∀ x, s'.left x = if x = a then none else s.left x)
      (hright : ∀ x, s'.right x = (s.right x).map (Option.filter (· ≠ a)))
  /-- A right record goes, and is forgotten. -/
  | dropRight (b : ι) (hleft : ∀ x, s'.left x = (s.left x).map (Option.filter (· ≠ b)))
      (hright : ∀ x, s'.right x = if x = b then none else s.right x)

/-- The two ends agree. Only `back` is what one wants to know; the other
parts are what makes it survive: a right record is named by one left
record at most, what is named exists, and what exists has an identifier
that was issued. -/
structure Inv (s : State ι) : Prop where
  unique : ∀ a a' b, s.left a = some (some b) → s.left a' = some (some b) → a = a'
  back : ∀ a b, s.right b = some (some a) → s.left a = some (some b)
  exists_right : ∀ a b, s.left a = some (some b) → s.right b ≠ none
  issued_left : ∀ a, s.left a ≠ none → s.issued a
  issued_right : ∀ b, s.right b ≠ none → s.issued b

variable {s s' : State ι}

theorem map_filter_eq_some_some {o : Option (Option ι)} {a b : ι} :
    o.map (Option.filter (· ≠ a)) = some (some b) ↔ o = some (some b) ∧ b ≠ a := by
  rcases o with _ | _ | c
  · simp
  · simp
  · by_cases h : c = a
    · subst h
      simp only [Option.map_some, Option.some.injEq, Option.filter_eq_some_iff]
      constructor
      · rintro ⟨rfl, hne⟩
        simp at hne
      · rintro ⟨rfl, hne⟩
        exact absurd rfl hne
    · simp only [Option.map_some, Option.some.injEq, Option.filter_eq_some_iff]
      constructor
      · rintro ⟨rfl, hne⟩
        exact ⟨rfl, by simpa using hne⟩
      · rintro ⟨rfl, hne⟩
        exact ⟨rfl, by simpa using hne⟩

/-- What a writer remembers stays true. Whoever deletes the left record
takes the promise's premise away, and whoever deletes the right one does
the same; nobody makes a new record under an old identifier. -/
theorem Step.promised (h : Step s s') (hgrow : ∀ x, s.issued x → s'.issued x) {b a : ι}
    (hp : Promised s b a) : Promised s' b a := by
  refine ⟨hgrow b hp.issued_right, hgrow a hp.issued_left, fun o ho hb => ?_⟩
  -- by what the step does to the two records
  cases h with
  | stutter hleft hright => exact hp.names o (hleft ▸ ho) (hright ▸ hb)
  | insertLeft a₀ o₀ hnew hissued hexists hfree hleft hright =>
    have hne : a ≠ a₀ := fun heq => hnew (heq ▸ hp.issued_left)
    rw [hleft, if_neg hne] at ho
    exact hp.names o ho (hright ▸ hb)
  | insertRight b₀ hnew hissued hleft hright =>
    have hne : b ≠ b₀ := fun heq => hnew (heq ▸ hp.issued_right)
    rw [hright, if_neg hne] at hb
    exact hp.names o (hleft ▸ ho) hb
  | link b₀ a₀ hpromised hexists hleft hright =>
    refine hp.names o (hleft ▸ ho) fun hnone => hb ?_
    rw [hright]
    split
    · next heq => rw [← heq, hnone, Option.map_none]
    · exact hnone
  | dropLeft a₀ hleft hright =>
    rw [hleft] at ho
    split at ho
    · exact absurd ho (by simp)
    · refine hp.names o ho fun hnone => hb ?_
      rw [hright, hnone, Option.map_none]
  | dropRight b₀ hleft hright =>
    rw [hright] at hb
    split at hb
    · exact absurd rfl hb
    · next hne =>
      rw [hleft] at ho
      obtain ⟨o₁, ho₁, rfl⟩ := Option.map_eq_some_iff.mp ho
      obtain rfl := hp.names o₁ ho₁ hb
      exact Option.filter_some_pos (by simpa using hne)

/-- **The two ends keep agreeing.** Only one case needs more than the
invariant: when the right end is written, it is the writer's promise that
says that the left record names the right one. -/
theorem Step.inv (h : Step s s') (hgrow : ∀ x, s.issued x → s'.issued x) (hinv : Inv s) :
    Inv s' := by
  cases h with
  | stutter hleft hright =>
    refine ⟨?_, ?_, ?_, fun a ha => hgrow a (hinv.issued_left a (hleft ▸ ha)),
      fun b hb => hgrow b (hinv.issued_right b (hright ▸ hb))⟩ <;> rw [hleft]
    · exact hinv.unique
    · rw [hright]
      exact hinv.back
    · rw [hright]
      exact hinv.exists_right
  | insertLeft a₀ o₀ hnew hissued hexists hfree hleft hright =>
    -- the new record is none of the old ones, and nobody names what it names
    have hold : ∀ {a o}, s.left a = some o → a ≠ a₀ := fun ha heq =>
      hnew (hinv.issued_left a₀ (by rw [← heq, ha]; simp))
    refine ⟨fun a a' b ha ha' => ?_, fun a b hb => ?_, fun a b ha => ?_, fun a ha => ?_,
      fun b hb => hgrow b (hinv.issued_right b (hright ▸ hb))⟩
    · rw [hleft] at ha ha'
      split at ha <;> split at ha'
      · next h h' => exact h.trans h'.symm
      · exact absurd ha' (hfree b (Option.some.inj ha) a')
      · exact absurd ha (hfree b (Option.some.inj ha') a)
      · exact hinv.unique a a' b ha ha'
    · rw [hright] at hb
      have hback := hinv.back a b hb
      rw [hleft, if_neg (hold hback)]
      exact hback
    · rw [hright]
      rw [hleft] at ha
      split at ha
      · exact hexists b (Option.some.inj ha)
      · exact hinv.exists_right a b ha
    · rw [hleft] at ha
      split at ha
      · next heq => exact heq ▸ hissued
      · exact hgrow a (hinv.issued_left a ha)
  | insertRight b₀ hnew hissued hleft hright =>
    have hold : ∀ {b}, s.right b ≠ none → b ≠ b₀ := fun hb heq =>
      hnew (heq ▸ hinv.issued_right _ hb)
    refine ⟨?_, fun a b hb => ?_, fun a b ha => ?_,
      fun a ha => hgrow a (hinv.issued_left a (hleft ▸ ha)), fun b hb => ?_⟩
    · rw [hleft]
      exact hinv.unique
    · rw [hleft]
      rw [hright] at hb
      split at hb
      · exact absurd hb (by simp)
      · exact hinv.back a b hb
    · rw [hleft] at ha
      have hb := hinv.exists_right a b ha
      rw [hright, if_neg (hold hb)]
      exact hb
    · rw [hright] at hb
      split at hb
      · next heq => exact heq ▸ hissued
      · exact hgrow b (hinv.issued_right b hb)
  | link b₀ a₀ hpromised hexists hleft hright =>
    have hnone : ∀ b, s'.right b = none ↔ s.right b = none := by
      intro b
      rw [hright]
      split
      · next heq => rw [Option.map_eq_none_iff, heq]
      · exact Iff.rfl
    refine ⟨?_, fun a b hb => ?_, fun a b ha => ?_,
      fun a ha => hgrow a (hinv.issued_left a (hleft ▸ ha)),
      fun b hb => hgrow b (hinv.issued_right b fun h => hb ((hnone b).mpr h))⟩
    · rw [hleft]
      exact hinv.unique
    · rw [hleft]
      rw [hright] at hb
      split at hb
      · next heq =>
        -- the writer's promise: the left record is there, so it names the right one
        obtain ⟨o, ho, hoa⟩ := Option.map_eq_some_iff.mp hb
        obtain rfl := Option.some.inj hoa
        have hb₀ : s.right b₀ ≠ none := by rw [ho]; simp
        obtain ⟨o', ho'⟩ := Option.ne_none_iff_exists'.mp (hexists hb₀)
        rw [ho', hpromised.names o' ho' hb₀, heq]
      · exact hinv.back a b hb
    · rw [hleft] at ha
      exact fun h => hinv.exists_right a b ha ((hnone b).mp h)
  | dropLeft a₀ hleft hright =>
    have hsome : ∀ {a o}, s'.left a = some o → s.left a = some o ∧ a ≠ a₀ := fun ha => by
      rw [hleft] at ha
      split at ha
      · exact absurd ha (by simp)
      · next hne => exact ⟨ha, hne⟩
    have hnone : ∀ b, s'.right b = none ↔ s.right b = none := fun b => by
      rw [hright, Option.map_eq_none_iff]
    refine ⟨fun a a' b ha ha' => hinv.unique a a' b (hsome ha).1 (hsome ha').1, fun a b hb => ?_,
      fun a b ha h => hinv.exists_right a b (hsome ha).1 ((hnone b).mp h), fun a ha => ?_,
      fun b hb => hgrow b (hinv.issued_right b fun h => hb ((hnone b).mpr h))⟩
    · rw [hright, map_filter_eq_some_some] at hb
      rw [hleft, if_neg hb.2]
      exact hinv.back a b hb.1
    · obtain ⟨o, ho⟩ := Option.ne_none_iff_exists'.mp ha
      exact hgrow a (hinv.issued_left a (by rw [(hsome ho).1]; simp))
  | dropRight b₀ hleft hright =>
    have hsome : ∀ {a b}, s'.left a = some (some b) → s.left a = some (some b) ∧ b ≠ b₀ :=
      fun ha => by
        rw [hleft, map_filter_eq_some_some] at ha
        exact ha
    refine ⟨fun a a' b ha ha' => hinv.unique a a' b (hsome ha).1 (hsome ha').1, fun a b hb => ?_,
      fun a b ha => ?_, fun a ha => ?_, fun b hb => ?_⟩
    · rw [hright] at hb
      split at hb
      · exact absurd hb (by simp)
      · next hne =>
        rw [hleft, map_filter_eq_some_some]
        exact ⟨hinv.back a b hb, hne⟩
    · rw [hright, if_neg (hsome ha).2]
      exact hinv.exists_right a b (hsome ha).1
    · refine hgrow a (hinv.issued_left a fun h => ha ?_)
      rw [hleft, h, Option.map_none]
    · rw [hright] at hb
      split at hb
      · exact absurd rfl hb
      · exact hgrow b (hinv.issued_right b hb)

end Backlink
