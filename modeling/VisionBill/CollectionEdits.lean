import VisionBill.Collections
import VisionBill.Lib.Concurrent
import VisionBill.Lib.ReadMergeWrite

/-!
# Two edits of one collection

`CollectionService.update` is three statements, and not one as in
`Db.changeCollection`: the collection is read, its name is looked for if
the body has one, and all four columns are written, those that the body
does not set with the values that were read. Two requests whose statements
alternate race for the row (`VisionBill.Lib.ReadMergeWrite`): if they
overlap, what the first one has written is undone
(`CollectionService.edits_kept_iff`).

## Lost updates

Two people change two different fields of a collection. Each request sets
its own field and writes the others back. If the second one has read the
row before the first one wrote it, the field of the first one is written
back to what it was. Neither request notices, and both are answered with
success.

So the statement is about two bodies that set no field together, and asks
whether the row has both changes in the end. It does exactly if the two do
not overlap, or if the one that writes first changes nothing. The second
condition is there because a change to the value that is there already
cannot be lost.

## From statements to a race

A request is at one of a few points: it has not read, it has read and will
write, it has written, or it fails. At each of them its progress in the
race is known (`Point`), and a statement moves both alike (`Point.step`).
The library then says what the two have seen when they wrote, and what is
left is to compare rows.

A request alone is `Db.changeCollection` (`run_update`), in which other
modules take it as one step.
-/

namespace VisionBill

/-! ## What an update says

A body names some of the four fields and is silent about the others. Two
bodies are disjoint if no field is named by both, and then it does not
matter which of them is applied first. -/

namespace CollectionUpdate

/-- A collection with the fields that an update sets. This is what the
update asks for; what the service stores is made from a row that was read
before. -/
def applied (body : CollectionUpdate) (c : CollectionRecord) : CollectionRecord :=
  { c with
    name := body.name.getD c.name
    color := body.color.or c.color
    startDate := body.startDate.or c.startDate
    endDate := body.endDate.or c.endDate }

/-- Two updates set no field together. This is when a user would expect
both to be kept. -/
structure Disjoint (body body' : CollectionUpdate) : Prop where
  name : body.name = none ∨ body'.name = none
  color : body.color = none ∨ body'.color = none
  startDate : body.startDate = none ∨ body'.startDate = none
  endDate : body.endDate = none ∨ body'.endDate = none

variable {body body' : CollectionUpdate}

theorem Disjoint.symm (h : body.Disjoint body') : body'.Disjoint body :=
  ⟨h.name.symm, h.color.symm, h.startDate.symm, h.endDate.symm⟩

section Fields

variable {α : Type} {new new' : Option α}

theorem or_comm_of_disjoint (h : new = none ∨ new' = none) (old : Option α) :
    new.or (new'.or old) = new'.or (new.or old) := by
  obtain rfl | rfl := h
  · rfl
  · rfl

theorem getD_comm_of_disjoint (h : new = none ∨ new' = none) (old : α) :
    new.getD (new'.getD old) = new'.getD (new.getD old) := by
  obtain rfl | rfl := h
  · rfl
  · rfl

/-- A field of the other update shows through if it does anything. -/
theorem or_eq_iff_of_disjoint (h : new = none ∨ new' = none) (old : Option α) :
    new.or old = new.or (new'.or old) ↔ new'.or old = old := by
  obtain rfl | rfl := h
  · exact eq_comm
  · exact iff_of_true rfl rfl

theorem getD_eq_iff_of_disjoint (h : new = none ∨ new' = none) (old : α) :
    new.getD old = new.getD (new'.getD old) ↔ new'.getD old = old := by
  obtain rfl | rfl := h
  · exact eq_comm
  · exact iff_of_true rfl rfl

end Fields

/-- The order of two such updates does not matter. -/
theorem Disjoint.applied_comm (h : body.Disjoint body') (c : CollectionRecord) :
    body.applied (body'.applied c) = body'.applied (body.applied c) := by
  unfold applied
  rw [CollectionRecord.mk.injEq]
  exact ⟨rfl, rfl, getD_comm_of_disjoint h.name c.name, or_comm_of_disjoint h.color c.color,
    or_comm_of_disjoint h.startDate c.startDate, or_comm_of_disjoint h.endDate c.endDate, rfl, rfl⟩

/-- One of them makes up for the other if that one changes nothing. This
is the second condition of the theorem, as it comes out of the two
rows. -/
theorem Disjoint.applied_eq_iff (h : body.Disjoint body') (c : CollectionRecord) :
    body.applied c = body.applied (body'.applied c) ↔ body'.applied c = c := by
  have hname := getD_eq_iff_of_disjoint h.name c.name
  have hcolor := or_eq_iff_of_disjoint h.color c.color
  have hstart := or_eq_iff_of_disjoint h.startDate c.startDate
  have hend := or_eq_iff_of_disjoint h.endDate c.endDate
  constructor
  · intro heq
    obtain ⟨-, -, h₁, h₂, h₃, h₄, -, -⟩ := (CollectionRecord.mk.injEq ..).mp heq
    unfold applied
    rw [hname.mp h₁, hcolor.mp h₂, hstart.mp h₃, hend.mp h₄]
  · intro heq
    rw [heq]

end CollectionUpdate

section CollectionEdits

variable [Lower]

/-! ## The statements -/

/-- A statement of `CollectionDB`. Each commits by itself, so that others
may come between the one that reads and the one that writes. -/
inductive CollectionOp
  | get (caller : Caller) (collectionId : UUID)
  | findByName (userId : UUID) (name : String)
  | update (caller : Caller) (collectionId : UUID) (values : CollectionValues)

/-- What a statement returns. -/
def CollectionOp.Ret : CollectionOp → Type
  | .get _ _ | .findByName _ _ | .update _ _ _ => Option CollectionRecord

/-- A program over these statements. -/
abbrev CollectionHandler (α : Type) := Program CollectionOp.Ret CollectionError α

/-- What a statement does. -/
def CollectionOp.outcome (db : Db) : (op : CollectionOp) → CollectionOutcome op.Ret
  | .get caller collectionId => (db, .ok (db.collectionFor? caller collectionId))
  | .findByName userId name => (db, (db.findByName userId name).mapError .database)
  | .update caller collectionId values => db.runUpdate caller collectionId values

/-- A statement of some thread. -/
def CollectionOp.exec (_ : ℕ) (db : Db) (op : CollectionOp) (_ : Unit) :
    Option (Db × Except CollectionError op.Ret) := some (op.outcome db)

/-! ## The service -/

namespace CollectionService

/-- A single statement. -/
abbrev perform (op : CollectionOp) : CollectionHandler op.Ret := Program.perform op

/-- The name is taken by another collection. -/
def checkFound (collectionId : UUID) (name : String) (existing : Option CollectionRecord) :
    CollectionHandler Unit :=
  if ∃ c ∈ existing, c.id ≠ collectionId then
    throw (.nameConflict ("A collection named '" ++ name ++ "' already exists"))
  else pure ()

/-- The end of `update`, with the values that are written. -/
def writeValues (collectionId : UUID) (caller : Caller) (v : CollectionValues) :
    CollectionHandler (Option CollectionRecord) :=
  perform (.update caller collectionId v)

/-- `update`, once the collection has been read. What the body does not
set is taken from the row that was read. -/
def merge (collectionId : UUID) (body : CollectionUpdate) (caller : Caller)
    (current : CollectionRecord) : CollectionHandler (Option CollectionRecord) :=
  let v := body.values current
  match v.check with
  | .error e => throw e
  | .ok () =>
    if body.name.isSome then do
      let existing : Option CollectionRecord ← perform (.findByName caller.userId v.name)
      checkFound collectionId v.name existing
      writeValues collectionId caller v
    else writeValues collectionId caller v

/-- `CollectionService.update`. It reads the collection, merges the body
into what was read, and writes all of it back. -/
def update (collectionId : UUID) (body : CollectionUpdate) (caller : Caller) :
    CollectionHandler (Option CollectionRecord) := do
  let current : Option CollectionRecord ← perform (.get caller collectionId)
  match current with
  | none => return none
  | some current => merge collectionId body caller current

/-- The answer to a request. -/
def respond : Option CollectionRecord → CollectionHandler Unit
  | none => throw (.notFound "Collection not found")
  | some _ => pure ()

/-- `PATCH /collections/{id}`. -/
def patch (collectionId : UUID) (body : CollectionUpdate) (caller : Caller) :
    CollectionHandler Unit := do
  let row : Option CollectionRecord ← update collectionId body caller
  respond row

/-! ## Alone

With nothing in between the program does what the operation in one piece
does. So what is known of the latter holds of a request that nobody
disturbs, and only the interleavings are left. -/

variable {db db' : Db} {collectionId : UUID} {body : CollectionUpdate} {caller : Caller}

omit [Lower] in
theorem checkFound_of_eq {name : String} {existing : CollectionRecord}
    (hid : existing.id = collectionId) : checkFound collectionId name (some existing) = pure () :=
  if_neg fun ⟨_, hc, hne⟩ => hne (Option.some.inj hc ▸ hid)

omit [Lower] in
theorem checkFound_of_ne {name : String} {existing : CollectionRecord}
    (hid : existing.id ≠ collectionId) : checkFound collectionId name (some existing)
      = throw (.nameConflict ("A collection named '" ++ name ++ "' already exists")) :=
  if_pos ⟨existing, rfl, hid⟩

omit [Lower] in
theorem merge_of_error {e : CollectionError} {seen : CollectionRecord}
    (hcheck : (body.values seen).check = .error e) :
    merge collectionId body caller seen = throw e := by
  unfold merge
  dsimp only
  rw [hcheck]

omit [Lower] in
/-- The end of `update` if the body has a name. -/
theorem merge_of_name {seen : CollectionRecord} (hcheck : (body.values seen).check = .ok ())
    (hname : body.name.isSome = true) :
    merge collectionId body caller seen = (do
      let existing : Option CollectionRecord ←
        perform (.findByName caller.userId (body.values seen).name)
      checkFound collectionId (body.values seen).name existing
      writeValues collectionId caller (body.values seen)) := by
  unfold merge
  dsimp only
  rw [hcheck]
  exact if_pos hname

omit [Lower] in
/-- The end of `update` if the name stays. -/
theorem merge_of_no_name {seen : CollectionRecord} (hcheck : (body.values seen).check = .ok ())
    (hname : body.name.isSome = false) :
    merge collectionId body caller seen
      = writeValues collectionId caller (body.values seen) := by
  unfold merge
  dsimp only
  rw [hcheck]
  exact if_neg (Bool.eq_false_iff.mp hname)

section Find

variable {userId : UUID} {name : String} {cs : List Unit}
  {f : Option CollectionRecord → CollectionHandler (Option CollectionRecord)}

theorem run_findByName {existing : Option CollectionRecord}
    (hfound : db.findByName userId name = .ok existing) :
    (perform (.findByName userId name) >>= f).run (CollectionOp.exec 0) (() :: cs) db
      = (f existing).run (CollectionOp.exec 0) cs db := by
  show (some (db, (db.findByName userId name).mapError CollectionError.database)).bind _ = _
  rw [hfound]
  rfl

theorem run_findByName_error {e : DbError} (hfound : db.findByName userId name = .error e) :
    (perform (.findByName userId name) >>= f).run (CollectionOp.exec 0) [()] db
      = some (db, .error (.database e)) := by
  show (some (db, (db.findByName userId name).mapError CollectionError.database)).bind _ = _
  rw [hfound]
  rfl

end Find

/-- **A request that nothing comes between** does what
`Db.changeCollection` says. The number of statements that it takes depends
on the request and on the database, so it is said that there is one. -/
theorem run_update (db : Db) (collectionId : UUID) (body : CollectionUpdate) (caller : Caller) :
    ∃ n, (update collectionId body caller).run (CollectionOp.exec 0) (List.replicate n ()) db
      = some (db.changeCollection collectionId body caller) := by
  have hwrite : ∀ v, (writeValues collectionId caller v).run (CollectionOp.exec 0) [()] db
      = some (db.runUpdate caller collectionId v) := by
    intro v
    show ((some (db.runUpdate caller collectionId v)).bind fun out =>
      (Program.answer out.2).run (CollectionOp.exec 0) [] out.1) = _
    obtain ⟨db', r⟩ := db.runUpdate caller collectionId v
    cases r with
    | error e => rfl
    | ok row => rfl
  have hread : ∀ n current, db.collectionFor? caller collectionId = some current →
      (update collectionId body caller).run (CollectionOp.exec 0) (List.replicate (n + 1) ()) db
        = (merge collectionId body caller current).run (CollectionOp.exec 0)
          (List.replicate n ()) db := by
    intro n current hcurrent
    show ((some (db, Except.ok (db.collectionFor? caller collectionId))).bind _) = _
    rw [hcurrent]
    rfl
  unfold Db.changeCollection
  cases hcurrent : db.collectionFor? caller collectionId with
  | none =>
    refine ⟨1, ?_⟩
    show ((some (db, Except.ok (db.collectionFor? caller collectionId))).bind _) = _
    rw [hcurrent]
    rfl
  | some current =>
    dsimp only
    -- how many statements there are depends on where the request ends
    cases hcheck : (body.values current).check with
    | error e =>
      refine ⟨1, ?_⟩
      rw [hread 0 current hcurrent, merge_of_error hcheck]
      rfl
    | ok u =>
      cases hname : body.name.isSome with
      | false =>
        refine ⟨2, ?_⟩
        rw [hread 1 current hcurrent, merge_of_no_name hcheck hname]
        exact hwrite _
      | true =>
        rw [if_pos rfl]
        unfold Db.checkName
        cases hfound : db.findByName caller.userId (body.values current).name with
        | error e =>
          refine ⟨2, ?_⟩
          rw [hread 1 current hcurrent, merge_of_name hcheck hname]
          exact run_findByName_error hfound
        | ok existing =>
          cases existing with
          | none =>
            refine ⟨3, ?_⟩
            rw [hread 2 current hcurrent, merge_of_name hcheck hname]
            exact (run_findByName hfound).trans (hwrite _)
          | some existing =>
            dsimp only
            by_cases hid : existing.id = collectionId
            · refine ⟨3, ?_⟩
              rw [hread 2 current hcurrent, merge_of_name hcheck hname,
                if_pos (congrArg some hid)]
              refine (run_findByName hfound).trans ?_
              rw [checkFound_of_eq hid]
              exact hwrite _
            · refine ⟨2, ?_⟩
              rw [hread 1 current hcurrent, merge_of_name hcheck hname,
                if_neg fun h => hid (Option.some.inj h)]
              refine (run_findByName hfound).trans ?_
              rw [checkFound_of_ne hid]
              rfl

/-! ## What is written -/

omit [Lower] in
theorem length_of_isValidHexColor {value : String} (h : isValidHexColor value = true) :
    value.toList.length ≤ 20 := by
  unfold isValidHexColor at h
  dsimp only at h
  split at h
  · next digits hdigits =>
    have hlength : digits.length ≤ 6 := by
      simp only [Bool.and_eq_true, Bool.or_eq_true, beq_iff_eq] at h
      omega
    split at hdigits
    · have hdrop := congrArg List.length hdigits
      rw [List.length_dropLast, List.length_cons] at hdrop
      omega
    · rw [hdigits, List.length_cons]
      omega
  · exact absurd h (by simp)

omit [Lower] in
/-- Values that pass the checks are stored as they are. The columns are
wide enough for what the checks let through, so none of them shortens a
value. -/
theorem eq_of_stored {v v' : CollectionValues} (hcheck : v.check = .ok ())
    (hname : v.name.toList.length ≤ 100) (h : v.stored = .ok v') : v' = v := by
  have hcolor : ∀ c ∈ v.color, c.toList.length ≤ 20 := by
    intro c hc
    refine length_of_isValidHexColor ?_
    by_contra hinvalid
    unfold CollectionValues.check at hcheck
    rw [if_pos (⟨c, hc, Bool.eq_false_iff.mpr hinvalid⟩ :
      ∃ c ∈ v.color, isValidHexColor c = false)] at hcheck
    split at hcheck
    · exact absurd hcheck (by simp)
    · exact absurd hcheck (by simp)
  obtain ⟨name, hvarchar, h₁⟩ := bind_eq_ok.mp h
  obtain ⟨color, hnullable, h₂⟩ := bind_eq_ok.mp h₁
  obtain rfl := (eq_of_varchar_iff hvarchar).mpr hname
  have hsame : color = v.color := by
    cases hv : v.color with
    | none =>
      rw [hv] at hnullable
      exact (Except.ok.inj hnullable).symm
    | some c =>
      rw [hv] at hnullable
      obtain ⟨c', hc', rfl⟩ := map_eq_ok hnullable
      exact congrArg some ((eq_of_varchar_iff hc').mpr (hcolor c hv))
  rw [← Except.ok.inj h₂, hsame]

omit [Lower] in
/-- Names keep their length. -/
theorem length_name_values {seen : CollectionRecord} (hseen : seen.name.toList.length ≤ 100) :
    (body.values seen).name.toList.length ≤ 100 := by
  unfold CollectionUpdate.values
  cases hname : body.name with
  | none => exact hseen
  | some name =>
    have hvalid := body.isName name hname
    show (normalizeCollectionName name).toList.length ≤ 100
    rw [hvalid.1]
    exact hvalid.2.2

omit [Lower] in
/-- What `UPDATE_COLLECTION_SQL` writes. It writes all columns, also those
that the request does not name, and this is where another update is
lost. -/
theorem runUpdate_spec {v : CollectionValues} {value : CollectionRecord}
    {r : Except CollectionError (Option CollectionRecord)} (hcheck : v.check = .ok ())
    (hname : v.name.toList.length ≤ 100) (hvalue : db.collections.get? collectionId = some value)
    (h : db.runUpdate caller collectionId v = (db', r)) :
    (∃ row, r = .ok (some row)
        ∧ db'.collections.get? collectionId = some (Db.revalued v value))
      ∨ r = .ok none ∨ ∃ e, r = .error e := by
  unfold Db.runUpdate at h
  split at h
  · next db₁ row hupdate =>
    obtain ⟨rfl, rfl⟩ := Prod.mk.inj h
    refine Or.inl ⟨row, rfl, ?_⟩
    obtain ⟨v', hstored, hfound⟩ := bind_eq_ok.mp hupdate
    obtain rfl := eq_of_stored hcheck hname hstored
    obtain ⟨old, -, hwrites⟩ := Option.map_eq_some_iff.mp (Except.ok.inj hfound)
    obtain ⟨rfl, -⟩ := Prod.mk.inj hwrites
    have hget := db.collections.get?_update collectionId (Db.revalued v') (fun _ => rfl)
      collectionId
    rw [if_pos rfl, hvalue] at hget
    exact hget
  · exact Or.inr (Or.inl (Prod.mk.inj h).2.symm)
  · exact Or.inr (Or.inr ⟨_, (Prod.mk.inj h).2.symm⟩)

/-! ## A request in the race

Where a request stands is summed up in a point: it has not read yet, it
has read a row, or it is done. Between reading and writing it may look for
the name, and that changes neither what it has read nor what it will
write. -/

/-- What a request makes of a row, having seen another state of it. -/
def rewrite (bodies : Bool → CollectionUpdate) (i : Bool) (seen value : CollectionRecord) :
    CollectionRecord := Db.revalued ((bodies i).values seen) value

/-- The point that a request has come to, and its progress in the race. A
request that fails leaves the race, and writes nothing. -/
inductive Point (collectionId : UUID) (body : CollectionUpdate) (caller : Caller)
    (p : CollectionHandler Unit) : Progress CollectionRecord → Prop
  | reading (hp : p = patch collectionId body caller) : Point collectionId body caller p .fresh
  | looking (seen : CollectionRecord) (hlength : seen.name.toList.length ≤ 100)
      (hcheck : (body.values seen).check = .ok ())
      (hp : p = (do
        let existing : Option CollectionRecord ←
          perform (.findByName caller.userId (body.values seen).name)
        checkFound collectionId (body.values seen).name existing
        writeValues collectionId caller (body.values seen)) >>= respond) :
      Point collectionId body caller p (.holding seen)
  | writing (seen : CollectionRecord) (hlength : seen.name.toList.length ≤ 100)
      (hcheck : (body.values seen).check = .ok ())
      (hp : p = writeValues collectionId caller (body.values seen) >>= respond) :
      Point collectionId body caller p (.holding seen)
  | finished (hp : p = .done ()) : Point collectionId body caller p .finished

omit [Lower] in
/-- The collection has been read: the values fail the checks, or they are
written in the end. -/
theorem point_merge (collectionId : UUID) (body : CollectionUpdate) (caller : Caller)
    {seen : CollectionRecord} (hlength : seen.name.toList.length ≤ 100) :
    (∃ e, merge collectionId body caller seen >>= respond = .raise e)
      ∨ Point collectionId body caller (merge collectionId body caller seen >>= respond)
        (.holding seen) := by
  cases hcheck : (body.values seen).check with
  | error e =>
    rw [merge_of_error hcheck]
    exact Or.inl ⟨e, rfl⟩
  | ok u =>
    cases hname : body.name.isSome with
    | true =>
      rw [merge_of_name hcheck hname]
      exact Or.inr (.looking seen hlength hcheck rfl)
    | false =>
      rw [merge_of_no_name hcheck hname]
      exact Or.inr (.writing seen hlength hcheck rfl)

omit [Lower] in
/-- The name has been looked for. The request goes on to write, or it ends
with a conflict, if another collection has the name. -/
theorem point_checkFound {seen : CollectionRecord} (hlength : seen.name.toList.length ≤ 100)
    (hcheck : (body.values seen).check = .ok ()) (existing : Option CollectionRecord) :
    (∃ e, (checkFound collectionId (body.values seen).name existing >>= fun _ =>
        writeValues collectionId caller (body.values seen)) >>= respond = .raise e)
      ∨ Point collectionId body caller
        ((checkFound collectionId (body.values seen).name existing >>= fun _ =>
          writeValues collectionId caller (body.values seen)) >>= respond) (.holding seen) := by
  cases existing with
  | none => exact Or.inr (.writing seen hlength hcheck rfl)
  | some existing =>
    by_cases hid : existing.id = collectionId
    · rw [checkFound_of_eq hid]
      exact Or.inr (.writing seen hlength hcheck rfl)
    · rw [checkFound_of_ne hid]
      exact Or.inl ⟨_, rfl⟩

variable {bodies : Bool → CollectionUpdate} {race : Race CollectionRecord} {i : Bool}
  {p : CollectionHandler Unit} {op : CollectionOp}
  {k : Except CollectionError op.Ret → CollectionHandler Unit} {r : Except CollectionError op.Ret}

/-- **A statement of a request is a move in the race**, unless the request
fails. This is the simulation on which the results rest: what a request
has done so far is what its party has done in the race, at every one of
its points. -/
theorem Point.step (hpoint : Point collectionId (bodies i) caller p (race.progress i))
    (hp : p = .call op k) (hexec : op.outcome db = (db', r))
    (hvalue : db.collections.get? collectionId = some race.value)
    (hlength : race.value.name.toList.length ≤ 100) :
    (∃ e, k r = .raise e) ∨ ∃ m race', race.step (rewrite bodies) i m = some race'
      ∧ Point collectionId (bodies i) caller (k r) (race'.progress i)
      ∧ db'.collections.get? collectionId = some race'.value
      ∧ race'.value.name.toList.length ≤ 100 := by
  generalize hprogress : race.progress i = progress at hpoint
  -- by what the request does next; its answer may also end it with an error
  cases hpoint with
  | reading hpatch =>
    have hcall := hpatch.symm.trans hp
    change Program.call (CollectionOp.get caller collectionId) _ = Program.call op k at hcall
    cases hcall
    obtain ⟨rfl, rfl⟩ := Prod.mk.inj hexec
    show (∃ e, (Program.answer (Except.ok (db.collectionFor? caller collectionId)) >>= _) >>= respond
      = .raise e) ∨ _
    cases hcurrent : db.collectionFor? caller collectionId with
    | none => exact Or.inl ⟨_, rfl⟩
    | some current =>
      obtain rfl := Option.some.inj
        (hvalue.symm.trans (Db.collectionFor?_eq_some_iff.mp hcurrent).1)
      refine (point_merge collectionId (bodies i) caller hlength).imp_right fun hpoint => ?_
      refine ⟨.read, race.become i (.holding race.value), ?_, ?_, hvalue, hlength⟩
      · unfold Race.step
        dsimp only
        rw [hprogress]
      · rw [Race.progress_become, if_pos rfl]
        exact hpoint
  | looking seen hseen hcheck hlook =>
    have hcall := hlook.symm.trans hp
    change Program.call (CollectionOp.findByName caller.userId _) _ = Program.call op k at hcall
    cases hcall
    obtain ⟨rfl, rfl⟩ := Prod.mk.inj hexec
    cases hfound : db.findByName caller.userId ((bodies i).values seen).name with
    | error e => exact Or.inl ⟨_, rfl⟩
    | ok existing =>
      refine (point_checkFound hseen hcheck existing).imp_right fun hpoint => ?_
      refine ⟨.wait, race, ?_, ?_, hvalue, hlength⟩
      · unfold Race.step
        dsimp only
        rw [hprogress]
      · rw [hprogress]
        exact hpoint
  | writing seen hseen hcheck hwrite =>
    have hcall := hwrite.symm.trans hp
    change Program.call (CollectionOp.update caller collectionId _) _ = Program.call op k at hcall
    cases hcall
    obtain ⟨row, rfl, hrow⟩ | rfl | ⟨e, rfl⟩ :=
      runUpdate_spec hcheck (length_name_values hseen) hvalue hexec
    · refine Or.inr ⟨.write, { race.become i .finished with
        value := rewrite bodies i seen race.value }, ?_, ?_, hrow, length_name_values hseen⟩
      · unfold Race.step
        dsimp only
        rw [hprogress]
      · show Point _ _ _ _ ((race.become i .finished).progress i)
        rw [Race.progress_become, if_pos rfl]
        exact .finished rfl
    · exact Or.inl ⟨_, rfl⟩
    · exact Or.inl ⟨_, rfl⟩
  | finished hdone => exact absurd (hdone.symm.trans hp) (by simp)

/-! ## Two requests

The two run as two threads over one database, and every schedule in which
both succeed is a run of the race. The race itself knows nothing of
collections, so what it leaves is known from the library. -/

/-- Two requests that are about to change a collection. -/
def bothEdits (db : Db) (collectionId : UUID) (bodies : Bool → CollectionUpdate)
    (callers : Bool → Caller) : Threads CollectionOp.Ret CollectionError Db :=
  ⟨db, [patch collectionId (bodies false) (callers false),
    patch collectionId (bodies true) (callers true)]⟩

/-- One of them executes its next statement. -/
def editStep (s : Threads CollectionOp.Ret CollectionError Db) (i : Bool) :
    Option (Threads CollectionOp.Ret CollectionError Db) :=
  s.step (fun request : Empty => nomatch request) CollectionOp.exec (.advance i.toNat ())

/-- What two requests come to whose statements follow a schedule. A
schedule with more statements than the requests have is not possible. -/
def interleaved (db : Db) (collectionId : UUID) (bodies : Bool → CollectionUpdate)
    (callers : Bool → Caller) (schedule : List Bool) :
    Option (Threads CollectionOp.Ret CollectionError Db) :=
  schedule.foldlM editStep (bothEdits db collectionId bodies callers)

instance : DecidablePred fun p : CollectionHandler Unit => p = .done ()
  | .done () => isTrue rfl
  | .raise _ => isFalse fun h => nomatch h
  | .call _ _ => isFalse fun h => nomatch h

/-- All requests have been answered with the collection. A request that
was refused has stored nothing, so that there is nothing of it that could
be lost; the question is only about requests that were told that they had
succeeded. -/
def AllSucceed (s : Threads CollectionOp.Ret CollectionError Db) : Prop :=
  ∀ p ∈ s.threads, p = .done ()

instance : DecidablePred AllSucceed := fun s => inferInstanceAs (Decidable (∀ p ∈ s.threads, _))

/-- What is so after the statements of a schedule: a request has failed,
or the two are in a race that this schedule leads to. -/
def Racing (collectionId : UUID) (bodies : Bool → CollectionUpdate) (callers : Bool → Caller)
    (old : CollectionRecord) (schedule : List Bool)
    (s : Threads CollectionOp.Ret CollectionError Db) : Prop :=
  ∃ p : Bool → CollectionHandler Unit, s.threads = [p false, p true]
    ∧ ((∃ i e, p i = .raise e)
      ∨ ∃ race, Race.Runs (rewrite bodies) old schedule race
        ∧ s.shared.collections.get? collectionId = some race.value
        ∧ race.value.name.toList.length ≤ 100
        ∧ ∀ i, Point collectionId (bodies i) (callers i) (p i) (race.progress i))

variable {callers : Bool → Caller} {old : CollectionRecord} {schedule : List Bool}
  {s s' : Threads CollectionOp.Ret CollectionError Db}

omit [Lower] in
theorem getElem?_pair {α : Type} (p : Bool → α) (i : Bool) :
    [p false, p true][i.toNat]? = some (p i) := by
  cases i <;> rfl

omit [Lower] in
theorem set_pair {α : Type} (p : Bool → α) (i : Bool) (x : α) :
    [p false, p true].set i.toNat x
      = [Function.update p i x false, Function.update p i x true] := by
  cases i <;> rfl

/-- One statement of a request. The simulation is kept by it, and once a
request has failed nothing needs to be said of the race any more. -/
theorem Racing.step (h : Racing collectionId bodies callers old schedule s)
    (hstep : editStep s i = some s') :
    Racing collectionId bodies callers old (schedule ++ [i]) s' := by
  obtain ⟨p, hthreads, hrest⟩ := h
  obtain ⟨op, k, db', r, hcall, hexec, rfl⟩ := Threads.step_advance hstep
  have hp : p i = .call op k := by
    rw [hthreads, getElem?_pair] at hcall
    exact Option.some.inj hcall
  have houtcome : op.outcome s.shared = (db', r) := Option.some.inj hexec
  refine ⟨Function.update p i (k r), by rw [← set_pair, ← hthreads], ?_⟩
  obtain ⟨j, e, hj⟩ | ⟨race, hruns, hvalue, hlength, hpoints⟩ := hrest
  · refine Or.inl ⟨j, e, ?_⟩
    have hne : j ≠ i := by
      rintro rfl
      exact absurd (hj.symm.trans hp) (by simp)
    rw [Function.update_of_ne hne, hj]
  · obtain ⟨e, hraise⟩ | ⟨m, race', hmove, hpoint, hvalue', hlength'⟩ :=
      (hpoints i).step hp houtcome hvalue hlength
    · exact Or.inl ⟨i, e, by rw [Function.update_self, hraise]⟩
    · refine Or.inr ⟨race', hruns.move i m hmove, hvalue', hlength', fun j => ?_⟩
      by_cases hj : j = i
      · subst hj
        rw [Function.update_self]
        exact hpoint
      · rw [Function.update_of_ne hj, Race.progress_of_step hmove hj]
        exact hpoints j

/-- And all statements of a schedule. -/
theorem Racing.foldlM {ran : List Bool} (h : Racing collectionId bodies callers old ran s)
    (hrun : schedule.foldlM editStep s = some s') :
    Racing collectionId bodies callers old (ran ++ schedule) s' := by
  induction schedule generalizing ran s with
  | nil =>
    obtain rfl := Option.some.inj hrun
    rwa [List.append_nil]
  | cons i schedule ih =>
    obtain ⟨s₁, hstep, hrest⟩ := Option.bind_eq_some_iff.mp hrun
    rw [List.append_cons]
    exact ih (h.step hstep) hrest

theorem racing_interleaved (hold : db.collections.get? collectionId = some old)
    (hlength : old.name.toList.length ≤ 100)
    (hrun : interleaved db collectionId bodies callers schedule = some s) :
    Racing collectionId bodies callers old schedule s := by
  have hstart : Racing collectionId bodies callers old []
      (bothEdits db collectionId bodies callers) := by
    refine ⟨fun i => patch collectionId (bodies i) (callers i), rfl, Or.inr ?_⟩
    exact ⟨.start old, .start, hold, hlength, fun i => .reading rfl⟩
  exact hstart.foldlM hrun

omit [Lower] in
/-- Of a race in which both requests succeed, both have finished. So the
value in the database is that of a race, and the library says which values
these are. -/
theorem Racing.outcome (h : Racing collectionId bodies callers old schedule s)
    (hdone : AllSucceed s) : ∃ race, Race.Runs (rewrite bodies) old schedule race
      ∧ s.shared.collections.get? collectionId = some race.value
      ∧ ∀ i, race.progress i = .finished := by
  obtain ⟨p, hthreads, hrest⟩ := h
  have hp : ∀ i, p i = .done () := fun i =>
    hdone (p i) (List.mem_of_getElem? (hthreads ▸ getElem?_pair p i))
  obtain ⟨i, e, hi⟩ | ⟨race, hruns, hvalue, -, hpoints⟩ := hrest
  · exact absurd ((hp i).symm.trans hi) (by simp)
  · refine ⟨race, hruns, hvalue, fun i => ?_⟩
    have hpoint := hpoints i
    rw [hp i] at hpoint
    generalize race.progress i = progress at hpoint
    cases hpoint with
    | reading hcall =>
      change Program.done () = Program.call (CollectionOp.get _ _) _ at hcall
      exact absurd hcall (by simp)
    | looking seen hseen hcheck hcall =>
      change Program.done () = Program.call (CollectionOp.findByName _ _) _ at hcall
      exact absurd hcall (by simp)
    | writing seen hseen hcheck hcall =>
      change Program.done () = Program.call (CollectionOp.update _ _ _) _ at hcall
      exact absurd hcall (by simp)
    | finished _ => rfl

/-! ## What the two leave

If both have read before either has written, the one that writes last
wins. What the other has set is lost then, unless it was so before. -/

omit [Lower] in
/-- What a request makes of a row that it has seen as it is. -/
theorem rewrite_self (bodies : Bool → CollectionUpdate) (i : Bool) (row : CollectionRecord) :
    rewrite bodies i row row = (bodies i).applied row := by
  have hname : ((bodies i).values row).name = (bodies i).name.getD row.name := by
    unfold CollectionUpdate.values
    cases hname : (bodies i).name with
    | none => rfl
    | some name => exact ((bodies i).isName name hname).1
  unfold rewrite Db.revalued CollectionUpdate.applied
  rw [hname]
  rfl

omit [Lower] in
/-- What a request makes of a row in which another one has written
since. -/
theorem rewrite_rewrite (bodies : Bool → CollectionUpdate) (i j : Bool) (row : CollectionRecord) :
    rewrite bodies i row (rewrite bodies j row row) = (bodies i).applied row :=
  rewrite_self bodies i row

/-- **No edit is lost** of two that set no field together and both
succeed, if and only if the two do not overlap or the one that writes
first changes nothing. The condition is on the schedule, the bodies and
the row before. -/
theorem edits_kept_iff (hdisjoint : (bodies false).Disjoint (bodies true))
    (hold : db.collections.get? collectionId = some old) (hlength : old.name.toList.length ≤ 100)
    (hrun : interleaved db collectionId bodies callers schedule = some s) (hdone : AllSucceed s) :
    s.shared.collections.get? collectionId
        = some ((bodies true).applied ((bodies false).applied old))
      ↔ ¬ Race.Overlap schedule
        ∨ ∀ i, schedule.getLast? = some (!i) → (bodies i).applied old = old := by
  obtain ⟨race, hruns, hvalue, hfinished⟩ := (racing_interleaved hold hlength hrun).outcome hdone
  obtain ⟨i, hlast, houtcome⟩ := hruns.outcome hfinished
  have hdisjoint' : (bodies !i).Disjoint (bodies i) := by
    cases i with
    | false => exact hdisjoint.symm
    | true => exact hdisjoint
  -- the order in which the two are meant to have effect is left open
  have hboth : (bodies true).applied ((bodies false).applied old)
      = (bodies !i).applied ((bodies i).applied old) := by
    cases i with
    | false => rfl
    | true => exact hdisjoint.symm.applied_comm old
  have hfirst : (∀ j, schedule.getLast? = some (!j) → (bodies j).applied old = old)
      ↔ (bodies i).applied old = old := by
    refine ⟨fun h => h i hlast, fun h j hj => ?_⟩
    obtain rfl : i = j := Bool.not_inj (Option.some.inj (hlast.symm.trans hj))
    exact h
  rw [hvalue, hboth, Option.some_inj, hfirst]
  obtain ⟨hoverlap, hlost⟩ | ⟨hserial, hkept⟩ := houtcome
  · rw [hlost, rewrite_rewrite, hdisjoint'.applied_eq_iff, or_iff_right (not_not.mpr hoverlap)]
  · rw [hkept, rewrite_self, rewrite_self]
    exact iff_of_true rfl (Or.inl hserial)

end CollectionService

end CollectionEdits

/-! ## A colour and a date -/

section TwoEdits

local instance asciiLowerOfEdits : Lower := asciiLower

/-- An update of the colour, and one of the first day. They set different
fields, so neither should undo the other. -/
def colorOrStart (i : Bool) : CollectionUpdate where
  name := none
  color := if i then none else some "#ff0000"
  startDate := if i then some ⟨2024, 5, 1, by decide⟩ else none
  endDate := none
  isName := fun _ h => absurd h (by simp)

/-- A collection that has neither. -/
def plainCollection : CollectionRecord where
  id := 1
  userId := 2
  name := "Trips"
  color := none
  startDate := none
  endDate := none
  active := false
  createdAt := 0

/-- A database with this collection. -/
def plainDb : Db :=
  { Db.empty with collections := ⟨[plainCollection], by decide⟩ }

theorem colorOrStart_disjoint : (colorOrStart false).Disjoint (colorOrStart true) where
  name := Or.inl rfl
  color := Or.inr rfl
  startDate := Or.inl rfl
  endDate := Or.inl rfl

/-- One request after the other. The second reads what the first has
written, and both edits are there in the end. -/
theorem colorOrStart_kept :
    ∃ s, CollectionService.interleaved plainDb 1 colorOrStart (fun _ => ⟨2, false⟩)
        [false, false, true, true] = some s
      ∧ CollectionService.AllSucceed s ∧ s.shared.collections.get? 1
        = some ((colorOrStart true).applied ((colorOrStart false).applied plainCollection)) := by
  obtain ⟨s, hrun, hdone⟩ := (Option.any_eq_true (fun s =>
    decide (CollectionService.AllSucceed s)) _).mp (show (CollectionService.interleaved plainDb 1
      colorOrStart (fun _ => ⟨2, false⟩) [false, false, true, true]).any _ = true by decide +kernel)
  have hsucceed := of_decide_eq_true hdone
  refine ⟨s, hrun, hsucceed, ?_⟩
  rw [CollectionService.edits_kept_iff colorOrStart_disjoint rfl (by decide) hrun hsucceed]
  exact Or.inl (by decide)

/-- **Two requests whose statements alternate**: the colour is lost. Both
read the collection before either writes it, and the second writes all
columns back, with the old colour among them. -/
theorem colorOrStart_lost :
    ∃ s, CollectionService.interleaved plainDb 1 colorOrStart (fun _ => ⟨2, false⟩)
        [false, true, false, true] = some s
      ∧ CollectionService.AllSucceed s ∧ s.shared.collections.get? 1
        ≠ some ((colorOrStart true).applied ((colorOrStart false).applied plainCollection)) := by
  obtain ⟨s, hrun, h⟩ := (Option.any_eq_true (fun s =>
    decide (CollectionService.AllSucceed s ∧ s.shared.collections.get? 1
      ≠ some ((colorOrStart true).applied ((colorOrStart false).applied plainCollection)))) _).mp
    (show (CollectionService.interleaved plainDb 1 colorOrStart (fun _ => ⟨2, false⟩)
      [false, true, false, true]).any _ = true by decide +kernel)
  exact ⟨s, hrun, of_decide_eq_true h⟩

end TwoEdits

end VisionBill
