import VisionBill.Lib.Transition
import VisionBill.CollectionDB

/-!
# Collections

`CollectionService` on top of the statements of `CollectionDB`. Two of its
rules are looked at here. At most one collection of a user is active,
which is kept by an index of the table, and no two collections of a user
have one name, which is kept by the service alone.

## Activation

`activate` makes the other collections of the caller inactive and then the
one that is asked for active. For the owner of a collection this does what
its docstring says, whatever was active before. An administrator activates
collections of others, and for an administrator the siblings are left as
they are: if the owner has another active collection, the index refuses
the statement and the request fails with an error that nobody catches.
That is the only case in which there is not exactly one active collection
afterwards (`activate_givesOneActive`). The administrator can still get
there: by deactivating the other one first
(`givesOneActive_of_deactivated`).

## Names

`create` and `update` look a name up among the collections of the caller,
in any case of its letters. Whoever creates a collection is its owner, so
this is right for `create`. An administrator who renames a collection of
somebody else has looked in the wrong place: the name may be taken for the
owner, and a name that is free for the owner may be refused. As long as no
update looks in the wrong place to an effect, names stay unique for each
owner, and a name is refused only if it is taken (`names_unique`).

Names are compared as they are stored, and they are stored as validation
returns them. So validation is modelled with them: a value of the type
that it returns is a collapsed text of at most a hundred characters, and
validation gives such a text back unchanged (`validateName_of_isName`), so
that a form can send the name that it shows.
-/

namespace VisionBill

/-! ## Values

Names and colours are validated when the body is read. A type whose values
are names that have passed says so once, and nothing after it has to look
at a name again. -/

/-- `normalize_collection_name`: spaces at the ends go, and those between
two words become one. -/
def normalizeCollectionName (raw : String) : String := strip (collapse raw)

/-- A hexadecimal digit. -/
def isHexDigit (c : Char) : Bool :=
  ('0' ≤ c && c ≤ '9') || ('a' ≤ c && c ≤ 'f') || ('A' ≤ c && c ≤ 'F')

/-- `is_valid_hex_color`. The `$` of the pattern also matches before a
line break at the end. -/
def isValidHexColor (value : String) : Bool :=
  let l := value.toList
  match if l.getLast? = some '\n' then l.dropLast else l with
  | '#' :: digits => digits.all isHexDigit && (digits.length == 3 || digits.length == 6)
  | _ => false

/-- What the name of a collection is after validation. It is the invariant
of what the bodies carry, and with it of what the table has. -/
def IsCollectionName (name : String) : Prop :=
  normalizeCollectionName name = name ∧ name ≠ "" ∧ name.toList.length ≤ 100

instance : DecidablePred IsCollectionName := fun _ => inferInstanceAs (Decidable (_ ∧ _))

/-- The validation of a name: `min_length=1`, `max_length=100`, and
`_validate_name`. -/
def validateName (raw : String) : Except PyError {name : String // IsCollectionName name} :=
  if hlength : 1 ≤ raw.toList.length ∧ raw.toList.length ≤ 100 then
    if hblank : normalizeCollectionName raw = "" then .error (.valueError "name must not be blank")
    else .ok ⟨normalizeCollectionName raw, by
      refine ⟨?_, hblank, le_trans ?_ hlength.2⟩
      · unfold normalizeCollectionName
        rw [strip_collapse, strip_collapse, collapse_collapse]
      · unfold normalizeCollectionName
        rw [strip_collapse, collapse, String.toList_ofList]
        exact Words.length_collapse_le _⟩
  else .error (.validationError "name")

/-- Validation accepts a name of up to a hundred characters in which there
is one that is no space, and collapses it. -/
theorem validateName_eq_ok_iff {raw : String} {name : {name : String // IsCollectionName name}} :
    validateName raw = .ok name ↔ 1 ≤ raw.toList.length ∧ raw.toList.length ≤ 100
      ∧ normalizeCollectionName raw ≠ "" ∧ name.val = normalizeCollectionName raw := by
  unfold validateName
  split
  · next hlength =>
    rw [and_iff_right hlength.1, and_iff_right hlength.2]
    split
    · next hblank => exact iff_of_false (by simp) fun h => h.1 hblank
    · next hblank =>
      rw [and_iff_right hblank, Except.ok.injEq, Subtype.ext_iff]
      exact eq_comm
  · next hlength => exact iff_of_false (by simp) fun h => hlength ⟨h.1, h.2.1⟩

/-- **What has been validated is accepted again as it is**, so a form may
send back the name that it shows. Collapsing its spaces changes nothing
the second time, and has made it no longer. -/
theorem validateName_of_isName {name : String} (h : IsCollectionName name) :
    validateName name = .ok ⟨name, h⟩ := by
  obtain ⟨hnormal, hne, hlength⟩ := h
  refine validateName_eq_ok_iff.mpr ⟨?_, hlength, hnormal.symm ▸ hne, hnormal.symm⟩
  refine List.length_pos_iff.mpr fun hnil => hne ?_
  rw [← String.toList_inj, hnil]
  rfl

/-- `CollectionCreate`. The name is one that has been validated, so no
other can reach the service. -/
structure CollectionCreate where
  name : String
  color : Option String
  startDate : Option Date
  endDate : Option Date
  active : Bool
  isName : IsCollectionName name

/-- `CollectionUpdate`. A field that is not sent, or sent as null, keeps
its value. -/
structure CollectionUpdate where
  name : Option String
  color : Option String
  startDate : Option Date
  endDate : Option Date
  isName : ∀ n ∈ name, IsCollectionName n

/-- How a service call fails. The endpoints answer each of them with
another status, and the last is not caught at all. -/
inductive CollectionError
  /-- `ValueError`, with its message. -/
  | valueError (message : String)
  /-- `NameConflictError`, with its message. -/
  | nameConflict (message : String)
  /-- `NotFoundError`, with its message. -/
  | notFound (message : String)
  /-- What a statement raises. -/
  | database (e : DbError)
  deriving DecidableEq

/-- What is stored after a call, and its answer. -/
abbrev CollectionOutcome (α : Type) := Db × Except CollectionError α

/-! ## Activation

A user has at most one active collection, which an index of the table
guarantees. Activating one therefore deactivates the others first, but
whose others these are is where the two kinds of callers differ. -/

namespace Db

/-- `SET_ACTIVE_SQL` as a call: a statement that fails changes nothing.
What it raises is not caught by the service. -/
def runSetActive (db : Db) (caller : Caller) (collectionId : UUID) (active : Bool) :
    CollectionOutcome (Option CollectionRecord) :=
  match db.setActive caller collectionId active with
  | .ok (some (db', row)) => (db', .ok (some row))
  | .ok none => (db, .ok none)
  | .error e => (db, .error (.database e))

/-- `CollectionDB.activate`: only for those who may not see everything the
siblings are made inactive, after a check of the owner. The siblings are
those of the caller, in either case. -/
def activateCollection (db : Db) (caller : Caller) (collectionId : UUID) :
    CollectionOutcome (Option CollectionRecord) :=
  if caller.canSeeAll then db.runSetActive caller collectionId true
  else
    match db.collectionFor? caller collectionId with
    | none => (db, .ok none)
    | some _ => (db.deactivateSiblings caller.userId).runSetActive caller collectionId true

/-- A call that has to find its collection. One that the caller may not
see is not found either, so that its existence stays hidden. -/
def orNotFound (outcome : CollectionOutcome (Option CollectionRecord)) :
    CollectionOutcome CollectionRecord :=
  match outcome with
  | (db, .ok (some row)) => (db, .ok row)
  | (db, .ok none) => (db, .error (.notFound "Collection not found"))
  | (db, .error e) => (db, .error e)

/-- `CollectionService.activate`. -/
def activate (db : Db) (caller : Caller) (collectionId : UUID) :
    CollectionOutcome CollectionRecord :=
  orNotFound (db.activateCollection caller collectionId)

/-- `CollectionService.deactivate`. -/
def deactivate (db : Db) (caller : Caller) (collectionId : UUID) :
    CollectionOutcome CollectionRecord :=
  orNotFound (db.runSetActive caller collectionId false)

/-- Whether another collection of the owner of a collection is active. The
owner is that of the row, and need not be the caller. This is what the
index looks at when the collection is made active. -/
def OtherActive (db : Db) (collectionId : UUID) : Prop :=
  ∃ current ∈ db.collections.get? collectionId, ∃ c ∈ db.collections.rows,
    c.active = true ∧ c.userId = current.userId ∧ c.id ≠ collectionId

instance (db : Db) (collectionId : UUID) : Decidable (db.OtherActive collectionId) :=
  inferInstanceAs (Decidable (∃ current ∈ db.collections.get? collectionId, _))

/-- **One collection is active**: of a collection that the caller does not
see nothing is done, and otherwise it is afterwards the only active one of
its owner, while nothing else has changed. The answer is the row as it is
then. -/
def GivesOneActive (db : Db) (caller : Caller) (collectionId : UUID)
    (outcome : CollectionOutcome CollectionRecord) : Prop :=
  match db.collectionFor? caller collectionId with
  | none => outcome = (db, .error (.notFound "Collection not found"))
  | some current => outcome.2 = .ok { current with active := true }
    ∧ outcome.1 = { db with collections := outcome.1.collections }
    ∧ ∀ id, outcome.1.collections.get? id = (db.collections.get? id).map fun c =>
      if c.userId = current.userId then { c with active := decide (c.id = collectionId) } else c

section Activation

variable {db : Db} {caller : Caller} {collectionId : UUID}

/-- The statement that makes a collection active. -/
theorem setActive_of_some {current : CollectionRecord}
    (hfor : db.collectionFor? caller collectionId = some current)
    (hmay : db.MayActivate current.userId collectionId) :
    db.setActive caller collectionId true = .ok (some ({ db with
      collections := db.collections.update collectionId (fun c => { c with active := true })
        fun _ => rfl }, { current with active := true })) := by
  unfold setActive
  rw [hfor]
  exact if_neg fun h => h.2 hmay

/-- And when the index does not admit it. -/
theorem setActive_of_not_mayActivate {current : CollectionRecord}
    (hfor : db.collectionFor? caller collectionId = some current)
    (hmay : ¬ db.MayActivate current.userId collectionId) :
    db.setActive caller collectionId true = .error .uniqueViolation := by
  unfold setActive
  rw [hfor]
  exact if_pos ⟨rfl, hmay⟩

/-- A collection that a caller sees. -/
theorem collectionFor?_eq_some_iff {current : CollectionRecord} :
    db.collectionFor? caller collectionId = some current
      ↔ db.collections.get? collectionId = some current
        ∧ (caller.canSeeAll = true ∨ current.userId = caller.userId) := by
  unfold collectionFor?
  rw [Option.filter_eq_some_iff, decide_eq_true_iff, Caller.Scope, Option.some_inj]

/-- What the index asks for, in terms of the state before the request. -/
theorem mayActivate_iff_not_otherActive {current : CollectionRecord}
    (hget : db.collections.get? collectionId = some current) :
    db.MayActivate current.userId collectionId ↔ ¬ db.OtherActive collectionId := by
  constructor
  · rintro hmay ⟨current', hcurrent', c, hc, hactive, huser, hne⟩
    obtain rfl := Option.some.inj (hget.symm.trans hcurrent')
    exact hne (hmay c hc hactive huser)
  · intro hnot c hc hactive huser
    by_contra hne
    exact hnot ⟨current, hget, c, hc, hactive, huser, hne⟩

/-- An administrator may make a collection active whose owner has no
other. Nothing has to be made inactive then. -/
theorem givesOneActive_of_mayActivate {current : CollectionRecord}
    (hfor : db.collectionFor? caller collectionId = some current) (hsee : caller.canSeeAll = true)
    (hmay : db.MayActivate current.userId collectionId) :
    db.GivesOneActive caller collectionId (db.activate caller collectionId) := by
  have hactivate : db.activate caller collectionId = ({ db with
      collections := db.collections.update collectionId (fun c => { c with active := true })
        fun _ => rfl }, .ok { current with active := true }) := by
    unfold activate activateCollection runSetActive
    rw [if_pos hsee, setActive_of_some hfor hmay]
    rfl
  unfold GivesOneActive
  rw [hfor, hactivate]
  refine ⟨rfl, rfl, fun id => ?_⟩
  rw [Table.get?_update]
  by_cases hid : id = collectionId
  · subst hid
    rw [if_pos rfl, (collectionFor?_eq_some_iff.mp hfor).1, Option.map_some, Option.map_some,
      if_pos rfl, decide_eq_true (Table.get?_eq_some_iff.mp (collectionFor?_eq_some_iff.mp hfor).1).2]
  · rw [if_neg hid]
    refine Option.map_id'.symm.trans (Option.map_congr fun c hc => ?_)
    obtain ⟨hmem, rfl⟩ := Table.get?_eq_some_iff.mp hc
    split
    · next huser =>
      -- it was not active before
      have hinactive : c.active = false :=
        Bool.eq_false_iff.mpr fun hactive => hid (hmay c hmem hactive huser)
      rw [decide_eq_false hid, ← hinactive]
    · rfl

/-- Everybody else makes the siblings inactive first. So when the index
looks, none is left. -/
theorem givesOneActive_of_owner {current : CollectionRecord}
    (hfor : db.collectionFor? caller collectionId = some current) (hsee : ¬ caller.canSeeAll = true) :
    db.GivesOneActive caller collectionId (db.activate caller collectionId) := by
  obtain ⟨hget, hscope⟩ := collectionFor?_eq_some_iff.mp hfor
  have howner : current.userId = caller.userId := hscope.resolve_left hsee
  have hdeactivated : current.deactivatedFor caller.userId = { current with active := false } :=
    if_pos howner
  have hget' : ∀ id, (db.deactivateSiblings caller.userId).collections.get? id
      = (db.collections.get? id).map (CollectionRecord.deactivatedFor caller.userId) := fun id =>
    Table.get?_modify _ _ (CollectionRecord.id_deactivatedFor caller.userId) id
  have hfor' : (db.deactivateSiblings caller.userId).collectionFor? caller collectionId
      = some { current with active := false } := by
    rw [collectionFor?_eq_some_iff, hget', hget, Option.map_some, hdeactivated]
    exact ⟨rfl, hscope⟩
  -- all that the owner has is inactive by then
  have hmay : (db.deactivateSiblings caller.userId).MayActivate current.userId collectionId := by
    intro c hc hactive huser
    obtain ⟨c', -, rfl⟩ := List.mem_map.mp hc
    unfold CollectionRecord.deactivatedFor at hactive huser
    split at hactive
    · exact absurd hactive (by simp)
    · next hne =>
      rw [if_neg hne] at huser
      exact absurd (huser.trans howner) hne
  have hactivate : db.activate caller collectionId = ({ db with
      collections := (db.deactivateSiblings caller.userId).collections.update collectionId
        (fun c => { c with active := true }) fun _ => rfl }, .ok { current with active := true }) := by
    unfold activate activateCollection runSetActive
    rw [if_neg hsee, hfor]
    dsimp only
    rw [setActive_of_some hfor' hmay]
    rfl
  unfold GivesOneActive
  rw [hfor, hactivate]
  refine ⟨rfl, rfl, fun id => ?_⟩
  rw [Table.get?_update]
  by_cases hid : id = collectionId
  · subst hid
    rw [if_pos rfl, hget', hget, Option.map_some, Option.map_some, Option.map_some, hdeactivated,
      if_pos rfl, decide_eq_true (Table.get?_eq_some_iff.mp hget).2]
  · rw [if_neg hid, hget']
    refine Option.map_congr fun c hc => ?_
    obtain ⟨-, rfl⟩ := Table.get?_eq_some_iff.mp hc
    unfold CollectionRecord.deactivatedFor
    rw [howner, decide_eq_false hid]

/-- **Activation gives exactly one active collection, unless an
administrator activates a collection whose owner has another one**, which
violates the index of the table. -/
theorem activate_givesOneActive :
    db.GivesOneActive caller collectionId (db.activate caller collectionId)
      ↔ ¬ (caller.canSeeAll = true ∧ db.OtherActive collectionId) := by
  by_cases hsee : caller.canSeeAll = true
  · rw [and_iff_right hsee]
    cases hfor : db.collectionFor? caller collectionId with
    | none =>
      refine iff_of_true ?_ ?_
      · unfold GivesOneActive activate activateCollection runSetActive setActive
        rw [if_pos hsee, hfor]
        rfl
      · rintro ⟨current, hcurrent, -⟩
        have hsome := collectionFor?_eq_some_iff.mpr ⟨hcurrent, .inl hsee⟩
        exact absurd (hfor.symm.trans hsome) (by simp)
    | some current =>
      rw [← mayActivate_iff_not_otherActive (collectionFor?_eq_some_iff.mp hfor).1]
      refine ⟨fun h => ?_, givesOneActive_of_mayActivate hfor hsee⟩
      -- the index refuses the statement, so there is no answer to be right
      by_contra hmay
      have hactivate : db.activate caller collectionId
          = (db, .error (.database .uniqueViolation)) := by
        unfold activate activateCollection runSetActive
        rw [if_pos hsee, setActive_of_not_mayActivate hfor hmay]
        rfl
      unfold GivesOneActive at h
      rw [hfor, hactivate] at h
      exact absurd h.1 (by simp)
  · refine iff_of_true ?_ fun h => hsee h.1
    cases hfor : db.collectionFor? caller collectionId with
    | none =>
      unfold GivesOneActive activate activateCollection
      rw [if_neg hsee, hfor]
      rfl
    | some current => exact givesOneActive_of_owner hfor hsee

/-- Deactivation violates no index, since it only takes an active
collection away: a row that is found is written. -/
theorem deactivate_of_some {current : CollectionRecord}
    (hfor : db.collectionFor? caller collectionId = some current) :
    db.deactivate caller collectionId = ({ db with
      collections := db.collections.update collectionId (fun c => { c with active := false })
        fun _ => rfl }, .ok { current with active := false }) := by
  unfold deactivate runSetActive setActive
  rw [hfor]
  rfl

/-- **The way out for an administrator** is to deactivate the other
collection first: the activation that the index has refused succeeds then,
if there was only one other. In a table that satisfies the index there
never is a second one. -/
theorem givesOneActive_of_deactivated {otherId : UUID} {current other : CollectionRecord}
    (hsee : caller.canSeeAll = true) (hfor : db.collectionFor? caller collectionId = some current)
    (hother : db.collectionFor? caller otherId = some other) (hne : collectionId ≠ otherId)
    (honly : ∀ c ∈ db.collections.rows, c.active = true → c.userId = current.userId →
      c.id = collectionId ∨ c.id = otherId) :
    (db.deactivate caller otherId).1.GivesOneActive caller collectionId
      ((db.deactivate caller otherId).1.activate caller collectionId) := by
  rw [deactivate_of_some hother]
  have hfor' : ({ db with
      collections := db.collections.update otherId (fun c => { c with active := false })
        fun _ => rfl } : Db).collectionFor? caller collectionId = some current := by
    rw [collectionFor?_eq_some_iff, Table.get?_update, if_neg hne]
    exact collectionFor?_eq_some_iff.mp hfor
  refine givesOneActive_of_mayActivate hfor' hsee fun c hc hactive huser => ?_
  dsimp only at hc
  rw [Table.mem_update] at hc
  obtain ⟨hc, hid⟩ | ⟨c₀, -, -, rfl⟩ := hc
  · exact (honly c hc hactive huser).resolve_right hid
  · exact absurd hactive (by simp)

end Activation

end Db

/-! ## Names

Names are unique for each owner, and no index guarantees that: the service
looks for the name before it writes. It looks among the collections of the
caller, who need not be the owner of the collection that is renamed. -/

/-- `lower()` of the database, which depends on its collation. All that
matters is that it is a function of the text. -/
class Lower where
  lower : String → String

section Names

variable [Lower]

/-- `_validate_dates`. -/
def validateDates (startDate endDate : Option Date) : Except CollectionError Unit :=
  if ∃ s ∈ startDate, ∃ e ∈ endDate, e < s then
    .error (.valueError "start_date must be on or before end_date")
  else .ok ()

/-- The checks that `create` and `update` make of the values. -/
def CollectionValues.check (v : CollectionValues) : Except CollectionError Unit :=
  if v.name = "" then .error (.valueError "Collection name must not be blank")
  else if ∃ c ∈ v.color, isValidHexColor c = false then
    .error (.valueError "color must be a hex value like #RGB or #RRGGBB")
  else validateDates v.startDate v.endDate

/-- The values that `create` stores. -/
def CollectionCreate.values (body : CollectionCreate) : CollectionValues where
  name := normalizeCollectionName body.name
  color := body.color
  startDate := body.startDate
  endDate := body.endDate

/-- The values that `update` stores: what is not given stays. So a colour
or a date cannot be taken away again by an update. -/
def CollectionUpdate.values (body : CollectionUpdate) (current : CollectionRecord) :
    CollectionValues where
  name := (body.name.map normalizeCollectionName).getD current.name
  color := body.color.or current.color
  startDate := body.startDate.or current.startDate
  endDate := body.endDate.or current.endDate

namespace Db

/-- `find_by_name`: a collection of a user with a name, in any case. -/
def findByName (db : Db) (userId : UUID) (name : String) :
    Except DbError (Option CollectionRecord) := do
  let name ← text name
  return db.collections.rows.find? fun c => c.userId = userId ∧ Lower.lower c.name = Lower.lower name

/-- A name has to be free, but for one collection. That is the one which
is renamed, since it may keep its name or change the case of a letter. -/
def checkName (db : Db) (userId : UUID) (name : String) (except_ : Option UUID) :
    Except CollectionError Unit :=
  match db.findByName userId name with
  | .error e => .error (.database e)
  | .ok none => .ok ()
  | .ok (some existing) =>
    if some existing.id = except_ then .ok ()
    else .error (.nameConflict ("A collection named '" ++ name ++ "' already exists"))

/-- `CollectionDB.create`: two statements, if the collection is active.
The first makes the siblings inactive. -/
def insertActive (db : Db) (now : Timestamp) (newId userId : UUID) (v : CollectionValues)
    (active : Bool) : CollectionOutcome CollectionRecord :=
  let db := if active then db.deactivateSiblings userId else db
  match db.insertCollection now newId userId v active with
  | .ok (db', row) => (db', .ok row)
  | .error e => (db, .error (.database e))

/-- `CollectionService.create`. The values of the body are checked before
the name is looked up, and the name before anything is written. -/
def createCollection (db : Db) (now : Timestamp) (newId : UUID) (body : CollectionCreate)
    (userId : UUID) : CollectionOutcome CollectionRecord :=
  match body.values.check with
  | .error e => (db, .error e)
  | .ok () =>
    match db.checkName userId body.values.name none with
    | .error e => (db, .error e)
    | .ok () => db.insertActive now newId userId body.values body.active

/-- `UPDATE_COLLECTION_SQL` as a call. It changes the row or nothing, so
there is no state in between to speak of. -/
def runUpdate (db : Db) (caller : Caller) (collectionId : UUID) (v : CollectionValues) :
    CollectionOutcome (Option CollectionRecord) :=
  match db.updateCollection caller collectionId v with
  | .ok (some (db', row)) => (db', .ok (some row))
  | .ok none => (db, .ok none)
  | .error e => (db, .error (.database e))

/-- `CollectionService.update`. A new name is looked for among the
collections of the caller. -/
def changeCollection (db : Db) (collectionId : UUID) (body : CollectionUpdate) (caller : Caller) :
    CollectionOutcome (Option CollectionRecord) :=
  match db.collectionFor? caller collectionId with
  | none => (db, .ok none)
  | some current =>
    let v := body.values current
    match v.check with
    | .error e => (db, .error e)
    | .ok () =>
      match if body.name.isSome then db.checkName caller.userId v.name (some collectionId)
        else .ok () with
      | .error e => (db, .error e)
      | .ok () => db.runUpdate caller collectionId v

end Db

/-- One call of the service. Only these two write names, and any sequence
of them by any callers is a run. -/
inductive CollectionAction
  | create (now : Timestamp) (newId : UUID) (body : CollectionCreate) (userId : UUID)
  | update (collectionId : UUID) (body : CollectionUpdate) (caller : Caller)

namespace Db

/-- The database after a call. -/
def afterCollection (db : Db) : CollectionAction → Option Db
  | .create now newId body userId => some (db.createCollection now newId body userId).1
  | .update collectionId body caller => some (db.changeCollection collectionId body caller).1

/-- No user has two collections of one name, up to the case of its
letters. No index says so, which is why it is an invariant that can be
lost. -/
def NamesUnique (db : Db) : Prop :=
  ∀ c ∈ db.collections.rows, ∀ c' ∈ db.collections.rows, c.userId = c'.userId →
    Lower.lower c.name = Lower.lower c'.name → c.id = c'.id

instance (db : Db) : Decidable db.NamesUnique := inferInstanceAs (Decidable (∀ _ ∈ _, _))

/-- The invariant: names are unique, and they are such as validation lets
through. The second part is needed for the first, since an update without
a name stores the old one anew. -/
structure Named (db : Db) : Prop where
  unique : db.NamesUnique
  valid : ∀ c ∈ db.collections.rows, IsCollectionName c.name

/-- What is stored may be sent back. -/
theorem Named.validateName_name {db : Db} (h : db.Named) {c : CollectionRecord}
    (hc : c ∈ db.collections.rows) : validateName c.name = .ok ⟨c.name, h.valid c hc⟩ :=
  validateName_of_isName (h.valid c hc)

/-- A user has another collection of a name, in whatever case of its
letters. The collection that is renamed is left out, as it may keep its
name or change the case of it. -/
def NameTaken (db : Db) (userId : UUID) (name : String) (collectionId : UUID) : Prop :=
  ∃ c ∈ db.collections.rows, c.userId = userId ∧ Lower.lower c.name = Lower.lower name
    ∧ c.id ≠ collectionId

instance (db : Db) (userId : UUID) (name : String) (collectionId : UUID) :
    Decidable (db.NameTaken userId name collectionId) :=
  inferInstanceAs (Decidable (∃ _ ∈ _, _))

/-- Looking for a new name among the collections of the caller is as good
as looking for it among those of the owner: it is taken for both or for
neither. This is a condition on the state before the request. -/
def LooksRightly (db : Db) : CollectionAction → Prop
  | .create .. => True
  | .update collectionId body caller =>
    ∀ current ∈ db.collectionFor? caller collectionId, (body.values current).check.isOk = true →
      ∀ name ∈ body.name, db.NameTaken caller.userId name collectionId
        ↔ db.NameTaken current.userId name collectionId

instance (db : Db) : DecidablePred db.LooksRightly
  | .create .. => .isTrue trivial
  | .update collectionId _ caller =>
    inferInstanceAs (Decidable (∀ current ∈ db.collectionFor? caller collectionId, _ → _))

section Invariant

variable {db : Db}

/-- A name that is free for all but one collection, by the check of the
service, is not the name of another one. -/
theorem not_nameTaken_of_checkName (h : db.NamesUnique) {userId collectionId : UUID} {name : String}
    (hcheck : db.checkName userId name (some collectionId) = .ok ()) :
    ¬ db.NameTaken userId name collectionId := by
  rintro ⟨c, hc, huser, hname, hne⟩
  unfold checkName at hcheck
  split at hcheck
  · exact absurd hcheck (by simp)
  · next hnone =>
    obtain ⟨name', htext, hfind⟩ := bind_eq_ok.mp hnone
    obtain rfl := eq_of_text htext
    exact List.find?_eq_none.mp (Except.ok.inj hfind) c hc (decide_eq_true ⟨huser, hname⟩)
  · next existing hsome =>
    obtain ⟨name', htext, hfind⟩ := bind_eq_ok.mp hsome
    obtain rfl := eq_of_text htext
    have hfind' := Except.ok.inj hfind
    have hexisting := List.find?_some hfind'
    obtain ⟨huser', hname'⟩ := of_decide_eq_true hexisting
    split at hcheck
    · next hid =>
      refine hne ((h c hc existing (List.mem_of_find?_eq_some hfind') (huser.trans huser'.symm)
        (hname.trans hname'.symm)).trans (Option.some.inj hid))
    · exact absurd hcheck (by simp)

/-- A name that is free, for a collection that is to be made. The check
compares lower-case forms, as the specification does. -/
theorem not_exists_of_checkName {userId : UUID} {name : String}
    (hcheck : db.checkName userId name none = .ok ()) :
    ∀ c ∈ db.collections.rows, c.userId = userId → Lower.lower c.name ≠ Lower.lower name := by
  intro c hc huser hname
  unfold checkName at hcheck
  split at hcheck
  · exact absurd hcheck (by simp)
  · next hnone =>
    obtain ⟨name', htext, hfind⟩ := bind_eq_ok.mp hnone
    obtain rfl := eq_of_text htext
    exact List.find?_eq_none.mp (Except.ok.inj hfind) c hc (decide_eq_true ⟨huser, hname⟩)
  · exact absurd hcheck (by simp)

/-- A name that is refused is taken, by a collection of the user for whom
it has been looked up. -/
theorem nameTaken_of_checkName {userId collectionId : UUID} {name message : String}
    (hcheck : db.checkName userId name (some collectionId) = .error (.nameConflict message)) :
    db.NameTaken userId name collectionId := by
  unfold checkName at hcheck
  split at hcheck
  · exact absurd hcheck (by simp)
  · exact absurd hcheck (by simp)
  · next existing hsome =>
    obtain ⟨name', htext, hfind⟩ := bind_eq_ok.mp hsome
    obtain rfl := eq_of_text htext
    have hfind' := Except.ok.inj hfind
    have hexisting := List.find?_some hfind'
    obtain ⟨huser, hname⟩ := of_decide_eq_true hexisting
    split at hcheck
    · exact absurd hcheck (by simp)
    · next hid =>
      exact ⟨existing, List.mem_of_find?_eq_some hfind', huser, hname, fun h => hid (congrArg some h)⟩

omit [Lower] in
/-- What is made inactive keeps its identifier, its owner and its name. -/
theorem deactivatedFor_spec (userId : UUID) (c : CollectionRecord) :
    (c.deactivatedFor userId).userId = c.userId ∧ (c.deactivatedFor userId).name = c.name := by
  unfold CollectionRecord.deactivatedFor
  split <;> exact ⟨rfl, rfl⟩

/-- Making collections inactive does not touch their names. The rows are
rewritten, so it has to be said that owner and name of each are what they
were. -/
theorem Named.deactivateSiblings (h : db.Named) (userId : UUID) :
    (db.deactivateSiblings userId).Named := by
  have hsame := fun c => deactivatedFor_spec userId c
  constructor
  · intro c hc c' hc' huser hname
    obtain ⟨d, hd, rfl⟩ := List.mem_map.mp hc
    obtain ⟨d', hd', rfl⟩ := List.mem_map.mp hc'
    rw [(hsame d).1, (hsame d').1] at huser
    rw [(hsame d).2, (hsame d').2] at hname
    rw [CollectionRecord.id_deactivatedFor, CollectionRecord.id_deactivatedFor]
    exact h.unique d hd d' hd' huser hname
  · intro c hc
    obtain ⟨d, hd, rfl⟩ := List.mem_map.mp hc
    rw [(hsame d).2]
    exact h.valid d hd

omit [Lower] in
/-- A valid name is stored as it is. -/
theorem name_of_stored {v v' : CollectionValues} (hv : IsCollectionName v.name)
    (h : v.stored = .ok v') : v'.name = v.name := by
  obtain ⟨name, hname, h₁⟩ := bind_eq_ok.mp h
  obtain ⟨color, -, h₂⟩ := bind_eq_ok.mp h₁
  rw [← Except.ok.inj h₂]
  exact (eq_of_varchar_iff hname).mpr hv.2.2

omit [Lower] in
/-- What `CREATE_COLLECTION_SQL` stores: one row more, with the name as it
is, since a validated name fits its column. -/
theorem insertCollection_spec {db' : Db} {now : Timestamp} {newId userId : UUID}
    {v : CollectionValues} {active : Bool} {row : CollectionRecord} (hv : IsCollectionName v.name)
    (h : db.insertCollection now newId userId v active = .ok (db', row)) :
    db'.collections.rows = db.collections.rows ++ [row] ∧ row.userId = userId
      ∧ row.name = v.name := by
  obtain ⟨v', hv', h₁⟩ := bind_eq_ok.mp h
  have hname := name_of_stored hv hv'
  split at h₁
  · exact absurd h₁ (by simp [throw, throwThe, MonadExceptOf.throw, bind, Except.bind])
  · dsimp only at h₁
    split at h₁
    · next collections hinsert =>
      obtain ⟨rfl, rfl⟩ := Prod.mk.inj (Except.ok.inj h₁)
      exact ⟨(Table.insert_eq_some_iff.mp hinsert).2, rfl, hname⟩
    · exact absurd h₁ (by simp [throw, throwThe, MonadExceptOf.throw])

/-- A new collection with a name that is free. Only the pairs with the new
row are of interest, and the name was looked for among the collections of
its owner. -/
theorem Named.insertCollection (h : db.Named) {db' : Db} {now : Timestamp} {newId userId : UUID}
    {v : CollectionValues} {active : Bool} {row : CollectionRecord} (hv : IsCollectionName v.name)
    (hfree : ∀ c ∈ db.collections.rows, c.userId = userId →
      Lower.lower c.name ≠ Lower.lower v.name)
    (hinsert : db.insertCollection now newId userId v active = .ok (db', row)) : db'.Named := by
  obtain ⟨hrows, huser, hname⟩ := insertCollection_spec hv hinsert
  have hmem : ∀ c, c ∈ db'.collections.rows ↔ c ∈ db.collections.rows ∨ c = row := by
    intro c
    rw [hrows, List.mem_append, List.mem_singleton]
  constructor
  · intro c hc c' hc' huser' hname'
    rcases (hmem c).mp hc with hc | rfl
    · rcases (hmem c').mp hc' with hc' | rfl
      · exact h.unique c hc c' hc' huser' hname'
      · exact absurd (hname'.trans (congrArg _ hname)) (hfree c hc (huser'.trans huser))
    · rcases (hmem c').mp hc' with hc' | rfl
      · exact absurd (hname'.symm.trans (congrArg _ hname)) (hfree c' hc' (huser'.symm.trans huser))
      · rfl
  · intro c hc
    rcases (hmem c).mp hc with hc | rfl
    · exact h.valid c hc
    · rw [hname]
      exact hv

/-- A collection with new values whose name no other collection of its
owner has. The owner is that of the row; whether it is the one for whom
the name was looked up is up to the caller. -/
theorem Named.updateCollection (h : db.Named) {db' : Db} {caller : Caller} {collectionId : UUID}
    {v : CollectionValues} {current row : CollectionRecord} (hv : IsCollectionName v.name)
    (hcurrent : db.collectionFor? caller collectionId = some current)
    (hfree : ¬ db.NameTaken current.userId v.name collectionId)
    (hupdate : db.updateCollection caller collectionId v = .ok (some (db', row))) : db'.Named := by
  obtain ⟨v', hv', h₁⟩ := bind_eq_ok.mp hupdate
  have hname := name_of_stored hv hv'
  rw [hcurrent] at h₁
  obtain ⟨rfl, -⟩ := Prod.mk.inj (Option.some.inj (Except.ok.inj h₁))
  have hget := (Option.filter_eq_some_iff.mp hcurrent).1
  -- an old row that keeps its id, or the row that is updated
  have hmem : ∀ c ∈ (db.collections.update collectionId (revalued v') fun _ => rfl).rows,
      (c ∈ db.collections.rows ∧ c.id ≠ collectionId) ∨ c = revalued v' current := by
    intro c hc
    rcases Table.mem_update.mp hc with hc | ⟨c₀, hc₀, hid, rfl⟩
    · exact .inl hc
    · refine .inr ?_
      have hcurrent' := Table.get?_eq_some_iff.mp hget
      rw [db.collections.eq_of_key_eq hc₀ hcurrent'.1 (hid.trans hcurrent'.2.symm)]
  constructor
  · intro c hc c' hc' huser hname'
    rcases hmem c hc with ⟨hc, hne⟩ | rfl
    · rcases hmem c' hc' with ⟨hc', hne'⟩ | rfl
      · exact h.unique c hc c' hc' huser hname'
      · exact absurd ⟨c, hc, huser, hname'.trans (congrArg _ hname), hne⟩ hfree
    · rcases hmem c' hc' with ⟨hc', hne'⟩ | rfl
      · exact absurd ⟨c', hc', huser.symm, hname'.symm.trans (congrArg _ hname), hne'⟩ hfree
      · rfl
  · intro c hc
    rcases hmem c hc with ⟨hc, -⟩ | rfl
    · exact h.valid c hc
    · show IsCollectionName v'.name
      rw [hname]
      exact hv

/-- `create`. The check and the insertion are two statements of one call,
and nothing comes between them here. -/
theorem Named.createCollection (h : db.Named) (now : Timestamp) (newId : UUID)
    (body : CollectionCreate) (userId : UUID) :
    (db.createCollection now newId body userId).1.Named := by
  have hname : body.values.name = body.name := body.isName.1
  have hv : IsCollectionName body.values.name := hname ▸ body.isName
  unfold Db.createCollection
  split
  · exact h
  · split
    · exact h
    · next hcheck =>
      have hfree := not_exists_of_checkName hcheck
      unfold insertActive
      dsimp only
      by_cases hactive : body.active = true
      · rw [if_pos hactive]
        have hnamed := h.deactivateSiblings userId
        split
        · next db' row hinsert =>
          refine hnamed.insertCollection hv (fun c hc huser => ?_) hinsert
          obtain ⟨d, hd, rfl⟩ := List.mem_map.mp hc
          rw [(deactivatedFor_spec userId d).1] at huser
          rw [(deactivatedFor_spec userId d).2]
          exact hfree d hd huser
        · exact hnamed
      · rw [if_neg hactive]
        split
        · next db' row hinsert => exact h.insertCollection hv hfree hinsert
        · exact h

/-- `update`, if it looks for the name rightly. If the name is not new,
the row keeps it, and the invariant has nothing to say. -/
theorem Named.changeCollection (h : db.Named) (collectionId : UUID) (body : CollectionUpdate)
    (caller : Caller) (hlooks : db.LooksRightly (.update collectionId body caller)) :
    (db.changeCollection collectionId body caller).1.Named := by
  unfold Db.changeCollection
  split
  · exact h
  · next current hcurrent =>
    dsimp only
    split
    · exact h
    · next hchecked =>
      have hget := Table.get?_eq_some_iff.mp (Option.filter_eq_some_iff.mp hcurrent).1
      split
      · exact h
      · next hcheck =>
        unfold runUpdate
        split
        · next db' row hupdate =>
          cases hbody : body.name with
          | none =>
            -- the name stays
            have hname : (body.values current).name = current.name := by
              unfold CollectionUpdate.values
              rw [hbody]
              rfl
            refine h.updateCollection (hname ▸ h.valid current hget.1) hcurrent ?_ hupdate
            rintro ⟨c, hc, huser, hlower, hne⟩
            rw [hname] at hlower
            exact hne ((h.unique c hc current hget.1 huser hlower).trans hget.2)
          | some name =>
            have hname : (body.values current).name = name := by
              unfold CollectionUpdate.values
              rw [hbody]
              exact (body.isName name hbody).1
            refine h.updateCollection (hname ▸ body.isName name hbody) hcurrent ?_ hupdate
            rw [if_pos (by rw [hbody]; rfl), hname] at hcheck
            rw [hname, ← hlooks current hcurrent (by rw [hchecked]; rfl) name hbody]
            exact not_nameTaken_of_checkName h.unique hcheck
        · exact h
        · exact h

/-- An update that is rejected for its name has looked for it and found
it. -/
theorem nameTaken_of_nameConflict {collectionId : UUID} {body : CollectionUpdate} {caller : Caller}
    {message : String} (hlooks : db.LooksRightly (.update collectionId body caller))
    (h : (db.changeCollection collectionId body caller).2 = .error (.nameConflict message)) :
    ∃ current ∈ db.collectionFor? caller collectionId, ∃ name ∈ body.name,
      db.NameTaken current.userId name collectionId := by
  unfold Db.changeCollection at h
  split at h
  · exact absurd h (by simp)
  · next current hcurrent =>
    dsimp only at h
    split at h
    · next e he =>
      -- the checks of the values raise nothing of this kind
      obtain rfl : e = .nameConflict message := Except.error.inj h
      unfold CollectionValues.check validateDates at he
      split at he
      · exact absurd he (by simp)
      · split at he
        · exact absurd he (by simp)
        · split at he <;> exact absurd he (by simp)
    · next hchecked =>
      split at h
      · next e he =>
        obtain rfl : e = .nameConflict message := Except.error.inj h
        cases hbody : body.name with
        | none =>
          rw [if_neg (by rw [hbody]; simp)] at he
          exact absurd he (by simp)
        | some name =>
          have hname : (body.values current).name = name := by
            unfold CollectionUpdate.values
            rw [hbody]
            exact (body.isName name hbody).1
          rw [if_pos (by rw [hbody]; rfl), hname] at he
          exact ⟨current, hcurrent, name, rfl,
            (hlooks current hcurrent (by rw [hchecked]; rfl) name hbody).mp
              (nameTaken_of_checkName he)⟩
      · unfold runUpdate at h
        split at h <;> exact absurd h (by simp)

/-- A user who may not see everything looks rightly: the collection is the
user's own, or it is not found. -/
theorem looksRightly_of_not_canSeeAll {collectionId : UUID} {body : CollectionUpdate}
    {caller : Caller} (h : ¬ caller.canSeeAll = true) :
    db.LooksRightly (.update collectionId body caller) := by
  intro current hcurrent _ name _
  rw [(collectionFor?_eq_some_iff.mp hcurrent).2.resolve_left h]

/-- **Names are unique for each owner**, and an update is rejected for a
name only if the owner of the collection has another one of that name: as
long as nobody changes a collection of another user to a name that only
one of the two has already. -/
theorem names_unique {db₀ : Db} (h₀ : db₀.Named)
    (run : Transition.Run afterCollection LooksRightly db₀ db) :
    db.NamesUnique ∧ ∀ collectionId body caller message,
      db.LooksRightly (.update collectionId body caller) →
      (db.changeCollection collectionId body caller).2 = .error (.nameConflict message) →
      ∃ current ∈ db.collectionFor? caller collectionId, ∃ name ∈ body.name,
        db.NameTaken current.userId name collectionId := by
  have hnamed : db.Named := by
    refine run.invariant h₀ fun db action db' h hlooks hstep => ?_
    cases action with
    | create now newId body userId =>
      obtain rfl := Option.some.inj hstep
      exact h.createCollection now newId body userId
    | update collectionId body caller =>
      obtain rfl := Option.some.inj hstep
      exact h.changeCollection collectionId body caller hlooks
  exact ⟨hnamed.unique, fun _ _ _ _ hlooks h => nameTaken_of_nameConflict hlooks h⟩

end Invariant

end Db

end Names

/-! ## Two collections of one user -/

section TwoCollections

/-- `lower()` of texts in ASCII. -/
@[reducible] def asciiLower : Lower := ⟨fun s => String.ofList (s.toList.map Char.toLower)⟩

local instance asciiLowerOfCollections : Lower := asciiLower

/-- An administrator. -/
def admin : Caller := ⟨1, true⟩

theorem isName_trips : IsCollectionName "Trips" := by decide +kernel

theorem isName_work : IsCollectionName "Work" := by decide +kernel

theorem isName_lower : IsCollectionName "trips" := by decide +kernel

theorem isName_journeys : IsCollectionName "Journeys" := by decide +kernel

/-- A new collection. -/
def newCollection (name : String) (active : Bool) (isName : IsCollectionName name) :
    CollectionCreate where
  name := name
  color := none
  startDate := none
  endDate := none
  active := active
  isName := isName

/-- A new name. -/
def rename (name : String) (isName : IsCollectionName name) : CollectionUpdate where
  name := some name
  color := none
  startDate := none
  endDate := none
  isName := fun _ h => Option.mem_some_iff.mp h ▸ isName

/-- A user makes two collections, the first of which is active. -/
def tripsAndWork : List CollectionAction :=
  [.create 0 1 (newCollection "Trips" true isName_trips) 2,
    .create 0 2 (newCollection "Work" false isName_work) 2]

theorem named_empty : Db.empty.Named where
  unique := fun _ h => absurd h List.not_mem_nil
  valid := fun _ h => absurd h List.not_mem_nil

/-- The user renames one of them. -/
theorem tripsAndWork_namesUnique :
    ∃ db, Transition.Run Db.afterCollection Db.LooksRightly Db.empty db
      ∧ db.collections.rows.map CollectionRecord.name = ["Trips", "Journeys"]
      ∧ db.NamesUnique := by
  obtain ⟨db, run, hnames⟩ : ∃ db, Transition.Run Db.afterCollection Db.LooksRightly Db.empty db
      ∧ db.collections.rows.map CollectionRecord.name = ["Trips", "Journeys"] :=
    Transition.Run.of_exec
      (tripsAndWork ++ [.update 2 (rename "Journeys" isName_journeys) ⟨2, false⟩])
      (by decide +kernel)
  exact ⟨db, run, hnames, (Db.names_unique named_empty run).1⟩

/-- **An administrator gives a collection a name that its owner has
already.** The request looks the name up among the collections of the
caller, and that is the administrator. -/
theorem tripsAndWork_sharedName :
    ∃ db, Transition.Reachable Db.afterCollection Db.empty db ∧ ¬ db.NamesUnique :=
  Transition.Run.of_exec (tripsAndWork ++ [.update 2 (rename "trips" isName_lower) admin])
    (by decide +kernel)

/-- **An administrator cannot activate a collection whose owner has
another active one.** For an administrator no other collection is made
inactive first, so the unique index refuses the statement that activates
this one. -/
theorem tripsAndWork_notActivated :
    ∃ db, Transition.Reachable Db.afterCollection Db.empty db
      ∧ ¬ db.GivesOneActive admin 2 (db.activate admin 2) := by
  obtain ⟨db, run, hfails, hseen⟩ : ∃ db, Transition.Reachable Db.afterCollection Db.empty db
      ∧ (db.activate admin 2).2.isOk = false ∧ (db.collectionFor? admin 2).isSome = true :=
    Transition.Run.of_exec tripsAndWork (by decide +kernel)
  refine ⟨db, run, fun h => ?_⟩
  unfold Db.GivesOneActive at h
  split at h
  · next hnone =>
    rw [hnone] at hseen
    exact absurd hseen (by simp)
  · rw [h.1] at hfails
    exact absurd hfails (by simp [Except.isOk, Except.toBool])

end TwoCollections

end VisionBill
