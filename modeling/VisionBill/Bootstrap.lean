import VisionBill.ReceiptDB
import VisionBill.Session
import VisionBill.Lib.Program
import VisionBill.Lib.Transition

/-!
# The first administrator

`bootstrap_admin` runs whenever the application starts. On a database
without users it creates an administrator and then gives the receipts and
images that have no owner to this user, in two statements. Each statement
is committed by itself, and a start-up may stop after any of them.

A later start-up finds a user and returns at once. So what a start-up has
left undone after it has created the administrator is never done
(`backfilled_of_run`).

## Start-ups that stop

A start-up is a number of statements that get through. The last one may be
anywhere: the container is stopped, the connection is lost, a statement
raises. The docstring of the source calls the function idempotent, and it
is, for start-ups that run to their end. The test whether there is
something to do looks at the users, though, and not at the orphans, so the
condition is that the start-up which creates the administrator gets
through to its end, or finds no orphans (`Adopts`).

The condition is exact. A start-up that violates it leaves a user and an
orphan (`orphans_of_not_adopts`), no later start-up changes anything then
(`eq_of_users`), and so the orphan is there in every state that follows
(`orphans_of_run`). What repairs such a database is a statement by hand.

## The password

The administrator's password is peppered and hashed, both of which are
parameters. It matters here only as a text that can be stored.
-/

namespace VisionBill

/-! ## Users -/

/-- A row of `users`. The password is stored as a hash only, and who made
the account is not stored at all. -/
structure UserRecord where
  id : UUID
  username : String
  hashedPassword : String
  isAdmin : Bool
  createdAt : Timestamp
  deriving DecidableEq

/-- `User`. -/
structure User where
  id : UUID
  username : String
  isAdmin : Bool
  canSeeAll : Bool

/-- `_user_from_record`. -/
def UserRecord.toUser (row : UserRecord) : User where
  id := row.id
  username := row.username
  isAdmin := row.isAdmin
  canSeeAll := false

/-- The database with its users. Owners are foreign keys, so an orphan can
be given only to a user that is there. -/
structure Accounts where
  users : Table UserRecord UserRecord.id
  db : Db

namespace Accounts

/-- `CREATE_USER_SQL`. The name is unique, and the row gets the defaults
of its table. -/
def insertUser (s : Accounts) (now : Timestamp) (newId : UUID) (username hashedPassword : String)
    (isAdmin : Bool) : Except DbError (Accounts × UserRecord) := do
  let username ← varchar 100 username
  let hashedPassword ← text hashedPassword
  let row : UserRecord := {
    id := newId
    username := username
    hashedPassword := hashedPassword
    isAdmin := isAdmin
    createdAt := now }
  if ∃ u ∈ s.users.rows, u.username = username then throw .uniqueViolation
  match s.users.insert row with
  | some users => return ({ s with users := users }, row)
  | none => throw .uniqueViolation

/-- Some receipt has no owner. -/
def OrphanReceipts (s : Accounts) : Prop := ∃ r ∈ s.db.receipts.rows, r.userId = none

/-- Some image has no owner. -/
def OrphanImages (s : Accounts) : Prop := ∃ i ∈ s.db.images.rows, i.userId = none

instance : DecidablePred OrphanReceipts := fun s =>
  inferInstanceAs (Decidable (∃ r ∈ s.db.receipts.rows, _))

instance : DecidablePred OrphanImages := fun s =>
  inferInstanceAs (Decidable (∃ i ∈ s.db.images.rows, _))

/-- `SET_ORPHAN_OWNER_RECEIPTS_SQL`. -/
def setOwnerOfReceipts (s : Accounts) (userId : UUID) : Except DbError Accounts :=
  if (s.users.get? userId).isNone ∧ s.OrphanReceipts then .error .foreignKeyViolation
  else .ok { s with db := { s.db with
    receipts := s.db.receipts.modify (fun r => { r with userId := r.userId.getD userId })
      fun _ => rfl } }

/-- `SET_ORPHAN_OWNER_IMAGES_SQL`. -/
def setOwnerOfImages (s : Accounts) (userId : UUID) : Except DbError Accounts :=
  if (s.users.get? userId).isNone ∧ s.OrphanImages then .error .foreignKeyViolation
  else .ok { s with db := { s.db with
    images := s.db.images.modify (fun i => { i with userId := i.userId.getD userId })
      fun _ => rfl } }

end Accounts

/-! ## The program

The start-up counts the users, creates the administrator if there are
none, and then gives the rows without an owner to the new user, in two
statements. Each statement is committed by itself. -/

/-- The settings for `bootstrap_admin`. Name and password may both be
missing, and then no administrator is created. -/
structure AuthSettings where
  secretKey : String
  pepper : Option String
  bootstrapUsername : Option String
  bootstrapPassword : Option String

/-- `not bootstrap_username or not bootstrap_password`, otherwise. -/
def AuthSettings.credentials? (auth : AuthSettings) : Option (String × String) :=
  match auth.bootstrapUsername, auth.bootstrapPassword with
  | some username, some password =>
    if username = "" ∨ password = "" then none else some (username, password)
  | _, _ => none

/-- `effective_pepper`. -/
def AuthSettings.effectivePepper (auth : AuthSettings) : String :=
  (auth.pepper.filter (· ≠ "")).getD auth.secretKey

/-- Argon2id with the parameters of the application: the hash of a text
with a salt. -/
class PasswordHasher where
  hash : String → String → String

/-- `_peppered`. -/
def peppered [Hmac] (auth : AuthSettings) (password : String) : String :=
  if auth.effectivePepper = "" then password else Hmac.hexdigest auth.effectivePepper password

/-- `hash_password`, with the salt that is drawn. -/
def hashPassword [Hmac] [PasswordHasher] (salt password : String) (auth : AuthSettings) : String :=
  PasswordHasher.hash salt (peppered auth password)

/-- A statement of `UserDB`. Each commits by itself, so a start-up may
stop between any two of them. -/
inductive BootstrapOp
  | countUsers
  | createUser (username hashedPassword : String) (isAdmin : Bool)
  | setOwnerOfReceipts (userId : UUID)
  | setOwnerOfImages (userId : UUID)

namespace BootstrapOp

/-- What a statement returns. -/
def Ret : BootstrapOp → Type
  | countUsers => ℕ
  | createUser _ _ _ => User
  | setOwnerOfReceipts _ | setOwnerOfImages _ => Unit

/-- Whether a statement gets through, with the defaults of a new row. A
start-up that is killed is one in which the next statement does not. -/
inductive Choice
  | proceed (newId : UUID) (now : Timestamp)
  | fail
  deriving DecidableEq

/-- What a statement returns after a change, if that was possible. -/
def returning {α β : Type} (s : Accounts) (value : β → α) (written : β → Accounts) :
    Except DbError β → Accounts × Except DbError α
  | .ok out => (written out, .ok (value out))
  | .error e => (s, .error e)

/-- What a statement does that gets through. One that does not get through
changes nothing and raises what the choice says. -/
def outcome (s : Accounts) (newId : UUID) (now : Timestamp) :
    (op : BootstrapOp) → Accounts × Except DbError op.Ret
  | countUsers => (s, .ok s.users.rows.length)
  | createUser username hashedPassword isAdmin =>
    returning s (fun out => out.2.toUser) Prod.fst
      (s.insertUser now newId username hashedPassword isAdmin)
  | setOwnerOfReceipts userId => returning s (fun _ => ()) id (s.setOwnerOfReceipts userId)
  | setOwnerOfImages userId => returning s (fun _ => ()) id (s.setOwnerOfImages userId)

/-- What a statement does. -/
def exec (s : Accounts) (op : BootstrapOp) : Choice → Option (Accounts × Except DbError op.Ret)
  | .proceed newId now => some (op.outcome s newId now)
  | .fail => some (s, .error .failed)

end BootstrapOp

namespace Bootstrap

/-- A program over these statements. -/
abbrev Startup (α : Type) := Program BootstrapOp.Ret DbError α

/-- A single statement. -/
abbrev perform (op : BootstrapOp) : Startup op.Ret := Program.perform op

/-- `except asyncpg.UniqueViolationError`. -/
def skipExisting : DbError → Startup (Option User)
  | .uniqueViolation => pure none
  | e => throw e

/-- `create_user`, in its `try`. -/
def createAdmin (username hashedPassword : String) : Startup (Option User) :=
  tryCatch (do
    let admin : User ← perform (.createUser username hashedPassword true)
    return some admin) skipExisting

/-- `set_owner_of_orphan_rows`. -/
def setOwnerOfOrphanRows (userId : UUID) : Startup Unit := do
  let _ : Unit ← perform (.setOwnerOfReceipts userId)
  let _ : Unit ← perform (.setOwnerOfImages userId)
  return ()

/-- The orphans go to the administrator that has been created. -/
def adopt : Option User → Startup Unit
  | none => return ()
  | some admin => setOwnerOfOrphanRows admin.id

/-- What is done if there are no users. Without credentials nothing is
done, and the next start-up looks again. -/
def createFirst [Hmac] [PasswordHasher] (auth : AuthSettings) (salt : String) : Startup Unit :=
  match auth.credentials? with
  | none => return ()
  | some (username, password) => do
    let admin : Option User ← createAdmin username (hashPassword salt password auth)
    adopt admin

/-- `bootstrap_admin`. Without credentials it returns after it has looked
whether there are users; with a user it returns as well. -/
def bootstrapAdmin [Hmac] [PasswordHasher] (auth : AuthSettings) (salt : String) :
    Startup Unit := do
  let count : ℕ ← perform .countUsers
  if 0 < count then return () else createFirst auth salt

/-! ## Start-ups

A start-up gets one choice for each statement: it gets through, or it
fails and the start-up ends there. With too few choices the process has
stopped between two statements. So what is said of all choices is said of
all ways in which a start-up may end. -/

/-- A start-up: its settings, and what becomes of its statements. If there
are fewer than the program has, it stops after the last of them. So
start-ups that fail, that are killed and that get through are all values
of one type. -/
structure Start where
  auth : AuthSettings
  salt : String
  choices : List BootstrapOp.Choice

/-- How many statements get through. -/
def completed (choices : List BootstrapOp.Choice) : ℕ :=
  (choices.takeWhile fun c => c ≠ .fail).length

@[simp] theorem completed_nil : completed [] = 0 := rfl

@[simp] theorem completed_fail (choices : List BootstrapOp.Choice) :
    completed (.fail :: choices) = 0 := rfl

@[simp] theorem completed_proceed (newId : UUID) (now : Timestamp)
    (choices : List BootstrapOp.Choice) :
    completed (.proceed newId now :: choices) = completed choices + 1 := rfl

section Startups

variable [Hmac] [PasswordHasher]

/-- The database after a start-up. How many of its statements got through
is part of the start-up. -/
def start (s : Accounts) (a : Start) : Option Accounts :=
  ((bootstrapAdmin a.auth a.salt).stopped BootstrapOp.exec a.choices s).map Prod.snd

/-- The call of `bootstrap_admin` returns, that is, every statement that
it makes has got through and none has raised. A start-up that does not
return has stopped somewhere on its way. -/
def Returns (s : Accounts) (a : Start) (s' : Accounts) : Prop :=
  (bootstrapAdmin a.auth a.salt).run BootstrapOp.exec a.choices s = some (s', .ok ())

/-- There are credentials, and they can be stored. -/
def Start.CanCreate (a : Start) : Prop :=
  ∃ c ∈ a.auth.credentials?, (varchar 100 c.1).isOk = true
    ∧ (text (hashPassword a.salt c.2 a.auth)).isOk = true

instance (a : Start) : Decidable a.CanCreate :=
  inferInstanceAs (Decidable (∃ c ∈ a.auth.credentials?, _))

/-- A start-up that creates the administrator is not stopped before the
orphans that there are have an owner. It is decided by the settings, by
the state before, and by how many statements get through. -/
def Adopts (s : Accounts) (a : Start) : Prop :=
  s.users.rows = [] → a.CanCreate → 2 ≤ completed a.choices →
    (s.OrphanReceipts → 3 ≤ completed a.choices) ∧ (s.OrphanImages → 4 ≤ completed a.choices)

instance (s : Accounts) (a : Start) : Decidable (Adopts s a) :=
  inferInstanceAs (Decidable (_ → _ → _ → _))

end Startups

/-! ## What a start-up does

There are two cases, and they are told apart by whether there are users.
If there are, nothing is done; if there are none and credentials are
given, the statements are done in turn as far as they get through. -/

variable {s s₁ s' : Accounts} {userId : UUID} {choices : List BootstrapOp.Choice}

theorem insertUser_spec {now : Timestamp} {newId : UUID} {username hashedPassword : String}
    {isAdmin : Bool} {row : UserRecord}
    (h : s.insertUser now newId username hashedPassword isAdmin = .ok (s₁, row)) :
    (varchar 100 username).isOk = true ∧ (text hashedPassword).isOk = true ∧ s₁.db = s.db
      ∧ (s₁.users.get? row.id).isSome = true := by
  obtain ⟨username', husername, h₁⟩ := bind_eq_ok.mp h
  obtain ⟨hashedPassword', hhashed, h₂⟩ := bind_eq_ok.mp h₁
  refine ⟨by rw [husername]; rfl, by rw [hhashed]; rfl, ?_⟩
  split at h₂
  · exact absurd h₂ (by simp [throw, throwThe, MonadExceptOf.throw, bind, Except.bind])
  · dsimp only at h₂
    split at h₂
    · next users hinsert =>
      obtain ⟨rfl, rfl⟩ := Prod.mk.inj (Except.ok.inj h₂)
      refine ⟨rfl, Option.isSome_iff_exists.mpr ⟨_, Table.get?_eq_some_iff.mpr ⟨?_, rfl⟩⟩⟩
      show _ ∈ users.rows
      rw [(Table.insert_eq_some_iff.mp hinsert).2]
      exact List.mem_append_right _ List.mem_cons_self
    · exact absurd h₂ (by simp [throw, throwThe, MonadExceptOf.throw])

theorem exists_of_isOk {α : Type} {x : Except DbError α} (h : x.isOk = true) :
    ∃ a, x = .ok a := by
  cases x with
  | error e => exact absurd h (by simp [Except.isOk, Except.toBool])
  | ok a => exact ⟨a, rfl⟩

/-- The first user can be stored. Neither the name nor the identifier can
be taken, so only the columns could refuse it. -/
theorem insertUser_of_empty (now : Timestamp) (newId : UUID) {username hashedPassword : String}
    (isAdmin : Bool) (hempty : s.users.rows = []) (husername : (varchar 100 username).isOk = true)
    (hhashed : (text hashedPassword).isOk = true) :
    ∃ out, s.insertUser now newId username hashedPassword isAdmin = .ok out := by
  obtain ⟨username', husername⟩ := exists_of_isOk husername
  obtain ⟨hashedPassword', hhashed⟩ := exists_of_isOk hhashed
  have hfree : ¬ ∃ u ∈ s.users.rows, u.username = username' := by
    rw [hempty]
    exact fun ⟨_, h, _⟩ => absurd h List.not_mem_nil
  unfold Accounts.insertUser
  rw [bind_of_ok husername, bind_of_ok hhashed]
  dsimp only
  rw [if_neg hfree]
  split
  · exact ⟨_, rfl⟩
  · next hnone =>
    exact absurd hnone (by simp [Table.insert, hempty])

/-- The receipts without an owner get one that is there. -/
theorem setOwnerOfReceipts_spec (huser : (s.users.get? userId).isSome = true) :
    ∃ s', s.setOwnerOfReceipts userId = .ok s' ∧ s'.users = s.users ∧ ¬ s'.OrphanReceipts
      ∧ (s'.OrphanImages ↔ s.OrphanImages) := by
  refine ⟨_, if_neg fun h => ?_, rfl, ?_, Iff.rfl⟩
  · rw [Option.isSome_iff_ne_none] at huser
    exact huser (Option.isNone_iff_eq_none.mp h.1)
  · rintro ⟨r, hr, hnone⟩
    obtain ⟨r₀, -, rfl⟩ := List.mem_map.mp hr
    exact absurd hnone (by simp)

/-- And the images. -/
theorem setOwnerOfImages_spec (huser : (s.users.get? userId).isSome = true) :
    ∃ s', s.setOwnerOfImages userId = .ok s' ∧ s'.users = s.users ∧ ¬ s'.OrphanImages
      ∧ (s'.OrphanReceipts ↔ s.OrphanReceipts) := by
  refine ⟨_, if_neg fun h => ?_, rfl, ?_, Iff.rfl⟩
  · rw [Option.isSome_iff_ne_none] at huser
    exact huser (Option.isNone_iff_eq_none.mp h.1)
  · rintro ⟨i, hi, hnone⟩
    obtain ⟨i₀, -, rfl⟩ := List.mem_map.mp hi
    exact absurd hnone (by simp)

/-- A statement has not got through, or has been executed. A start-up that
stops is looked at statement by statement with this, whatever the
statement is. -/
theorem stopped_perform {α : Type} {op : BootstrapOp} {f : op.Ret → Startup α} {p : Startup α}
    (h : (perform op >>= f).stopped BootstrapOp.exec choices s = some (p, s')) :
    (s' = s ∧ completed choices = 0)
      ∨ ∃ newId now choices', choices = .proceed newId now :: choices'
        ∧ ((∃ s₁ a, op.outcome s newId now = (s₁, .ok a)
            ∧ (f a).stopped BootstrapOp.exec choices' s₁ = some (p, s'))
          ∨ ∃ e, op.outcome s newId now = (s', .error e) ∧ choices' = []) := by
  obtain ⟨rfl, rfl⟩ | ⟨c, choices', rfl, hstep⟩ := Program.stopped_perform_bind h
  · exact Or.inl ⟨rfl, rfl⟩
  cases c with
  | fail =>
    obtain ⟨_, _, hexec, -⟩ | ⟨e, hexec, rfl⟩ := hstep
    · exact absurd (congrArg Prod.snd (Option.some.inj hexec)) (by simp)
    · exact Or.inl ⟨(Prod.mk.inj (Option.some.inj hexec)).1.symm, rfl⟩
  | proceed newId now =>
    refine Or.inr ⟨newId, now, choices', rfl, ?_⟩
    exact hstep.imp (fun ⟨s₁, a, hexec, hrest⟩ => ⟨s₁, a, Option.some.inj hexec, hrest⟩)
      fun ⟨e, hexec, hnil⟩ => ⟨e, Option.some.inj hexec, hnil⟩

/-- What `set_owner_of_orphan_rows` has done where it is stopped. The
receipts come first, so that stopping after one statement leaves only
images without an owner. -/
theorem stopped_setOwnerOfOrphanRows {p : Startup Unit}
    (huser : (s.users.get? userId).isSome = true)
    (h : (setOwnerOfOrphanRows userId).stopped BootstrapOp.exec choices s = some (p, s')) :
    s'.users = s.users ∧ (s'.OrphanReceipts ↔ s.OrphanReceipts ∧ completed choices < 1)
      ∧ (s'.OrphanImages ↔ s.OrphanImages ∧ completed choices < 2) := by
  obtain ⟨rfl, hnone⟩ | ⟨newId, now, choices, rfl, hstep⟩ := stopped_perform h
  · simp [hnone]
  obtain ⟨s₁, hreceipts, husers, hadopted, himages⟩ := setOwnerOfReceipts_spec huser
  have houtcome : (BootstrapOp.setOwnerOfReceipts userId).outcome s newId now = (s₁, .ok ()) := by
    show BootstrapOp.returning s _ _ (s.setOwnerOfReceipts userId) = _
    rw [hreceipts]
    rfl
  obtain ⟨s₂, a, hok, h⟩ | ⟨e, herror, -⟩ := hstep
  · obtain ⟨rfl, -⟩ := Prod.mk.inj (houtcome.symm.trans hok)
    obtain ⟨rfl, hnone⟩ | ⟨newId', now', choices, rfl, hstep⟩ := stopped_perform h
    · simp [hnone, husers, hadopted, himages]
    obtain ⟨s₂, himages', husers', hadopted', hreceipts'⟩ :=
      setOwnerOfImages_spec (s := s₁) (husers ▸ huser)
    have houtcome' : (BootstrapOp.setOwnerOfImages userId).outcome s₁ newId' now'
        = (s₂, .ok ()) := by
      show BootstrapOp.returning s₁ _ _ (s₁.setOwnerOfImages userId) = _
      rw [himages']
      rfl
    obtain ⟨s₃, a, hok, h⟩ | ⟨e, herror, -⟩ := hstep
    · obtain ⟨rfl, -⟩ := Prod.mk.inj (houtcome'.symm.trans hok)
      obtain ⟨rfl, -, rfl⟩ := Program.stopped_done h
      simp [husers, husers', hadopted, hadopted', hreceipts']
    · exact absurd (houtcome'.symm.trans herror) (by simp)
  · exact absurd (houtcome.symm.trans herror) (by simp)

/-- The administrator has been created, or nothing has changed. In the
first case the start-up has gone on with the orphans, for as long as it
was not stopped. -/
theorem stopped_createAdmin {username hashedPassword : String} {p : Startup Unit}
    (h : (createAdmin username hashedPassword >>= adopt).stopped BootstrapOp.exec choices s
      = some (p, s')) :
    (s' = s ∧ (completed choices = 0
        ∨ ∃ newId now e, s.insertUser now newId username hashedPassword true = .error e))
      ∨ ∃ newId now choices' s₁ row, choices = .proceed newId now :: choices'
      ∧ s.insertUser now newId username hashedPassword true = .ok (s₁, row)
      ∧ (setOwnerOfOrphanRows row.id).stopped BootstrapOp.exec choices' s₁ = some (p, s') := by
  change (Program.call (BootstrapOp.createUser username hashedPassword true) _).stopped _ _ _ = _
    at h
  obtain ⟨rfl, -, rfl⟩ | ⟨c, choices', s₁, r, rfl, hexec, h⟩ := Program.stopped_call h
  · exact Or.inl ⟨rfl, Or.inl rfl⟩
  cases c with
  | fail =>
    obtain ⟨rfl, rfl⟩ := Prod.mk.inj (Option.some.inj hexec)
    exact Or.inl ⟨(Program.stopped_raise h).2.2, Or.inl rfl⟩
  | proceed newId now =>
    have houtcome : BootstrapOp.returning s (fun out => out.2.toUser) Prod.fst
        (s.insertUser now newId username hashedPassword true) = (s₁, r) := Option.some.inj hexec
    cases hinsert : s.insertUser now newId username hashedPassword true with
    | error e =>
      rw [hinsert] at houtcome
      obtain ⟨rfl, rfl⟩ := Prod.mk.inj houtcome
      refine Or.inl ⟨?_, Or.inr ⟨newId, now, e, hinsert⟩⟩
      -- an existing user ends the program, and any other error is raised
      cases e with
      | uniqueViolation => exact (Program.stopped_done h).2.2
      | _ => exact (Program.stopped_raise h).2.2
    | ok out =>
      rw [hinsert] at houtcome
      obtain ⟨rfl, rfl⟩ := Prod.mk.inj houtcome
      exact Or.inr ⟨newId, now, choices', out.1, out.2, rfl, hinsert, h⟩

section Specification

variable [Hmac] [PasswordHasher]

/-- What a start-up does that creates the administrator. How many
statements have been completed decides which of the orphans have got an
owner. -/
structure Creates (s : Accounts) (a : Start) (s' : Accounts) : Prop where
  noUsers : s.users.rows = []
  canCreate : a.CanCreate
  completed : 2 ≤ completed a.choices
  users : s'.users.rows ≠ []
  receipts : s'.OrphanReceipts ↔ s.OrphanReceipts ∧ Bootstrap.completed a.choices < 3
  images : s'.OrphanImages ↔ s.OrphanImages ∧ Bootstrap.completed a.choices < 4

/-- **A start-up** changes nothing, or creates the administrator, after
which the receipts may have been given away, and after these the images.
It may stop after any of the three statements, as none of them shares a
transaction with another. -/
theorem start_cases {a : Start} (h : start s a = some s') :
    (s' = s ∧ ¬ (s.users.rows = [] ∧ a.CanCreate ∧ 2 ≤ completed a.choices)) ∨ Creates s a s' := by
  obtain ⟨⟨p, s''⟩, hstopped, rfl⟩ := Option.map_eq_some_iff.mp h
  dsimp only
  obtain ⟨auth, salt, choices⟩ := a
  obtain ⟨rfl, hnone⟩ | ⟨newId, now, choices, rfl, hstep⟩ := stopped_perform hstopped
  · exact Or.inl ⟨rfl, fun h => by simp [hnone] at h⟩
  obtain ⟨s₁, count, hok, h⟩ | ⟨e, herror, -⟩ := hstep
  · obtain ⟨rfl, hcount⟩ := Prod.mk.inj hok
    obtain rfl := Except.ok.inj hcount
    -- if anybody is there, the start-up ends here
    by_cases hcount : 0 < s.users.rows.length
    · rw [if_pos hcount] at h
      exact Or.inl ⟨(Program.stopped_done h).2.2, fun h => by simp [h.1] at hcount⟩
    rw [if_neg hcount] at h
    unfold createFirst at h
    cases hcredentials : auth.credentials? with
    | none =>
      rw [hcredentials] at h
      refine Or.inl ⟨(Program.stopped_done h).2.2, ?_⟩
      rintro ⟨-, ⟨c, hc, -⟩, -⟩
      exact absurd (hcredentials.symm.trans hc) (by simp)
    | some c =>
      rw [hcredentials] at h
      obtain ⟨rfl, hnone⟩ | ⟨newId', now', choices, s₁, row, rfl, hinsert, h⟩ :=
        stopped_createAdmin h
      · refine Or.inl ⟨rfl, ?_⟩
        rintro ⟨husers, ⟨c', hc', husername, hhashed⟩, htwo⟩
        obtain rfl := Option.some.inj (hcredentials.symm.trans hc')
        obtain hnone | ⟨newId', now', e, herror⟩ := hnone
        · simp [hnone] at htwo
        · obtain ⟨out, hout⟩ := insertUser_of_empty now' newId' true husers husername hhashed
          exact absurd (hout.symm.trans herror) (by simp)
      obtain ⟨husername, hhashed, hdb, huser⟩ := insertUser_spec hinsert
      -- from here on there is a user, and no later start-up comes this far
      obtain ⟨husers, hreceipts, himages⟩ := stopped_setOwnerOfOrphanRows huser h
      have hsame : (s₁.OrphanReceipts ↔ s.OrphanReceipts) ∧ (s₁.OrphanImages ↔ s.OrphanImages) := by
        unfold Accounts.OrphanReceipts Accounts.OrphanImages
        rw [hdb]
        exact ⟨Iff.rfl, Iff.rfl⟩
      have hsome : s₁.users.rows ≠ [] := by
        obtain ⟨u, hu⟩ := Option.isSome_iff_exists.mp huser
        exact List.ne_nil_of_mem (Table.get?_eq_some_iff.mp hu).1
      refine Or.inr ⟨List.length_eq_zero_iff.mp (Nat.eq_zero_of_not_pos hcount),
        ⟨c, hcredentials, husername, hhashed⟩, ?_, husers ▸ hsome, ?_, ?_⟩
      · exact Nat.le_add_left 2 (completed choices)
      · rw [hreceipts, hsame.1]
        exact and_congr_right fun _ => (Nat.add_lt_add_iff_right (k := 2)).symm
      · rw [himages, hsame.2]
        exact and_congr_right fun _ => (Nat.add_lt_add_iff_right (k := 2)).symm
  · exact absurd (congrArg Prod.snd herror) (by simp [BootstrapOp.outcome])

/-- If there are users, there are no orphans. -/
def Adopted (s : Accounts) : Prop :=
  s.users.rows ≠ [] → ¬ s.OrphanReceipts ∧ ¬ s.OrphanImages

/-- What one start-up keeps. -/
theorem Adopted.start {a : Start} (h : Adopted s) (hadopts : Adopts s a)
    (hstart : start s a = some s') : Adopted s' := by
  obtain ⟨rfl, -⟩ | hcreates := start_cases hstart
  · exact h
  · obtain ⟨hreceipts, himages⟩ :=
      hadopts hcreates.noUsers hcreates.canCreate hcreates.completed
    intro _
    rw [hcreates.receipts, hcreates.images]
    refine ⟨fun ⟨horphan, hlt⟩ => ?_, fun ⟨horphan, hlt⟩ => ?_⟩
    · exact Nat.not_lt.mpr (hreceipts horphan) hlt
    · exact Nat.not_lt.mpr (himages horphan) hlt

/-- **Nothing is left without an owner** when a call of `bootstrap_admin`
returns and the administrator exists, if no start-up stops between the
administrator and the orphans. -/
theorem backfilled_of_run {init : Accounts} (hinit : init.users.rows = [])
    (run : Transition.Run start Adopts init s) {a : Start} (hadopts : Adopts s a)
    (hreturns : Returns s a s') (hadmin : ∃ u ∈ s'.users.rows, u.isAdmin = true) :
    ¬ s'.OrphanReceipts ∧ ¬ s'.OrphanImages := by
  have hadopted : Adopted s := run.invariant (fun h => absurd hinit h)
    fun s a s' h hadopts hstart => h.start hadopts hstart
  have hstart : start s a = some s' := by
    unfold start
    rw [Program.run_eq_some_iff_stopped.mp hreturns]
    rfl
  obtain ⟨u, hu, -⟩ := hadmin
  exact hadopted.start hadopts hstart (List.ne_nil_of_mem hu)

/-- A start-up that does stop there leaves orphans beside a user. -/
theorem orphans_of_not_adopts {a : Start} (hadopts : ¬ Adopts s a)
    (hstart : start s a = some s') :
    s'.users.rows ≠ [] ∧ (s'.OrphanReceipts ∨ s'.OrphanImages) := by
  unfold Adopts at hadopts
  simp only [Classical.not_imp, not_and_or] at hadopts
  obtain ⟨hempty, hcreate, htwo, hnot⟩ := hadopts
  obtain ⟨-, hnever⟩ | hcreates := start_cases hstart
  · exact absurd ⟨hempty, hcreate, htwo⟩ hnever
  · refine ⟨hcreates.users, ?_⟩
    rw [hcreates.receipts, hcreates.images]
    exact hnot.imp (fun h => ⟨h.1, Nat.not_le.mp h.2⟩) fun h => ⟨h.1, Nat.not_le.mp h.2⟩

/-- **They stay without an owner** whatever start-ups follow: where there
is a user, a start-up returns at its first statement. -/
theorem eq_of_users (husers : s.users.rows ≠ []) (run : Transition.Reachable start s s') :
    s' = s := by
  have hstep : ∀ s₁ a s₂, s₁ = s → start s₁ a = some s₂ → s₂ = s := by
    rintro s₁ a s₂ rfl hstart
    obtain ⟨h, -⟩ | hcreates := start_cases hstart
    · exact h
    · exact absurd hcreates.noUsers husers
  induction run with
  | start => rfl
  | next a _ _ hstart ih => exact hstep _ a _ ih hstart

/-- **The condition is exact**: once a start-up has stopped between the
administrator and the orphans, there are orphans in every state that is
reached from then on, since every later start-up finds a user and returns
at once. -/
theorem orphans_of_run {a : Start} {s'' : Accounts} (hadopts : ¬ Adopts s a)
    (hstart : start s a = some s') (run : Transition.Reachable start s' s'') :
    s''.OrphanReceipts ∨ s''.OrphanImages := by
  obtain ⟨husers, horphans⟩ := orphans_of_not_adopts hadopts hstart
  rw [eq_of_users husers run]
  exact horphans

end Specification

/-! ## A receipt without an owner -/

section OrphanReceipt

/-- The digest of `"secret"` with the key `"key"`. -/
def secretDigest : ℕ := 0x25cf3c44c8f39313e8cbf7c23e22fe8b2ee8b288ee5206b0a6397583a1f7f0ef

local instance hmacOfSecret : Hmac where
  hexdigest _ _ := String.ofList (Nat.toDigits 16 secretDigest)
  hex _ _ c hc := by
    rw [String.toList_ofList] at hc
    exact Numerals.isDigit_of_mem_toDigits (by decide) (by decide) hc

local instance hasherOfSecret : PasswordHasher where
  hash salt peppered := "$argon2id$v=19$m=65536,t=3,p=4$" ++ salt ++ "$" ++ peppered

/-- A database from before there were users. -/
def legacy : Accounts where
  users := .empty
  db := { Db.empty with
    receipts := ⟨[{ emptyRow 1 1 with userId := none }], List.nodup_singleton _⟩ }

/-- The settings of the application. -/
def bootstrapSettings : AuthSettings where
  secretKey := "key"
  pepper := none
  bootstrapUsername := some "admin"
  bootstrapPassword := some "secret"

/-- A start-up that gets some statements through and stops. -/
def startUp (statements : ℕ) : Start where
  auth := bootstrapSettings
  salt := "salt"
  choices := List.replicate statements (.proceed 1 0)

/-- The first start-up stops before it has created the administrator. The
second one then finds no user and does all of it. -/
theorem legacy_backfilled :
    ∃ s s', Transition.Run start Adopts legacy s ∧ Returns s (startUp 4) s'
      ∧ ¬ s'.OrphanReceipts ∧ ¬ s'.OrphanImages := by
  obtain ⟨s, run, hreturns⟩ : ∃ s, Transition.Run start Adopts legacy s ∧ Adopts s (startUp 4)
      ∧ ((bootstrapAdmin bootstrapSettings "salt").run BootstrapOp.exec (startUp 4).choices s).any
        (fun out => out.2.isOk = true ∧ ∃ u ∈ out.1.users.rows, u.isAdmin = true) = true :=
    Transition.Run.of_exec [startUp 1] (by decide +kernel)
  obtain ⟨⟨s', r⟩, hrun, hout⟩ := (Option.any_eq_true _ _).mp hreturns.2
  obtain ⟨hok, hadmin⟩ := of_decide_eq_true hout
  cases r with
  | error e => exact absurd hok (by simp [Except.isOk, Except.toBool])
  | ok u => exact ⟨s, s', run, hrun, backfilled_of_run rfl run hreturns.1 hrun hadmin⟩

/-- **The first start-up stops right after it has created the
administrator**: the next one returns, and the receipt has no owner.
Nobody but the administrator can see it, and it belongs to no user's
pages. -/
theorem legacy_orphaned :
    ∃ s s', Transition.Reachable start legacy s ∧ Returns s (startUp 1) s'
      ∧ (∃ u ∈ s'.users.rows, u.isAdmin = true) ∧ s'.OrphanReceipts := by
  obtain ⟨s, run, hreturns⟩ : ∃ s, Transition.Reachable start legacy s
      ∧ ((bootstrapAdmin bootstrapSettings "salt").run BootstrapOp.exec (startUp 1).choices s).any
        (fun out => out.2.isOk = true ∧ (∃ u ∈ out.1.users.rows, u.isAdmin = true)
          ∧ out.1.OrphanReceipts) = true :=
    Transition.Run.of_exec [startUp 2] (by decide +kernel)
  obtain ⟨⟨s', r⟩, hrun, hout⟩ := (Option.any_eq_true _ _).mp hreturns
  obtain ⟨hok, hadmin, horphan⟩ := of_decide_eq_true hout
  cases r with
  | error e => exact absurd hok (by simp [Except.isOk, Except.toBool])
  | ok u => exact ⟨s, s', run, hrun, hadmin, horphan⟩

end OrphanReceipt

end Bootstrap

end VisionBill
