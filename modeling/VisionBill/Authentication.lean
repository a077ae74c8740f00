import VisionBill.Bootstrap
import VisionBill.Lib.Concurrent

/-!
# Accounts and sessions

Registration looks a name up, hashes the password and inserts a row;
logging in looks the row up and verifies the password; both hand out a
signed cookie, from which `get_current_user` finds the user again. Nothing
is kept of a session on the server, and any number of such requests run at
the same time.

So what holds the accounts together is the unique name in the table of
users, and that no request ever changes or removes a row of it. Whatever
the interleaving: a registration that was answered stays good for logging
in, a cookie that was handed out is its user's until it expires, of
several registrations of one name at most one is answered with an account,
and no request makes an administrator (`accounts_of_run`).

## Checking and inserting

A registration checks that a name is free and inserts it in another
statement. Between the two somebody else may take it, so the check is a
courtesy: what decides is the index, and the handler turns its error into
the answer that the check would have given. Both ways are in the model,
and the proofs do not tell them apart.

## What an answer says

A response alone does not say who it is about. So the world keeps each
answer with its request and its thread, and with who has created which
row. An answer that names a user *says* that there is such a row, with the
name and password of the request or the identifier in its cookie
(`Granted`). Since rows are only ever added, what it says stays true
(`Granted.mono`), and with that every statement about past answers is one
about the table as it is now.

## What is left to libraries

The hash of a password, its verification and the signature of a cookie are
parameters. What is assumed is that a password is verified against each
hash that was made of it. That no other password is verified is not
assumed, and nothing is concluded from it.
-/

namespace VisionBill

/-! ## Requests

Of the HTTP layer only the parts are kept that decide who is let in: the
body of a registration or a login, the cookie of a request, and the status
and detail of an answer. -/

/-- The settings that requests read. They are those of the start-up, and
three more about sessions and accounts. -/
structure LoginSettings extends AuthSettings where
  sessionMaxAgeSeconds : ℤ
  allowRegistration : Bool
  adminCanSeeAll : Bool

/-- `Credentials`: a body that does not meet the bounds is answered with
422 before a handler is called, so the bounds are fields. -/
structure Credentials where
  username : String
  password : String
  username_bounds : 1 ≤ username.toList.length ∧ username.toList.length ≤ 100
  password_bounds : 1 ≤ password.toList.length ∧ password.toList.length ≤ 200

/-- A request to one of the endpoints, with the cookie that `/me` gets.
The other endpoints do not look at the cookie. -/
inductive AuthRequest
  | register (body : Credentials)
  | login (body : Credentials)
  | logout
  | me (cookie : Option String)

/-- What is answered. Of a response it matters who the user is, which
cookie is set and what an error says. -/
inductive AuthResponse
  /-- A user, with the session cookie that is set. -/
  | user (status : ℕ) (user : User) (cookie : Option String)
  /-- The cookie is deleted. -/
  | loggedOut
  | error (status : ℕ) (detail : String)

/-- What is raised while a request is handled. An HTTP error is one that
the code means to answer with; the others become an answer of the
framework. -/
inductive AuthExn
  | http (status : ℕ) (detail : String)
  | database (e : DbError)
  | token (e : TokenError)

/-- What the framework makes of an exception. -/
def AuthExn.response : AuthExn → AuthResponse
  | http status detail => .error status detail
  | database _ | token _ => .error 500 "Internal Server Error"

/-- What `PasswordHasher.verify` raises. The program catches both, so that
a hash that is malformed refuses the login like a wrong password. -/
inductive VerifyError
  /-- `Argon2Error`. -/
  | argon2
  /-- `InvalidHashError`. -/
  | invalidHash

/-- `PasswordHasher.verify`: a text is verified against each of its
hashes, whatever the salt was. -/
class PasswordVerifier [PasswordHasher] where
  verify : String → String → Except VerifyError Bool
  verify_hash : ∀ salt plain, verify (PasswordHasher.hash salt plain) plain = .ok true

/-! ## Operations

A handler reads users, inserts one, and asks for the time and for random
text. Each of these is a step of its own, and requests of others may come
between any two. Answering is a step as well, so that the invariant can
speak of what was answered and when. -/

/-- What a handler does to the outside. Between any two of these other
requests may run, which is what a registration with a name that is just
being taken depends on. -/
inductive AuthOp
  /-- `GET_USER_BY_USERNAME_SQL`. -/
  | userByUsername (username : String)
  /-- `GET_USER_BY_ID_SQL`. -/
  | userById (id : UUID)
  /-- `CREATE_USER_SQL`. -/
  | createUser (username hashedPassword : String) (isAdmin : Bool)
  /-- The salt of a new hash. -/
  | urandom
  /-- `time.time()`. -/
  | time
  /-- The answer is sent. -/
  | respond (request : AuthRequest) (response : AuthResponse)

namespace AuthOp

/-- What an operation returns. -/
@[reducible] def Ret : AuthOp → Type
  | userByUsername _ | userById _ => Option UserRecord
  | createUser .. => User
  | urandom => String
  | time => ℚ
  | respond .. => Unit

/-- What an operation does not decide itself. A run is determined by its
choices, so that a result for all choices is one for all clocks, salts and
failures. -/
inductive Choice
  /-- A statement gets through, with the defaults of a new row. -/
  | proceed (newId : UUID) (now : Timestamp)
  /-- A statement fails. -/
  | fail
  | salt (salt : String)
  | clock (time : ℚ)

end AuthOp

/-- A request that has been answered, by the thread that handled it. The
world keeps them, so that the invariant can speak of what clients were
told. -/
structure AuthAnswer where
  thread : ℕ
  request : AuthRequest
  response : AuthResponse

/-- The accounts, who has created them, and what has been answered. Only
the accounts are stored; the rest is what statements are about. -/
structure AuthWorld where
  accounts : Accounts
  created : List (ℕ × UUID)
  answers : List AuthAnswer

/-- The identifier has 128 bits, and the name no NUL character. -/
def UserRecord.Storable (row : UserRecord) : Prop :=
  row.id < 2 ^ 128 ∧ text row.username = .ok row.username

namespace AuthWorld

/-- The row of a name. -/
def userByUsername? (s : AuthWorld) (username : String) : Option UserRecord :=
  s.accounts.users.rows.find? fun row => row.username = username

/-- The effect of an insertion that a thread has made. -/
def creating (s : AuthWorld) (t : ℕ) :
    Except DbError (Accounts × UserRecord) → AuthWorld × Except AuthExn User
  | .ok (accounts, row) =>
    ({ s with accounts := accounts, created := s.created ++ [(t, row.id)] }, .ok row.toUser)
  | .error e => (s, .error (.database e))

/-- How a thread performs an operation. Answers and accounts are noted
with the thread they belong to, so that it can be said later who was
answered what. -/
def exec (t : ℕ) (s : AuthWorld) :
    (op : AuthOp) → AuthOp.Choice → Option (AuthWorld × Except AuthExn op.Ret)
  | .userByUsername username, .proceed _ _ =>
    some (s, (text username).mapError .database |>.map s.userByUsername?)
  | .userById id, .proceed _ _ => some (s, .ok (s.accounts.users.get? id))
  | .createUser username hashedPassword isAdmin, .proceed newId now =>
    if newId < 2 ^ 128 then
      some (s.creating t (s.accounts.insertUser now newId username hashedPassword isAdmin))
    else none
  | .userByUsername _, .fail | .userById _, .fail | .createUser .., .fail =>
    some (s, .error (.database .failed))
  | .urandom, .salt salt => some (s, .ok salt)
  | .time, .clock time => some (s, .ok time)
  | .respond request response, _ =>
    some ({ s with answers := s.answers ++ [⟨t, request, response⟩] }, .ok ())
  | _, _ => none

end AuthWorld

/-! ## Handlers

They are those of the source, with the exceptions that it raises. A login
reads the row of the name and verifies the password against its hash; a
name that does not exist is answered like a wrong password. -/

namespace Auth

/-- A program over these operations. -/
abbrev Handler (α : Type) := Program AuthOp.Ret AuthExn α

/-- A single operation. -/
abbrev ask (op : AuthOp) : Handler op.Ret := Program.perform op

section Handlers

variable [DecimalDigits] [Hmac] [PasswordHasher] [PasswordVerifier]

omit [DecimalDigits] in
/-- `verify_password`. -/
def verifyPassword (hashed password : String) (auth : AuthSettings) : Bool :=
  match PasswordVerifier.verify hashed (peppered auth password) with
  | .ok valid => valid
  | .error _ => false

/-- `_require_user_db`. -/
def requireUserDb (isReady : Bool) : Handler Unit :=
  if isReady then pure () else throw (.http 503 "Database is unavailable")

/-- `_set_session_cookie`: the value of the cookie. -/
def setSessionCookie (auth : LoginSettings) (userId : UUID) : Handler String := do
  let now : ℚ ← ask .time
  match createToken userId auth.sessionMaxAgeSeconds auth.secretKey now with
  | .ok token => return token
  | .error e => throw (.token e)

/-- `register`. The name is looked up first, and a conflict that the
lookup has missed is answered alike. -/
def register (auth : LoginSettings) (isReady : Bool) (body : Credentials) :
    Handler AuthResponse := do
  requireUserDb isReady
  if ¬ auth.allowRegistration then throw (.http 403 "Registration is disabled")
  let taken : Option UserRecord ← ask (.userByUsername body.username)
  if taken.isSome then throw (.http 409 "Username is already taken")
  let salt : String ← ask .urandom
  let user : User ← ask (.createUser body.username
    (hashPassword salt body.password auth.toAuthSettings) false)
  let cookie ← setSessionCookie auth user.id
  return .user 201 user (some cookie)

/-- `verify_credentials`. -/
def verifyCredentials (username password : String) (auth : AuthSettings) :
    Handler (Option User) := do
  let row : Option UserRecord ← ask (.userByUsername username)
  return (row.filter fun row => verifyPassword row.hashedPassword password auth).map
    UserRecord.toUser

/-- What `login` does with the user, if there is one. -/
def logIn (auth : LoginSettings) : Option User → Handler AuthResponse
  | none => throw (.http 401 "Invalid username or password")
  | some user => do
    let cookie ← setSessionCookie auth user.id
    return .user 200 user (some cookie)

/-- `login`. -/
def login (auth : LoginSettings) (isReady : Bool) (body : Credentials) : Handler AuthResponse := do
  requireUserDb isReady
  let user ← verifyCredentials body.username body.password auth.toAuthSettings
  logIn auth user

/-- `_UNAUTHENTICATED`. -/
def unauthenticated : AuthExn := .http 401 "Not authenticated"

/-- A row with the privilege that `get_current_user` derives. -/
def effectiveUser (auth : LoginSettings) (row : UserRecord) : User :=
  { row.toUser with canSeeAll := row.isAdmin && auth.adminCanSeeAll }

/-- The user of a token that has been decoded. A token names a user by an
identifier, and the account may be gone by the time the token is shown. -/
def loadUser (auth : LoginSettings) : Except TokenError (Option UUID) → Handler User
  | .error e => throw (.token e)
  | .ok none => throw unauthenticated
  | .ok (some userId) => do
    let row : Option UserRecord ← ask (.userById userId)
    match row with
    | none => throw unauthenticated
    | some row => return effectiveUser auth row

/-- `get_current_user`. A cookie that cannot be decoded and a user who is
not there are answered alike, and an exception of the decoder is not
caught. -/
def getCurrentUser (auth : LoginSettings) (isReady : Bool) (cookie : Option String) :
    Handler User := do
  if ¬ isReady then throw (.http 503 "Authentication is unavailable")
  match cookie.filter (· ≠ "") with
  | none => throw unauthenticated
  | some token => do
    let now : ℚ ← ask .time
    loadUser auth (decodeToken token auth.secretKey now)

/-- The handler of a request. -/
def handle (auth : LoginSettings) (isReady : Bool) : AuthRequest → Handler AuthResponse
  | .register body => register auth isReady body
  | .login body => login auth isReady body
  | .logout => return .loggedOut
  | .me cookie => do
    let user ← getCurrentUser auth isReady cookie
    return .user 200 user none

/-- A request is handled, and answered. -/
def serve (auth : LoginSettings) (isReady : Bool) (request : AuthRequest) : Handler Unit := do
  let response ← tryCatch (handle auth isReady request) fun e => pure e.response
  ask (.respond request response)

end Handlers

end Auth

/-! ## What is kept

The invariant is about the accounts and about all answers given so far.
Accounts are only added: nothing deletes a user or changes a password, and
so an answer that was right when it was given stays right. -/

open Auth

section Kept

variable [DecimalDigits] [Hmac] [PasswordHasher] [PasswordVerifier]

/-- What an answer says: where it names a user, there is such a row, with
the name and the password of the request or with the identifier of its
cookie. -/
inductive Granted (auth : LoginSettings) (s : AuthWorld) (t : ℕ) : AuthRequest → AuthResponse → Prop
  | registered (body : Credentials) (row : UserRecord) (cookie : String) (now : ℚ)
    (mem : row ∈ s.accounts.users.rows) (created : (t, row.id) ∈ s.created)
    (name : row.username = body.username)
    (password : verifyPassword row.hashedPassword body.password auth.toAuthSettings = true)
    (admin : row.isAdmin = false)
    (token : createToken row.id auth.sessionMaxAgeSeconds auth.secretKey now = .ok cookie) :
    Granted auth s t (.register body) (.user 201 row.toUser (some cookie))
  | loggedIn (body : Credentials) (row : UserRecord) (cookie : String) (now : ℚ)
    (mem : row ∈ s.accounts.users.rows) (name : row.username = body.username)
    (password : verifyPassword row.hashedPassword body.password auth.toAuthSettings = true)
    (token : createToken row.id auth.sessionMaxAgeSeconds auth.secretKey now = .ok cookie) :
    Granted auth s t (.login body) (.user 200 row.toUser (some cookie))
  | current (cookie : String) (row : UserRecord) (now : ℚ) (mem : row ∈ s.accounts.users.rows)
    (token : decodeToken cookie auth.secretKey now = .ok (some row.id)) :
    Granted auth s t (.me (some cookie)) (.user 200 (effectiveUser auth row) none)
  | loggedOut : Granted auth s t .logout .loggedOut
  | refused (request : AuthRequest) (status : ℕ) (detail : String) :
    Granted auth s t request (.error status detail)

/-- The invariant: rows are only ever added, and none is an
administrator's; names are unique; a row has one creator; a thread answers
once. -/
structure AuthInv (auth : LoginSettings) (users : List UserRecord) (s : AuthWorld) : Prop where
  grown : ∃ new, s.accounts.users.rows = users ++ new
    ∧ ∀ row ∈ new, row.isAdmin = false ∧ auth.allowRegistration = true
  names : (s.accounts.users.rows.map UserRecord.username).Nodup
  storable : ∀ row ∈ s.accounts.users.rows, row.Storable
  creators : (s.created.map Prod.snd).Nodup
  created : ∀ c ∈ s.created, ∃ row ∈ s.accounts.users.rows, row.id = c.2
  threads : (s.answers.map AuthAnswer.thread).Nodup
  answers : ∀ a ∈ s.answers, Granted auth s a.thread a.request a.response

/-- What a thread relies on: nothing is removed, and nobody else answers
its request. -/
structure AuthRely (t : ℕ) (s s' : AuthWorld) : Prop where
  rows : s.accounts.users.rows ⊆ s'.accounts.users.rows
  created : s.created ⊆ s'.created
  answers : ∀ a ∈ s'.answers, a.thread = t → a ∈ s.answers

/-- The discipline of the handlers. No step is excluded and every outcome
is allowed: what the invariant says holds whatever fails, and however
requests are mixed. -/
def accountDiscipline (auth : LoginSettings) (users : List UserRecord) :
    Discipline AuthOp.Ret AuthExn AuthWorld AuthOp.Choice where
  exec := AuthWorld.exec
  guard := fun _ _ _ _ => True
  Inv := AuthInv auth users
  Rely := AuthRely
  Ok := fun _ _ _ _ => True
  rely_refl := fun _ _ => ⟨fun _ => id, fun _ => id, fun _ h _ => h⟩
  rely_trans := fun _ _ _ _ h h' => ⟨fun _ hr => h'.rows (h.rows hr),
    fun _ hc => h'.created (h.created hc), fun a ha ht => h.answers a (h'.answers a ha ht) ht⟩

/-- A thread has not answered. -/
def NoAnswer (t : ℕ) (s : AuthWorld) : Prop := ∀ a ∈ s.answers, a.thread ≠ t

variable {auth : LoginSettings} {users : List UserRecord} {t : ℕ} {s s' : AuthWorld}
  {request : AuthRequest} {response : AuthResponse}

omit [DecimalDigits] [Hmac] [PasswordHasher] [PasswordVerifier] in
theorem NoAnswer.of_rely (h : NoAnswer t s) (hrely : AuthRely t s s') : NoAnswer t s' :=
  fun a ha ht => h a (hrely.answers a ha ht) ht

/-- What an answer says stays so: rows are never removed or changed. -/
theorem Granted.mono (h : Granted auth s t request response)
    (hrows : s.accounts.users.rows ⊆ s'.accounts.users.rows) (hcreated : s.created ⊆ s'.created) :
    Granted auth s' t request response := by
  cases h with
  | registered body row cookie now mem created name password admin token =>
    exact .registered body row cookie now (hrows mem) (hcreated created) name password admin token
  | loggedIn body row cookie now mem name password token =>
    exact .loggedIn body row cookie now (hrows mem) name password token
  | current cookie row now mem token => exact .current cookie row now (hrows mem) token
  | loggedOut => exact .loggedOut
  | refused request status detail => exact .refused request status detail

/-! ## Operations -/

/-- An operation that only asks for something. The answer is of a later
state than the one in which the thread was, so the conclusion has to hold
of all that others may have reached. -/
theorem wp_asks {op : AuthOp} {Q : op.Ret → AuthWorld → Prop} {R : AuthExn → AuthWorld → Prop}
    (hsame : ∀ s c s' r, AuthWorld.exec t s op c = some (s', r) → s' = s)
    (hQ : ∀ s₁, AuthRely t s s₁ → ∀ c a, AuthWorld.exec t s₁ op c = some (s₁, .ok a) → Q a s₁)
    (hR : ∀ s₁, AuthRely t s s₁ → ∀ e, R e s₁) :
    (accountDiscipline auth users).wp t (Auth.ask op) Q R s := by
  refine Discipline.wp_perform fun s₁ hrely hinv c r s₂ _ hexec => ?_
  obtain rfl := hsame s₁ c s₂ r hexec
  refine ⟨⟨hinv, trivial, fun t' _ => (accountDiscipline auth users).rely_refl t' _⟩, ?_, ?_⟩
  · rintro a rfl
    exact hQ _ hrely c a hexec
  · rintro e rfl
    exact hR _ hrely e

omit [DecimalDigits] [Hmac] [PasswordHasher] [PasswordVerifier] in
/-- A row that is found by its name. -/
theorem mem_of_userByUsername? {username : String} {row : UserRecord}
    (h : s.userByUsername? username = some row) :
    row ∈ s.accounts.users.rows ∧ row.username = username :=
  ⟨List.mem_of_find?_eq_some h, of_decide_eq_true (List.find?_some h :)⟩

omit [DecimalDigits] [Hmac] [PasswordHasher] [PasswordVerifier] in
theorem exec_userByUsername {username : String} {c : AuthOp.Choice} {s' : AuthWorld}
    {r : Except AuthExn (Option UserRecord)}
    (h : AuthWorld.exec t s (.userByUsername username) c = some (s', r)) :
    s' = s ∧ ∀ row, r = .ok row → row = s.userByUsername? username := by
  cases c with
  | proceed newId now =>
    obtain ⟨rfl, rfl⟩ := Prod.mk.inj (Option.some.inj h)
    refine ⟨rfl, fun row hrow => ?_⟩
    cases htext : text username with
    | error e => rw [htext] at hrow; exact absurd hrow (by simp [Except.mapError, Except.map])
    | ok name =>
      rw [htext] at hrow
      obtain rfl := eq_of_text htext
      exact (Except.ok.inj hrow).symm
  | fail =>
    obtain ⟨rfl, rfl⟩ := Prod.mk.inj (Option.some.inj h)
    exact ⟨rfl, fun row hrow => absurd hrow (by simp)⟩
  | salt salt => exact absurd h (by simp [AuthWorld.exec])
  | clock time => exact absurd h (by simp [AuthWorld.exec])

omit [DecimalDigits] [Hmac] [PasswordHasher] [PasswordVerifier] in
theorem exec_userById {id : UUID} {c : AuthOp.Choice} {s' : AuthWorld}
    {r : Except AuthExn (Option UserRecord)}
    (h : AuthWorld.exec t s (.userById id) c = some (s', r)) :
    s' = s ∧ ∀ row, r = .ok row → row = s.accounts.users.get? id := by
  cases c with
  | proceed newId now =>
    obtain ⟨rfl, rfl⟩ := Prod.mk.inj (Option.some.inj h)
    exact ⟨rfl, fun row hrow => (Except.ok.inj hrow).symm⟩
  | fail =>
    obtain ⟨rfl, rfl⟩ := Prod.mk.inj (Option.some.inj h)
    exact ⟨rfl, fun row hrow => absurd hrow (by simp)⟩
  | salt salt => exact absurd h (by simp [AuthWorld.exec])
  | clock time => exact absurd h (by simp [AuthWorld.exec])

omit [DecimalDigits] [Hmac] [PasswordHasher] [PasswordVerifier] in
theorem exec_urandom {c : AuthOp.Choice} {s' : AuthWorld} {r : Except AuthExn String}
    (h : AuthWorld.exec t s .urandom c = some (s', r)) : s' = s := by
  cases c with
  | salt salt => exact (Prod.mk.inj (Option.some.inj h)).1.symm
  | proceed newId now => exact absurd h (by simp [AuthWorld.exec])
  | fail => exact absurd h (by simp [AuthWorld.exec])
  | clock time => exact absurd h (by simp [AuthWorld.exec])

omit [DecimalDigits] [Hmac] [PasswordHasher] [PasswordVerifier] in
theorem exec_time {c : AuthOp.Choice} {s' : AuthWorld} {r : Except AuthExn ℚ}
    (h : AuthWorld.exec t s .time c = some (s', r)) : s' = s := by
  cases c with
  | clock time => exact (Prod.mk.inj (Option.some.inj h)).1.symm
  | proceed newId now => exact absurd h (by simp [AuthWorld.exec])
  | fail => exact absurd h (by simp [AuthWorld.exec])
  | salt salt => exact absurd h (by simp [AuthWorld.exec])

omit [DecimalDigits] [Hmac] [PasswordHasher] [PasswordVerifier] in
/-- What an insertion adds: one row, with the name as it fits its column
and an identifier that no row had. Nothing is added if the name is
taken. -/
theorem insertUser_rows {accounts accounts' : Accounts} {now : Timestamp} {newId : UUID}
    {username hashedPassword : String} {isAdmin : Bool} {row : UserRecord}
    (h : accounts.insertUser now newId username hashedPassword isAdmin = .ok (accounts', row)) :
    varchar 100 username = .ok row.username ∧ row.hashedPassword = hashedPassword
      ∧ row.isAdmin = isAdmin ∧ row.id = newId
      ∧ (∀ u ∈ accounts.users.rows, u.username ≠ row.username)
      ∧ newId ∉ accounts.users.rows.map UserRecord.id
      ∧ accounts'.users.rows = accounts.users.rows ++ [row] := by
  obtain ⟨username', husername, h₁⟩ := bind_eq_ok.mp h
  obtain ⟨hashedPassword', hhashed, h₂⟩ := bind_eq_ok.mp h₁
  split at h₂
  · exact absurd h₂ (by simp [throw, throwThe, MonadExceptOf.throw, bind, Except.bind])
  · next hfree =>
    dsimp only at h₂
    split at h₂
    · next table hinsert =>
      obtain ⟨rfl, rfl⟩ := Prod.mk.inj (Except.ok.inj h₂)
      obtain ⟨hnew, hrows⟩ := Table.insert_eq_some_iff.mp hinsert
      exact ⟨husername, eq_of_text hhashed, rfl, rfl, fun u hu hname => hfree ⟨u, hu, hname⟩,
        hnew, hrows⟩
    · exact absurd h₂ (by simp [throw, throwThe, MonadExceptOf.throw])

/-- The invariant after an insertion. All of its parts are about rows that
were there or about the new one, and an answer that was right before is
right with one row more. -/
theorem AuthInv.insert (hinv : AuthInv auth users s) (hallowed : auth.allowRegistration = true)
    {accounts : Accounts} {row : UserRecord} (hstorable : row.Storable)
    (hadmin : row.isAdmin = false) (hname : ∀ u ∈ s.accounts.users.rows, u.username ≠ row.username)
    (hnew : row.id ∉ s.accounts.users.rows.map UserRecord.id)
    (hrows : accounts.users.rows = s.accounts.users.rows ++ [row]) :
    AuthInv auth users { s with accounts := accounts, created := s.created ++ [(t, row.id)] } := by
  have hsub : s.accounts.users.rows ⊆ accounts.users.rows := by
    rw [hrows]
    exact List.subset_append_left _ _
  constructor
  · obtain ⟨new, hold, hall⟩ := hinv.grown
    refine ⟨new ++ [row], ?_, ?_⟩
    · rw [hrows, hold, List.append_assoc]
    · intro row' hrow'
      rcases List.mem_append.mp hrow' with hrow' | hrow'
      · exact hall row' hrow'
      · obtain rfl := List.mem_singleton.mp hrow'
        exact ⟨hadmin, hallowed⟩
  · -- the name was free, by the unique index
    show (accounts.users.rows.map UserRecord.username).Nodup
    rw [hrows, List.map_append, List.map_singleton, ← List.concat_eq_append]
    refine List.Nodup.concat (fun hmem => ?_) hinv.names
    obtain ⟨u, hu, heq⟩ := List.mem_map.mp hmem
    exact hname u hu heq
  · intro row' hrow'
    rw [hrows] at hrow'
    rcases List.mem_append.mp hrow' with hrow' | hrow'
    · exact hinv.storable row' hrow'
    · obtain rfl := List.mem_singleton.mp hrow'
      exact hstorable
  · show ((s.created ++ [(t, row.id)]).map Prod.snd).Nodup
    rw [List.map_append, List.map_singleton, ← List.concat_eq_append]
    refine List.Nodup.concat (fun hmem => ?_) hinv.creators
    obtain ⟨c, hc, heq⟩ := List.mem_map.mp hmem
    obtain ⟨row', hrow', hid'⟩ := hinv.created c hc
    exact hnew (List.mem_map.mpr ⟨row', hrow', hid'.trans heq⟩)
  · intro c hc
    rcases List.mem_append.mp hc with hc | hc
    · obtain ⟨row', hrow', hid'⟩ := hinv.created c hc
      exact ⟨row', hsub hrow', hid'⟩
    · obtain rfl := List.mem_singleton.mp hc
      refine ⟨row, ?_, rfl⟩
      rw [hrows]
      exact List.mem_append_right _ List.mem_cons_self
  · exact hinv.threads
  · intro a ha
    exact (hinv.answers a ha).mono hsub (List.subset_append_left _ _)

/-- What `create_user` is called with, and what it leaves: a new row that
the thread has created, or an error because the name is taken. -/
theorem wp_createUser {body : Credentials} {salt : String} {Q : User → AuthWorld → Prop}
    {R : AuthExn → AuthWorld → Prop} (hallowed : auth.allowRegistration = true)
    (hno : NoAnswer t s)
    (hQ : ∀ s' row, NoAnswer t s' → row ∈ s'.accounts.users.rows → (t, row.id) ∈ s'.created →
      row.username = body.username → row.isAdmin = false →
      verifyPassword row.hashedPassword body.password auth.toAuthSettings = true →
      Q row.toUser s')
    (hR : ∀ s' e, NoAnswer t s' → R e s') :
    (accountDiscipline auth users).wp t (Auth.ask (.createUser body.username
      (hashPassword salt body.password auth.toAuthSettings) false)) Q R s := by
  refine Discipline.wp_perform fun s₁ hrely hinv c r s₂ _ hexec => ?_
  have hno₁ : NoAnswer t s₁ := hno.of_rely hrely
  have hfailed : ∀ e : AuthExn, s₂ = s₁ → r = .error e →
      (accountDiscipline auth users).Keeps t s₁ (.createUser body.username
        (hashPassword salt body.password auth.toAuthSettings) false) s₂
        ∧ (∀ a, r = .ok a → Q a s₂) ∧ ∀ e, r = .error e → R e s₂ := by
    rintro e rfl rfl
    refine ⟨⟨hinv, trivial, fun t' _ => (accountDiscipline auth users).rely_refl t' _⟩, ?_, ?_⟩
    · exact fun a ha => absurd ha (by simp)
    · exact fun e _ => hR _ e hno₁
  cases c with
  | fail =>
    obtain ⟨rfl, rfl⟩ := Prod.mk.inj (Option.some.inj hexec)
    exact hfailed (.database .failed) rfl rfl
  | salt salt => exact absurd hexec (by simp [accountDiscipline, AuthWorld.exec])
  | clock time => exact absurd hexec (by simp [accountDiscipline, AuthWorld.exec])
  | proceed newId now =>
    have hproceed : (if newId < 2 ^ 128 then some (s₁.creating t (s₁.accounts.insertUser now newId
        body.username (hashPassword salt body.password auth.toAuthSettings) false)) else none)
          = some (s₂, r) := hexec
    split at hproceed
    · next hid =>
      -- the name was free when it was looked up; whether it still is, the index decides
      cases hinsert : s₁.accounts.insertUser now newId body.username
          (hashPassword salt body.password auth.toAuthSettings) false with
      | error e =>
        rw [hinsert] at hproceed
        obtain ⟨rfl, rfl⟩ := Prod.mk.inj (Option.some.inj hproceed)
        exact hfailed (.database e) rfl rfl
      | ok out =>
        obtain ⟨accounts, row⟩ := out
        rw [hinsert] at hproceed
        obtain ⟨rfl, rfl⟩ := Prod.mk.inj (Option.some.inj hproceed)
        obtain ⟨hname, hhashed, hadmin, rfl, hfree, hnew, hrows⟩ := insertUser_rows hinsert
        have hmem : row ∈ accounts.users.rows := by
          rw [hrows]
          exact List.mem_append_right _ List.mem_cons_self
        have hverify : verifyPassword row.hashedPassword body.password auth.toAuthSettings
            = true := by
          unfold verifyPassword
          rw [hhashed]
          unfold hashPassword
          rw [PasswordVerifier.verify_hash]
        have hstored := (eq_of_varchar_iff hname).mpr body.username_bounds.2
        have hstorable : row.Storable := by
          obtain ⟨username, htext, -⟩ := bind_eq_ok.mp hname
          obtain rfl := eq_of_text htext
          exact ⟨hid, by rw [hstored, htext]⟩
        refine ⟨⟨hinv.insert hallowed hstorable hadmin hfree hnew hrows, trivial,
          fun t' _ => ?_⟩, ?_, ?_⟩
        · refine ⟨?_, List.subset_append_left _ _, fun a ha _ => ha⟩
          show s₁.accounts.users.rows ⊆ accounts.users.rows
          rw [hrows]
          exact List.subset_append_left _ _
        · rintro a ha
          obtain rfl := Except.ok.inj ha
          exact hQ _ row hno₁ hmem (List.mem_append_right _ List.mem_cons_self) hstored hadmin
            hverify
        · exact fun e he => absurd he (by simp)
    · exact absurd hproceed (by simp)

/-! ## Handlers -/

/-- What a handler leaves: it has not answered yet, and may answer so. -/
def MayAnswer (auth : LoginSettings) (t : ℕ) (request : AuthRequest) (response : AuthResponse)
    (s : AuthWorld) : Prop :=
  NoAnswer t s ∧ Granted auth s t request response

theorem MayAnswer.of_rely (h : MayAnswer auth t request response s) (hrely : AuthRely t s s') :
    MayAnswer auth t request response s' :=
  ⟨h.1.of_rely hrely, h.2.mono hrely.rows hrely.created⟩

/-- An exception is answered with an error. -/
theorem mayAnswer_exn (e : AuthExn) (h : NoAnswer t s) :
    MayAnswer auth t request e.response s := by
  refine ⟨h, ?_⟩
  cases e with
  | http status detail => exact .refused request status detail
  | database e => exact .refused request 500 _
  | token e => exact .refused request 500 _

/-- A handler keeps the discipline, and may answer what it returns or
raises. This is shown for each of the three endpoints. -/
def Handles (auth : LoginSettings) (users : List UserRecord) (t : ℕ) (request : AuthRequest)
    (p : Handler AuthResponse) (s : AuthWorld) : Prop :=
  (accountDiscipline auth users).wp t p (MayAnswer auth t request) (fun _ => NoAnswer t) s

/-- A cookie is made. It can fail, if the expiry is too large a number to
be printed, and then the account is there and no cookie. -/
theorem wp_setSessionCookie {userId : UUID} {Q : String → AuthWorld → Prop} (hno : NoAnswer t s)
    (hQ : ∀ s' cookie now, AuthRely t s s' →
      createToken userId auth.sessionMaxAgeSeconds auth.secretKey now = .ok cookie → Q cookie s') :
    (accountDiscipline auth users).wp t (setSessionCookie auth userId) Q
      (fun _ => NoAnswer t) s := by
  unfold setSessionCookie
  rw [Discipline.wp_bind]
  refine wp_asks (fun s c s' r h => exec_time h) (fun s₁ hrely c now _ => ?_)
    fun s₁ hrely _ => hno.of_rely hrely
  cases htoken : createToken userId auth.sessionMaxAgeSeconds auth.secretKey now with
  | error e => exact hno.of_rely hrely
  | ok cookie => exact hQ s₁ cookie now hrely htoken

theorem handles_register {isReady : Bool} {body : Credentials} (hno : NoAnswer t s) :
    Handles auth users t (.register body) (register auth isReady body) s := by
  unfold Handles register
  rw [Discipline.wp_bind]
  have hready : (accountDiscipline auth users).wp t (requireUserDb isReady)
      (fun _ s' => s' = s) (fun _ => NoAnswer t) s := by
    unfold requireUserDb
    split
    · exact rfl
    · exact hno
  refine Discipline.wp_mono hready ?_ fun _ _ h => h
  rintro - s' rfl
  by_cases hallowed : auth.allowRegistration = true
  · rw [if_neg (not_not_intro hallowed)]
    show (accountDiscipline auth users).wp t (Auth.ask (.userByUsername body.username) >>= _) _ _ _
    rw [Discipline.wp_bind]
    refine wp_asks (fun s c s' r h => (exec_userByUsername h).1) (fun s₁ hrely₁ c taken _ => ?_)
      fun s₁ hrely _ => hno.of_rely hrely
    have hno₁ := hno.of_rely hrely₁
    split
    · exact hno₁
    · show (accountDiscipline auth users).wp t (Auth.ask .urandom >>= _) _ _ _
      rw [Discipline.wp_bind]
      refine wp_asks (fun s c s' r h => exec_urandom h) (fun s₂ hrely₂ c salt _ => ?_)
        fun s₂ hrely _ => hno₁.of_rely hrely
      have hno₂ := hno₁.of_rely hrely₂
      rw [Discipline.wp_bind]
      -- the name was free when it was looked up, and is inserted only now
      refine wp_createUser hallowed hno₂ ?_ fun _ _ h => h
      intro s₃ row hno₃ hmem hcreated hname hadmin hpassword
      rw [Discipline.wp_bind]
      refine wp_setSessionCookie hno₃ fun s₄ cookie now hrely₄ htoken => ⟨hno₃.of_rely hrely₄, ?_⟩
      exact .registered body row cookie now (hrely₄.rows hmem) (hrely₄.created hcreated) hname
        hpassword hadmin htoken
  · rw [if_pos hallowed]
    exact hno

theorem handles_login {isReady : Bool} {body : Credentials} (hno : NoAnswer t s) :
    Handles auth users t (.login body) (login auth isReady body) s := by
  unfold Handles login
  rw [Discipline.wp_bind]
  unfold requireUserDb
  split
  · show (accountDiscipline auth users).wp t (verifyCredentials _ _ _ >>= logIn auth) _ _ _
    unfold verifyCredentials
    rw [Discipline.wp_bind, Discipline.wp_bind]
    refine wp_asks (fun s c s' r h => (exec_userByUsername h).1) (fun s₁ hrely₁ c found hexec => ?_)
      fun s₁ hrely _ => hno.of_rely hrely
    have hno₁ := hno.of_rely hrely₁
    obtain rfl := (exec_userByUsername hexec).2 found rfl
    show (accountDiscipline auth users).wp t (logIn auth (((s₁.userByUsername? body.username).filter
      _).map UserRecord.toUser)) _ _ s₁
    cases hrow : (s₁.userByUsername? body.username).filter
        fun row => verifyPassword row.hashedPassword body.password auth.toAuthSettings with
    | none => exact hno₁
    | some row =>
      obtain ⟨hfound, hpassword⟩ := Option.filter_eq_some_iff.mp hrow
      obtain ⟨hmem, hname⟩ := mem_of_userByUsername? hfound
      show (accountDiscipline auth users).wp t (setSessionCookie auth row.id >>= _) _ _ _
      rw [Discipline.wp_bind]
      refine wp_setSessionCookie hno₁ fun s₂ cookie now hrely₂ htoken => ⟨hno₁.of_rely hrely₂, ?_⟩
      exact .loggedIn body row cookie now (hrely₂.rows hmem) hname hpassword htoken
  · exact hno

theorem handles_me {isReady : Bool} {cookie : Option String} (hno : NoAnswer t s) :
    Handles auth users t (.me cookie) (handle auth isReady (.me cookie)) s := by
  unfold Handles handle getCurrentUser
  dsimp only
  rw [Discipline.wp_bind]
  split
  · exact hno
  · cases hcookie : cookie.filter (· ≠ "") with
    | none => exact hno
    | some token =>
      obtain ⟨rfl, -⟩ := Option.filter_eq_some_iff.mp hcookie
      show (accountDiscipline auth users).wp t (Auth.ask .time >>= _) _ _ _
      rw [Discipline.wp_bind]
      refine wp_asks (fun s c s' r h => exec_time h) (fun s₁ hrely₁ c now _ => ?_)
        fun s₁ hrely _ => hno.of_rely hrely
      have hno₁ := hno.of_rely hrely₁
      cases hdecode : decodeToken token auth.secretKey now with
      | error e => exact hno₁
      | ok user =>
        cases user with
        | none => exact hno₁
        | some userId =>
          show (accountDiscipline auth users).wp t (Auth.ask (.userById userId) >>= _) _ _ _
          rw [Discipline.wp_bind]
          refine wp_asks (fun s c s' r h => (exec_userById h).1) (fun s₂ hrely₂ c found hexec => ?_)
            fun s₂ hrely _ => hno₁.of_rely hrely
          obtain rfl := (exec_userById hexec).2 found rfl
          have hno₂ := hno₁.of_rely hrely₂
          -- the user is looked up by the identifier in the token, after it has been decoded
          cases hrow : s₂.accounts.users.get? userId with
          | none => exact hno₂
          | some row =>
            obtain ⟨hmem, rfl⟩ := Table.get?_eq_some_iff.mp hrow
            exact ⟨hno₂, .current token row now hmem hdecode⟩

theorem handles_handle {isReady : Bool} (request : AuthRequest) (hno : NoAnswer t s) :
    Handles auth users t request (handle auth isReady request) s := by
  cases request with
  | register body => exact handles_register hno
  | login body => exact handles_login hno
  | logout => exact ⟨hno, .loggedOut⟩
  | me cookie => exact handles_me hno

/-- The answer is sent. It is the last step of a request, and the only one
at which its thread gets an answer. -/
theorem wp_respond (h : MayAnswer auth t request response s) :
    (accountDiscipline auth users).wp t (Auth.ask (.respond request response)) (fun _ _ => True)
      (fun _ _ => True) s := by
  refine Discipline.wp_perform fun s₁ hrely hinv c r s₂ _ hexec =>
    ⟨?_, fun _ _ => trivial, fun _ _ => trivial⟩
  obtain ⟨hno, hgranted⟩ := h.of_rely hrely
  have hexec' : some (({ s₁ with answers := s₁.answers ++ [⟨t, request, response⟩] } : AuthWorld),
      (.ok () : Except AuthExn Unit)) = some (s₂, r) := by
    rw [← hexec]
    cases c <;> rfl
  obtain ⟨rfl, -⟩ := Prod.mk.inj (Option.some.inj hexec')
  refine ⟨?_, trivial, fun t' hne => ⟨fun _ => id, fun _ => id, fun a ha ht => ?_⟩⟩
  · refine { hinv with threads := ?_, answers := ?_ }
    · show ((s₁.answers ++ [_]).map AuthAnswer.thread).Nodup
      rw [List.map_append, List.map_singleton, ← List.concat_eq_append]
      refine List.Nodup.concat (fun hmem => ?_) hinv.threads
      obtain ⟨a, ha, heq⟩ := List.mem_map.mp hmem
      exact hno a ha heq
    · intro a ha
      rcases List.mem_append.mp ha with ha | ha
      · exact (hinv.answers a ha).mono (fun _ => id) fun _ => id
      · obtain rfl := List.mem_singleton.mp ha
        exact hgranted.mono (fun _ => id) fun _ => id
  · rcases List.mem_append.mp ha with ha | ha
    · exact ha
    · obtain rfl := List.mem_singleton.mp ha
      exact absurd ht (Ne.symm hne)

/-- A request is handled and answered, whatever is raised. -/
theorem safe_serve (isReady : Bool) (request : AuthRequest) (hno : NoAnswer t s) :
    (accountDiscipline auth users).Safe t (serve auth isReady request) s := by
  unfold Discipline.Safe serve
  rw [Discipline.wp_bind, Discipline.wp_handle]
  refine Discipline.wp_mono (handles_handle request hno) (fun response s₁ h => wp_respond h) ?_
  exact fun e s₁ h => wp_respond (mayAnswer_exn e h)

/-! ## Interleaved requests

Any number of requests run at the same time, and any operation may fail.
The result is what clients can rely on: the names are unique, whoever has
registered can log in, and a cookie shows the account that it was made
for. -/

/-- What can be said of the accounts and the answers after any requests.
The clauses belong together: that an answer is right rests on names that
are unique and on rows that are never changed. -/
structure AccountsKept (auth : LoginSettings) (accounts : Accounts) (s : AuthWorld) : Prop where
  /-- Rows are added only, none of an administrator, and none unless
  registration is allowed. -/
  users : ∃ new, s.accounts.users.rows = accounts.users.rows ++ new
    ∧ ∀ row ∈ new, row.isAdmin = false ∧ auth.allowRegistration = true
  /-- Names are unique. -/
  names : (s.accounts.users.rows.map UserRecord.username).Nodup
  /-- Every answer says what is so. -/
  answers : ∀ a ∈ s.answers, Granted auth s a.thread a.request a.response
  /-- Of the registrations of one name, one is answered with an
  account. -/
  registered_once : ∀ a ∈ s.answers, ∀ a' ∈ s.answers, ∀ body body' user user' cookie cookie',
    a.request = .register body → a.response = .user 201 user cookie →
    a'.request = .register body' → a'.response = .user 201 user' cookie' →
    body.username = body'.username → a = a'
  /-- What was registered can be used to log in. -/
  registered : ∀ a ∈ s.answers, ∀ body user cookie, a.request = .register body →
    a.response = .user 201 user cookie → ∀ t newId now,
      (verifyCredentials body.username body.password auth.toAuthSettings).run (AuthWorld.exec t)
        [.proceed newId now] s = some (s, .ok (some user))
  /-- A cookie that was handed out is its user's until it expires. -/
  cookies : ∀ a ∈ s.answers, ∀ status user cookie, a.response = .user status user (some cookie) →
    ∃ made, createToken user.id auth.sessionMaxAgeSeconds auth.secretKey made = .ok cookie
      ∧ ∀ later : ℚ, later ≤ (truncate made + auth.sessionMaxAgeSeconds : ℤ) → ∀ t newId now,
        (getCurrentUser auth true (some cookie)).run (AuthWorld.exec t)
          [.clock later, .proceed newId now] s
          = some (s, .ok { user with canSeeAll := user.isAdmin && auth.adminCanSeeAll })
  /-- Whoever may see all was an administrator before the first
  request. -/
  see_all : ∀ a ∈ s.answers, ∀ status user cookie, a.response = .user status user cookie →
    user.canSeeAll = true → auth.adminCanSeeAll = true
      ∧ ∃ row ∈ accounts.users.rows, row.isAdmin = true ∧ row.id = user.id

/-- The row that a name finds. -/
theorem AuthInv.userByUsername? (h : AuthInv auth users s) {row : UserRecord} (hrow : row ∈ s.accounts.users.rows) :
    s.userByUsername? row.username = some row := by
  unfold AuthWorld.userByUsername?
  cases hfind : s.accounts.users.rows.find? (fun row' => row'.username = row.username) with
  | none => exact absurd (decide_eq_true rfl) (List.find?_eq_none.mp hfind row hrow)
  | some found =>
    have hname : found.username = row.username := of_decide_eq_true (List.find?_some hfind :)
    rw [List.inj_on_of_nodup_map h.names (List.mem_of_find?_eq_some hfind) hrow hname]

/-- A name and a password that are verified. It says that the request can
succeed, where the invariant says what is so if it does. -/
theorem run_verifyCredentials (h : AuthInv auth users s) {row : UserRecord}
    (hrow : row ∈ s.accounts.users.rows) {password : String}
    (hpassword : verifyPassword row.hashedPassword password auth.toAuthSettings = true)
    (newId : UUID) (now : Timestamp) :
    (verifyCredentials row.username password auth.toAuthSettings).run (AuthWorld.exec t)
      [.proceed newId now] s = some (s, .ok (some row.toUser)) := by
  have hexec : AuthWorld.exec t s (.userByUsername row.username) (.proceed newId now)
      = some (s, .ok (some row)) := by
    show some (s, (text row.username).mapError AuthExn.database |>.map s.userByUsername?) = _
    rw [(h.storable row hrow).2, ← h.userByUsername? hrow]
    rfl
  show (AuthWorld.exec t s (.userByUsername row.username) (.proceed newId now)).bind _ = _
  rw [hexec]
  show some (s, Except.ok (((some row).filter _).map UserRecord.toUser)) = _
  rw [Option.filter_some, if_pos hpassword]
  rfl

omit [DecimalDigits] [PasswordHasher] [PasswordVerifier] in
/-- A token is not empty. -/
theorem ne_empty_of_createToken {userId : UUID} {maxAge : ℤ} {secret token : String} {now : ℚ}
    (h : createToken userId maxAge secret now = .ok token) : token ≠ "" := by
  obtain ⟨-, rfl⟩ := createToken_eq_ok_iff.mp h
  intro hempty
  have hlist := congrArg String.toList hempty
  simp only [String.toList_append] at hlist
  have hdot : ".".toList = ['.'] := rfl
  rw [hdot] at hlist
  simp at hlist

/-- A cookie that was handed out identifies its user, as long as it has
not expired: rows are never removed, and the token is read as it was
made. -/
theorem run_getCurrentUser (h : AuthInv auth users s) {row : UserRecord}
    (hrow : row ∈ s.accounts.users.rows) {cookie : String} {made later : ℚ}
    (htoken : createToken row.id auth.sessionMaxAgeSeconds auth.secretKey made = .ok cookie)
    (hlater : later ≤ (truncate made + auth.sessionMaxAgeSeconds : ℤ)) (newId : UUID)
    (now : Timestamp) : (getCurrentUser auth true (some cookie)).run (AuthWorld.exec t)
      [.clock later, .proceed newId now] s = some (s, .ok (effectiveUser auth row)) := by
  have hdecode : decodeToken cookie auth.secretKey later = .ok (some row.id) := by
    obtain ⟨token, htoken', hround⟩ := (roundTrips_iff (h.storable row hrow).1
      auth.sessionMaxAgeSeconds auth.secretKey made).mpr (createToken_eq_ok_iff.mp htoken).1
    obtain rfl := Except.ok.inj (htoken.symm.trans htoken')
    exact hround later hlater
  have hcookie : (some cookie).filter (· ≠ "") = some cookie :=
    Option.filter_eq_some_iff.mpr ⟨rfl, decide_eq_true (ne_empty_of_createToken htoken)⟩
  have hget : s.accounts.users.get? row.id = some row :=
    Table.get?_eq_some_iff.mpr ⟨hrow, rfl⟩
  unfold getCurrentUser
  rw [if_neg (by simp), hcookie]
  show ((loadUser auth (decodeToken cookie auth.secretKey later)).run (AuthWorld.exec t)
    [.proceed newId now] s) = _
  rw [hdecode]
  show (some (s, (Except.ok (s.accounts.users.get? row.id) : Except AuthExn _))).bind _ = _
  rw [hget]
  rfl

/-- What the invariant comes to, for everybody who has got an answer. The
invariant also speaks of requests in between, and these are left out
here. -/
theorem AuthInv.kept {accounts : Accounts} (h : AuthInv auth accounts.users.rows s) :
    AccountsKept auth accounts s := by
  refine ⟨h.grown, h.names, h.answers, ?_, ?_, ?_, ?_⟩
  · intro a ha a' ha' body body' user user' cookie cookie' hrequest hresponse hrequest' hresponse'
      hname
    have hgranted := h.answers a ha
    have hgranted' := h.answers a' ha'
    rw [hrequest, hresponse] at hgranted
    rw [hrequest', hresponse'] at hgranted'
    cases hgranted with
    | registered _ row cookie now mem created name =>
      cases hgranted' with
      | registered _ row' cookie' now' mem' created' name' =>
        -- the name is of one row, which has one creator
        obtain rfl : row = row' := List.inj_on_of_nodup_map h.names mem mem'
          ((name.trans hname).trans name'.symm)
        have hthread := List.inj_on_of_nodup_map h.creators created created' rfl
        exact List.inj_on_of_nodup_map h.threads ha ha' (Prod.mk.inj hthread).1
  · intro a ha body user cookie hrequest hresponse t newId now
    have hgranted := h.answers a ha
    rw [hrequest, hresponse] at hgranted
    cases hgranted with
    | registered _ row cookie made mem created name password =>
      rw [← name]
      exact run_verifyCredentials h mem password newId now
  · intro a ha status user cookie hresponse
    have hgranted := h.answers a ha
    rw [hresponse] at hgranted
    generalize a.request = request at hgranted
    cases hgranted with
    | registered body row _ made mem created name password admin token =>
      exact ⟨made, token, fun later hlater t newId now =>
        run_getCurrentUser h mem token hlater newId now⟩
    | loggedIn body row _ made mem name password token =>
      exact ⟨made, token, fun later hlater t newId now =>
        run_getCurrentUser h mem token hlater newId now⟩
  · intro a ha status user cookie hresponse hall
    have hgranted := h.answers a ha
    rw [hresponse] at hgranted
    generalize a.request = request at hgranted
    cases hgranted with
    | registered body row _ made mem created name password admin token =>
      exact absurd hall (by simp [UserRecord.toUser])
    | loggedIn body row _ made mem name password token =>
      exact absurd hall (by simp [UserRecord.toUser])
    | current _ row now mem token =>
      obtain ⟨hadmin, hflag⟩ := (Bool.and_eq_true _ _).mp hall
      obtain ⟨new, hrows, hnew⟩ := h.grown
      rw [hrows] at mem
      rcases List.mem_append.mp mem with hold | hadded
      · exact ⟨hflag, row, hold, hadmin, rfl⟩
      · exact absurd hadmin (by rw [(hnew row hadded).1]; simp)

/-- **Accounts are kept.** Whatever requests run at the same time, and
whatever fails meanwhile: rows are added only, never an administrator's;
of the registrations of one name one is answered with an account, which
its password opens from then on; and a cookie that was handed out is its
user's until it expires. -/
theorem accounts_of_run (auth : LoginSettings) (isReady : Bool) (accounts : Accounts)
    (hnames : (accounts.users.rows.map UserRecord.username).Nodup)
    (hstorable : ∀ row ∈ accounts.users.rows, row.Storable)
    (s : Threads AuthOp.Ret AuthExn AuthWorld)
    (run : Transition.Reachable (Threads.step (serve auth isReady) AuthWorld.exec)
      ⟨⟨accounts, [], []⟩, []⟩ s) : AccountsKept auth accounts s.shared := by
  have hinit : AuthInv auth accounts.users.rows ⟨accounts, [], []⟩ := {
    grown := ⟨[], (List.append_nil _).symm, fun _ h => absurd h List.not_mem_nil⟩
    names := hnames
    storable := hstorable
    creators := List.nodup_nil
    created := fun _ h => absurd h List.not_mem_nil
    threads := List.nodup_nil
    answers := fun _ h => absurd h List.not_mem_nil }
  have hguarded : Transition.Run (Threads.step (serve auth isReady) AuthWorld.exec)
      (accountDiscipline auth accounts.users.rows).stepGuard ⟨⟨accounts, [], []⟩, []⟩ s := by
    refine run.mono fun s a _ => ?_
    cases a with
    | start request => trivial
    | advance t choice => exact fun _ _ _ => trivial
  have hsafe := Discipline.sound_of_new NoAnswer (fun _ _ _ hrely hno => hno.of_rely hrely)
    (fun request t s _ hno => safe_serve isReady request hno) hinit
    (fun t a ha => absurd ha List.not_mem_nil) hguarded
  exact AuthInv.kept hsafe.1

end Kept

/-! ## Two registrations of one name

Both look the name up before either has inserted it, and both find it
free. The unique index of the table decides, and the second is told that
the name is taken. -/

section TwoRegistrations

local instance asciiDigits : DecimalDigits := ⟨fun _ => none⟩

/-- The digest of the password `hunter2` with the key `secret`. -/
def passwordDigest : ℕ := 0xa9c5855444345e1057474541772ae12f2a86d21633a8d55449d0c3e818ac20bd

/-- The digests of the password and of the token below. -/
local instance twoDigests : Hmac where
  hexdigest _ message := String.ofList (Nat.toDigits 16
    (if message = "hunter2" then passwordDigest else zeroDigest))
  hex _ _ c hc := by
    rw [String.toList_ofList] at hc
    exact Numerals.isDigit_of_mem_toDigits (by decide) (by decide) hc

local instance plainHasher : PasswordHasher := ⟨fun salt plain => salt ++ plain⟩

local instance plainVerifier : PasswordVerifier where
  verify hashed plain := .ok (plain.toList.isSuffixOf hashed.toList)
  verify_hash salt plain := by
    refine congrArg Except.ok (List.isSuffixOf_iff_suffix.mpr ?_)
    show plain.toList <:+ (salt ++ plain).toList
    rw [String.toList_append]
    exact List.suffix_append _ _

/-- Sessions that expire at once. With them a token that was valid when it
was made is refused when it is shown. -/
def shortSessions : LoginSettings where
  secretKey := "secret"
  pepper := none
  bootstrapUsername := none
  bootstrapPassword := none
  sessionMaxAgeSeconds := 0
  allowRegistration := true
  adminCanSeeAll := true

def annsCredentials : Credentials := ⟨"ann", "hunter2", by decide, by decide⟩

/-- Both find the name free; one row is stored, and its user comes back
with the cookie. -/
def twoRegistrations : List (Threads.Action AuthRequest AuthOp.Choice) :=
  [.start (.register annsCredentials), .start (.register annsCredentials),
    .advance 0 (.proceed 0 0), .advance 1 (.proceed 0 0),
    .advance 0 (.salt "a"), .advance 1 (.salt "b"),
    .advance 0 (.proceed 0 0), .advance 1 (.proceed 1 0),
    .advance 0 (.clock 0), .advance 0 .fail, .advance 1 .fail,
    .start (.me (some zeroToken)), .advance 2 (.clock 0), .advance 2 (.proceed 0 0),
    .advance 2 .fail]

/-- The status of an answer. -/
def AuthResponse.status : AuthResponse → ℕ
  | user status _ _ | error status _ => status
  | loggedOut => 200

/-- One of the two registrations is answered with an account. Both have
found the name free before either inserts it, and the constraint decides
between them. -/
theorem accounts_of_run_twoRegistrations :
    ∃ s : Threads AuthOp.Ret AuthExn AuthWorld,
      s.shared.answers.map (fun a => a.response.status) = [201, 500, 200]
        ∧ AccountsKept shortSessions ⟨Table.empty, Db.empty⟩ s.shared := by
  obtain ⟨s, run, hstatus⟩ : ∃ s : Threads AuthOp.Ret AuthExn AuthWorld,
      Transition.Reachable (Threads.step (serve shortSessions true) AuthWorld.exec)
          ⟨⟨⟨Table.empty, Db.empty⟩, [], []⟩, []⟩ s
        ∧ s.shared.answers.map (fun a => a.response.status) = [201, 500, 200] :=
    Transition.Run.of_exec twoRegistrations (by decide +kernel)
  refine ⟨s, hstatus, accounts_of_run shortSessions true _ ?_ ?_ s run⟩
  · exact List.nodup_nil
  · exact fun _ h => absurd h List.not_mem_nil

end TwoRegistrations

end VisionBill
