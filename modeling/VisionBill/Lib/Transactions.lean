import VisionBill.Lib.Program
import VisionBill.Lib.Transition
import Mathlib.Data.List.Nodup

/-!
# Transactions at statement granularity

Sessions of a database run transactions, one statement at a time and in
any order, under READ COMMITTED: a statement sees what is committed when
it runs and what its own transaction has written. What a transaction
writes is kept apart, row by row, until it commits. A statement that
changes rows locks them until its transaction ends, and one that would
change a row that another transaction has locked has to wait, so it runs
once the row is free and then sees the new version of the row. A
transaction may be rolled back at any moment.

Under READ COMMITTED such transactions need not be serializable. They are
where each begins by locking one and the same row, or ends without having
written (`LocksFirst`): then what is stored is what the transactions that
have written store when they run alone, in the order of their commits
(`serial`).

## Why one row is enough

A transaction that holds the row is the only one that has written
anything, so what it sees is what is stored with its own writes on top, as
if it ran alone. One that does not hold it has seen nothing yet that it
could act upon. This is what `InStep` says of a single session, and
`InSeries` of all of them together with the log; each kind of step keeps
it, and the four lemmas about that carry the theorem.

Locking first matters. A transaction that reads before it locks may act on
what another one is about to change, and the lock comes too late to
prevent it.

## Deadlocks and waiting

A statement that has to wait is simply not the next step, so a deadlock
shows as a state in which the sessions concerned cannot advance. What is
proved is about all interleavings that do occur, including those that end
in a deadlock and those in which the database breaks it by rolling a
transaction back.

Without any assumption on the transactions, two that are open never have
written to the same row (`Owns.eq`), because what is written is locked.
-/

variable {Op : Type} {Ret : Op → Type} {ε α β σ ω κ ρ : Type}

/-- How statements work on a database. What a statement writes is computed
on what it sees, and applied row by row when the transaction commits. -/
structure Statements {Op : Type} (Ret : Op → Type) (ε σ ω κ : Type) where
  /-- What a statement writes and returns on what it sees. -/
  eval : (op : Op) → σ → Except ε (List ω × Ret op)
  /-- The rows that it locks. -/
  locks : Op → σ → List κ
  /-- The effect of a row that is written. -/
  write : σ → ω → σ

/-- A transaction under way, or its end. What it has written is kept apart
until it commits, and is dropped if it is rolled back. -/
inductive Phase {Op : Type} (Ret : Op → Type) (ε α ω : Type)
  | active (writes : List ω) (program : Program Ret ε α)
  | committed (answer : α)
  | rolledBack

/-- Whether a transaction has neither committed nor been rolled back. -/
def Phase.Open : Phase Ret ε α ω → Prop
  | .active _ _ => True
  | _ => False

instance : DecidablePred (fun phase : Phase Ret ε α ω => phase.Open)
  | .active _ _ => .isTrue trivial
  | .committed _ => .isFalse id
  | .rolledBack => .isFalse id

/-- What an open transaction has written. -/
def Phase.writes : Phase Ret ε α ω → List ω
  | .active writes _ => writes
  | _ => []

/-- What is stored, who holds the locks, and the sessions with their
requests. The log keeps the transactions that have written, in the order
of their commits; it is not part of the database and only used to say what
is stored. -/
structure Sessions {Op : Type} (Ret : Op → Type) (ε α σ ω κ ρ : Type) where
  stored : σ
  owner : κ → Option ℕ
  sessions : List (ρ × Phase Ret ε α ω)
  log : List (ℕ × ρ)

/-- What can happen next. Any sequence of these that the locks allow is a
run. -/
inductive Sessions.Action (ρ : Type)
  | begin (request : ρ)
  | advance (t : ℕ)
  | commit (t : ℕ)
  | rollback (t : ℕ)

namespace Statements

variable (D : Statements Ret ε σ ω κ)

/-- What a transaction sees that has written some rows: what is committed
by others until now, with its own rows over it. Under READ COMMITTED the
first part may change from one statement to the next. -/
def view (s : σ) (writes : List ω) : σ := writes.foldl D.write s

@[simp] theorem view_nil (s : σ) : D.view s [] = s := rfl

theorem view_append (s : σ) (writes writes' : List ω) :
    D.view s (writes ++ writes') = D.view (D.view s writes) writes' := List.foldl_append

/-- A transaction that runs alone: what is stored after it, and its
answer. This is what a transaction means; everything else here says how
close an interleaving comes to it. -/
def alone : Program Ret ε α → σ → Except ε (σ × α)
  | .done a, s => .ok (s, a)
  | .raise e, _ => .error e
  | .call op k, s =>
    match D.eval op s with
    | .ok (writes, a) => alone (k (.ok a)) (D.view s writes)
    | .error e => .error e

variable {D} in
/-- A statement that succeeds. -/
theorem alone_of_ok {op : Op} {k : Except ε (Ret op) → Program Ret ε α} {s : σ}
    {writes : List ω} {a : Ret op} (h : D.eval op s = .ok (writes, a)) :
    D.alone (.call op k) s = D.alone (k (.ok a)) (D.view s writes) := by
  rw [alone, h]

variable {D} in
/-- A statement that fails. -/
theorem alone_of_error {op : Op} {k : Except ε (Ret op) → Program Ret ε α} {s : σ} {e : ε}
    (h : D.eval op s = .error e) : D.alone (.call op k) s = .error e := by
  rw [alone, h]

/-- One part of a transaction after another. -/
theorem alone_bind {p : Program Ret ε α} {f : α → Program Ret ε β} {s : σ} :
    D.alone (p >>= f) s = D.alone p s >>= fun out => D.alone (f out.2) out.1 := by
  induction p generalizing s with
  | done a => rfl
  | raise e => rfl
  | call op k ih =>
    have hbind : (Program.call op k >>= f) = .call op fun r => k r >>= f := rfl
    rw [hbind, alone, alone]
    cases D.eval op s with
    | error e => rfl
    | ok out => exact ih (.ok out.2)

/-- A single statement. -/
theorem alone_perform {op : Op} {s : σ} :
    D.alone (Program.perform op) s
      = (D.eval op s).map fun out => (D.view s out.1, out.2) := by
  unfold Program.perform alone
  cases D.eval op s with
  | error e => rfl
  | ok out => rfl

/-- What a transaction that runs alone writes, and its answer. It is the
form in which a session that is under way can be compared with one that
runs alone. -/
def collect : Program Ret ε α → σ → Except ε (List ω × α)
  | .done a, _ => .ok ([], a)
  | .raise e, _ => .error e
  | .call op k, s =>
    match D.eval op s with
    | .ok (writes, a) =>
      (collect (k (.ok a)) (D.view s writes)).map fun out => (writes ++ out.1, out.2)
    | .error e => .error e

variable {D} in
theorem collect_of_ok {op : Op} {k : Except ε (Ret op) → Program Ret ε α} {s : σ}
    {writes : List ω} {a : Ret op} (h : D.eval op s = .ok (writes, a)) :
    D.collect (.call op k) s = (D.collect (k (.ok a)) (D.view s writes)).map
      fun out => (writes ++ out.1, out.2) := by
  rw [collect, h]

variable {D} in
theorem collect_of_error {op : Op} {k : Except ε (Ret op) → Program Ret ε α} {s : σ} {e : ε}
    (h : D.eval op s = .error e) : D.collect (.call op k) s = .error e := by
  rw [collect, h]

/-- What is stored are the rows that are written. A transaction that runs
alone reads its own writes, and commits just these. -/
theorem alone_eq_collect (p : Program Ret ε α) (s : σ) :
    D.alone p s = (D.collect p s).map fun out => (D.view s out.1, out.2) := by
  induction p generalizing s with
  | done a => rfl
  | raise e => rfl
  | call op k ih =>
    cases heval : D.eval op s with
    | error e => rw [alone_of_error heval, collect_of_error heval]; rfl
    | ok out =>
      rw [alone_of_ok heval, collect_of_ok heval, ih]
      cases D.collect (k (.ok out.2)) (D.view s out.1) with
      | error e => rfl
      | ok rest => exact congrArg (fun s' => Except.ok (s', rest.2)) (D.view_append ..).symm

/-- What is stored after a transaction that runs alone, and its answer.
What it has written is stored when it commits, and dropped when it
raises. -/
def transact (p : Program Ret ε α) (s : σ) : σ × Except ε α :=
  match D.collect p s with
  | .ok (writes, a) => (D.view s writes, .ok a)
  | .error e => (s, .error e)

variable {D} in
/-- A transaction that commits. What a server does alone with it is what
it computes when nobody else is there. -/
theorem transact_of_ok {p : Program Ret ε α} {s s' : σ} {a : α} (h : D.alone p s = .ok (s', a)) :
    D.transact p s = (s', .ok a) := by
  rw [alone_eq_collect] at h
  unfold transact
  cases hcollect : D.collect p s with
  | error e =>
    rw [hcollect] at h
    exact absurd h (by simp [Except.map])
  | ok out =>
    rw [hcollect] at h
    obtain ⟨rfl, rfl⟩ := Prod.mk.inj (Except.ok.inj h)
    rfl

variable {D} in
/-- A transaction that is rolled back. -/
theorem transact_of_error {p : Program Ret ε α} {s : σ} {e : ε} (h : D.alone p s = .error e) :
    D.transact p s = (s, .error e) := by
  rw [alone_eq_collect] at h
  unfold transact
  cases hcollect : D.collect p s with
  | error e' =>
    rw [hcollect] at h
    rw [Except.error.inj h]
  | ok out =>
    rw [hcollect] at h
    exact absurd h (by simp [Except.map])

/-! ## Interleaved transactions -/

section Step

variable [DecidableEq κ]

/-- Locks without those of a transaction. -/
def release (owner : κ → Option ℕ) (t : ℕ) : κ → Option ℕ := fun key =>
  if owner key = some t then none else owner key

omit [DecidableEq κ] in
theorem release_eq_some_iff {owner : κ → Option ℕ} {t t' : ℕ} {key : κ} :
    release owner t key = some t' ↔ owner key = some t' ∧ t' ≠ t := by
  unfold release
  split
  · next h =>
    refine ⟨fun h' => absurd h' (by simp), fun ⟨h', hne⟩ => absurd ?_ hne⟩
    exact Option.some.inj (h'.symm.trans h)
  · next h => exact ⟨fun h' => ⟨h', fun heq => h (heq ▸ h')⟩, And.left⟩

/-- Locks with those that a transaction takes. -/
def take (owner : κ → Option ℕ) (keys : List κ) (t : ℕ) : κ → Option ℕ := fun key =>
  if key ∈ keys then some t else owner key

/-- Whether a transaction need not wait for a row: nobody else holds a
lock on any of the rows that it is about to change. -/
def MayLock (owner : κ → Option ℕ) (keys : List κ) (t : ℕ) : Prop :=
  ∀ key ∈ keys, owner key = none ∨ owner key = some t

instance (owner : κ → Option ℕ) (keys : List κ) (t : ℕ) : Decidable (MayLock owner keys t) :=
  inferInstanceAs (Decidable (∀ _ ∈ _, _ ∨ _))

/-- The locks of the others stay. -/
theorem take_of_mayLock {owner : κ → Option ℕ} {keys : List κ} {t t' : ℕ} {key : κ}
    (h : MayLock owner keys t) (hown : owner key = some t') (hne : t' ≠ t) :
    take owner keys t key = some t' := by
  unfold take
  split
  · next hmem =>
    rcases h key hmem with hfree | hmine
    · exact absurd (hown.symm.trans hfree) (by simp)
    · exact absurd (Option.some.inj (hown.symm.trans hmine)) hne
  · exact hown

theorem take_of_ne {owner : κ → Option ℕ} {keys : List κ} {t t' : ℕ} {key : κ}
    (h : take owner keys t key = some t') (hne : t' ≠ t) : owner key = some t' := by
  unfold take at h
  split at h
  · exact absurd (Option.some.inj h).symm hne
  · exact h

/-- A transaction in its next phase. -/
def setPhase (sessions : List (ρ × Phase Ret ε α ω)) (t : ℕ) (request : ρ)
    (phase : Phase Ret ε α ω) : List (ρ × Phase Ret ε α ω) :=
  sessions.set t (request, phase)

/-- One step of a session. A statement that fails has no effect, and its
transaction goes on to fail. -/
def step (program : ρ → Program Ret ε α) (s : Sessions Ret ε α σ ω κ ρ) :
    Sessions.Action ρ → Option (Sessions Ret ε α σ ω κ ρ)
  | .begin request =>
    some { s with sessions := s.sessions ++ [(request, .active [] (program request))] }
  | .advance t =>
    match s.sessions[t]? with
    | some (request, .active writes (.call op k)) =>
      let seen := D.view s.stored writes
      if MayLock s.owner (D.locks op seen) t then
        match D.eval op seen with
        | .ok (writes', a) => some { s with
            owner := take s.owner (D.locks op seen) t
            sessions := setPhase s.sessions t request (.active (writes ++ writes') (k (.ok a))) }
        | .error e => some { s with
            sessions := setPhase s.sessions t request (.active writes (.raise e)) }
      else none
    | _ => none
  | .commit t =>
    match s.sessions[t]? with
    | some (request, .active writes (.done a)) => some {
        stored := D.view s.stored writes
        owner := release s.owner t
        sessions := setPhase s.sessions t request (.committed a)
        log := if writes.isEmpty then s.log else s.log ++ [(t, request)] }
    | _ => none
  | .rollback t =>
    match s.sessions[t]? with
    | some (request, .active _ _) => some { s with
        owner := release s.owner t
        sessions := setPhase s.sessions t request .rolledBack }
    | _ => none

variable {D} in
/-- What running a statement can do. It waits for no lock, or it is no
step; and it locks and writes, or raises and ends its transaction. -/
theorem step_advance {program : ρ → Program Ret ε α} {s s' : Sessions Ret ε α σ ω κ ρ} {t : ℕ}
    (h : D.step program s (.advance t) = some s') :
    ∃ request writes op k, s.sessions[t]? = some (request, .active writes (.call op k))
      ∧ MayLock s.owner (D.locks op (D.view s.stored writes)) t
      ∧ ((∃ writes' a, D.eval op (D.view s.stored writes) = .ok (writes', a)
          ∧ s' = { s with
            owner := take s.owner (D.locks op (D.view s.stored writes)) t
            sessions := setPhase s.sessions t request (.active (writes ++ writes') (k (.ok a))) })
        ∨ ∃ e, D.eval op (D.view s.stored writes) = .error e
          ∧ s' = { s with
            sessions := setPhase s.sessions t request (.active writes (.raise e)) }) := by
  unfold step at h
  dsimp only at h
  split at h
  · next request writes op k hsession =>
    split at h
    · next hmay =>
      refine ⟨request, writes, op, k, hsession, hmay, ?_⟩
      cases heval : D.eval op (D.view s.stored writes) with
      | error e =>
        rw [heval] at h
        exact .inr ⟨e, rfl, (Option.some.inj h).symm⟩
      | ok out =>
        rw [heval] at h
        exact .inl ⟨out.1, out.2, rfl, (Option.some.inj h).symm⟩
    · exact absurd h (by simp)
  · exact absurd h (by simp)

variable {D} in
/-- What a commit can do. The log has an entry if something was written,
and this is what results about the order of commits speak of. -/
theorem step_commit {program : ρ → Program Ret ε α} {s s' : Sessions Ret ε α σ ω κ ρ} {t : ℕ}
    (h : D.step program s (.commit t) = some s') :
    ∃ request writes a, s.sessions[t]? = some (request, .active writes (.done a))
      ∧ s' = {
        stored := D.view s.stored writes
        owner := release s.owner t
        sessions := setPhase s.sessions t request (.committed a)
        log := if writes.isEmpty then s.log else s.log ++ [(t, request)] } := by
  unfold step at h
  dsimp only at h
  split at h
  · next request writes a hsession =>
    exact ⟨request, writes, a, hsession, (Option.some.inj h).symm⟩
  · exact absurd h (by simp)

variable {D} in
/-- What a rollback can do. Nothing that is stored changes, since writes
are with the transaction until it commits. -/
theorem step_rollback {program : ρ → Program Ret ε α} {s s' : Sessions Ret ε α σ ω κ ρ} {t : ℕ}
    (h : D.step program s (.rollback t) = some s') :
    ∃ request writes p, s.sessions[t]? = some (request, .active writes p)
      ∧ s' = { s with
        owner := release s.owner t
        sessions := setPhase s.sessions t request .rolledBack } := by
  unfold step at h
  dsimp only at h
  split at h
  · next request writes p hsession =>
    exact ⟨request, writes, p, hsession, (Option.some.inj h).symm⟩
  · exact absurd h (by simp)

/-- The database before the first transaction. -/
def initial (s₀ : σ) : Sessions Ret ε α σ ω κ ρ := ⟨s₀, fun _ => none, [], []⟩

/-! ## Transactions that lock one row first

If every transaction locks the same row before it reads anything else,
there is no time at which two of them are under way and have both read. So
what is stored is what they would have stored one after another, in the
order of their commits. -/

/-- What the transactions of a log store when they run alone, one after
another. Transactions that have written nothing are not in the log, and
leave no trace in what is stored. -/
inductive Serial (program : ρ → Program Ret ε α) (s₀ : σ) : List (ℕ × ρ) → σ → Prop
  | nil : Serial program s₀ [] s₀
  | snoc {log : List (ℕ × ρ)} {s : σ} {writes : List ω} {a : α} (t : ℕ) (request : ρ)
      (before : Serial program s₀ log s)
      (collect : D.collect (program request) s = .ok (writes, a)) (writes_ne : writes ≠ []) :
      Serial program s₀ (log ++ [(t, request)]) (D.view s writes)

/-- What is left of a transaction are no statements. -/
def Finished : Program Ret ε α → Prop
  | .call _ _ => False
  | _ => True

/-- The first statement of a transaction locks a row, or does not write
and is the only one. A request that is refused after one look at the
database is of the second kind. -/
def LocksFirst (key : κ) (s : σ) : Program Ret ε α → Prop
  | .call op k => key ∈ D.locks op s
      ∨ ∀ writes a, D.eval op s = .ok (writes, a) → writes = [] ∧ Finished (k (.ok a))
  | _ => True

/-- What is known of a session: it holds the row and has the rest of its
transaction to run, or it has not begun to write. In the first case its
writes and what it has left to do are together what it would do alone on
what is stored now. -/
def InStep (program : ρ → Program Ret ε α) (key : κ) (stored : σ) (owner : κ → Option ℕ) (t : ℕ) :
    ρ × Phase Ret ε α ω → Prop
  | (request, .active writes p) =>
    (owner key = some t → D.collect (program request) stored
        = (D.collect p (D.view stored writes)).map fun out => (writes ++ out.1, out.2))
      ∧ (owner key ≠ some t → writes = [] ∧ (p = program request ∨ Finished p))
  | _ => owner key ≠ some t

/-- The invariant of interleaved transactions that lock a row first. What
is stored is explained by the log, and each session is in step with it. -/
structure InSeries (program : ρ → Program Ret ε α) (key : κ) (s₀ : σ)
    (s : Sessions Ret ε α σ ω κ ρ) : Prop where
  serial : D.Serial program s₀ s.log s.stored
  inStep : ∀ t session, s.sessions[t]? = some session →
    D.InStep program key s.stored s.owner t session
  owner : ∀ t, s.owner key = some t → t < s.sessions.length
  log : ∀ entry ∈ s.log, ∃ a, s.sessions[entry.1]? = some (entry.2, .committed a)
  nodup : (s.log.map Prod.fst).Nodup

variable {D} {program : ρ → Program Ret ε α} {key : κ} {s₀ : σ}

omit [DecidableEq κ] in
/-- A session that does not hold the row does not depend on what is
stored. -/
theorem InStep.of_ne {stored stored' : σ} {owner owner' : κ → Option ℕ} {t : ℕ}
    {session : ρ × Phase Ret ε α ω} (h : D.InStep program key stored owner t session)
    (hne : owner key ≠ some t) (hne' : owner' key ≠ some t) :
    D.InStep program key stored' owner' t session := by
  obtain ⟨request, phase⟩ := session
  cases phase with
  | active writes p => exact ⟨fun h' => absurd h' hne', fun _ => h.2 hne⟩
  | committed a => exact hne'
  | rolledBack => exact hne'

omit [DecidableEq κ] in
theorem getElem?_setPhase {sessions : List (ρ × Phase Ret ε α ω)} {t t' : ℕ} {request : ρ}
    {phase : Phase Ret ε α ω} {session : ρ × Phase Ret ε α ω}
    (h : (setPhase sessions t request phase)[t']? = some session) :
    (t' = t ∧ session = (request, phase)) ∨ (t' ≠ t ∧ sessions[t']? = some session) := by
  unfold setPhase at h
  rw [List.getElem?_set] at h
  split at h
  · next heq =>
    split at h
    · exact .inl ⟨heq.symm, (Option.some.inj h).symm⟩
    · exact absurd h (by simp)
  · next hne => exact .inr ⟨Ne.symm hne, h⟩

omit [DecidableEq κ] in
/-- The phase of another session. -/
theorem getElem?_setPhase_of_ne {sessions : List (ρ × Phase Ret ε α ω)} {t t' : ℕ} {request : ρ}
    {phase : Phase Ret ε α ω} (h : t' ≠ t) :
    (setPhase sessions t request phase)[t']? = sessions[t']? := by
  unfold setPhase
  rw [List.getElem?_set_ne (Ne.symm h)]

namespace InSeries

variable {s : Sessions Ret ε α σ ω κ ρ}

omit [DecidableEq κ] in
/-- A new session, which has neither read nor locked anything. So it is in
step with whatever is stored. -/
theorem begin_ (h : D.InSeries program key s₀ s) (request : ρ) :
    D.InSeries program key s₀
      { s with sessions := s.sessions ++ [(request, .active [] (program request))] } where
  serial := h.serial
  inStep := fun t session hsession => by
    rw [List.getElem?_append] at hsession
    split at hsession
    · exact h.inStep t session hsession
    · next hlt =>
      obtain rfl := List.mem_singleton.mp (List.mem_of_getElem? hsession)
      exact ⟨fun howner => absurd (h.owner t howner) hlt, fun _ => ⟨rfl, .inl rfl⟩⟩
  owner := fun t howner => Nat.lt_of_lt_of_le (h.owner t howner) (by simp)
  log := fun entry hentry => by
    obtain ⟨a, ha⟩ := h.log entry hentry
    refine ⟨a, ?_⟩
    show (s.sessions ++ _)[entry.1]? = _
    rw [List.getElem?_append_left (List.getElem?_eq_some_iff.mp ha).1, ha]
  nodup := h.nodup

omit [DecidableEq κ] in
/-- A new phase of a session that keeps what is stored. The other sessions
are as they were, unless the key is taken from them, which a lock
excludes. -/
theorem setPhase_ (h : D.InSeries program key s₀ s) {t : ℕ} {request : ρ}
    {writes : List ω} {p : Program Ret ε α}
    (hsession : s.sessions[t]? = some (request, .active writes p)) {owner : κ → Option ℕ}
    {phase : Phase Ret ε α ω} (hphase : D.InStep program key s.stored owner t (request, phase))
    (howner : ∀ t', t' ≠ t → owner key = some t' → s.owner key = some t')
    (hothers : ∀ t', t' ≠ t → s.owner key = some t' → owner key = some t') :
    D.InSeries program key s₀
      { s with owner := owner, sessions := setPhase s.sessions t request phase } where
  serial := h.serial
  inStep := fun t' session hsession' => by
    rcases getElem?_setPhase hsession' with ⟨rfl, rfl⟩ | ⟨hne, hold⟩
    · exact hphase
    · have hin := h.inStep t' session hold
      -- who holds the lock is where it was, and nobody else has come as far
      by_cases hown : s.owner key = some t'
      · have hown' := hothers t' hne hown
        obtain ⟨request', phase'⟩ := session
        cases phase' with
        | active writes' p' => exact ⟨fun _ => hin.1 hown, fun hnot => absurd hown' hnot⟩
        | committed a => exact absurd hown hin
        | rolledBack => exact absurd hown hin
      · exact hin.of_ne hown fun hown' => hown (howner t' hne hown')
  owner := fun t' hown => by
    have hlen : t < s.sessions.length := (List.getElem?_eq_some_iff.mp hsession).1
    show t' < (setPhase s.sessions t request phase).length
    rw [setPhase, List.length_set]
    by_cases heq : t' = t
    · exact heq ▸ hlen
    · exact h.owner t' (howner t' heq hown)
  log := fun entry hentry => by
    obtain ⟨a, ha⟩ := h.log entry hentry
    have hne : entry.1 ≠ t := by
      rintro rfl
      rw [hsession] at ha
      exact absurd (Option.some.inj ha) (by simp)
    exact ⟨a, by rw [getElem?_setPhase_of_ne hne, ha]⟩
  nodup := h.nodup

/-- A statement. If the session holds the row already, nobody else has
written; if this is its first statement, it takes the row, and sees what
is stored. -/
theorem advance (h : D.InSeries program key s₀ s)
    (hfirst : ∀ request, D.LocksFirst key s.stored (program request)) {t : ℕ}
    {s' : Sessions Ret ε α σ ω κ ρ} (hstep : D.step program s (.advance t) = some s') :
    D.InSeries program key s₀ s' := by
  obtain ⟨request, writes, op, k, hsession, hmay, hcases⟩ := step_advance hstep
  have hin := h.inStep t _ hsession
  rcases hcases with ⟨writes', a, heval, rfl⟩ | ⟨e, heval, rfl⟩
  · have htake : ∀ t', t' ≠ t → take s.owner (D.locks op (D.view s.stored writes)) t key
        = some t' → s.owner key = some t' := fun t' hne hown => take_of_ne hown hne
    have hkeep : ∀ t', t' ≠ t → s.owner key = some t'
        → take s.owner (D.locks op (D.view s.stored writes)) t key = some t' :=
      fun t' hne hown => take_of_mayLock hmay hown hne
    refine h.setPhase_ hsession ?_ htake hkeep
    by_cases hown : s.owner key = some t
    · -- it holds the row already, and has run as it would alone
      have hcollect : D.collect (program request) s.stored
          = (D.collect (k (.ok a)) (D.view s.stored (writes ++ writes'))).map
            fun out => (writes ++ writes' ++ out.1, out.2) := by
        rw [hin.1 hown, collect_of_ok heval, view_append]
        cases D.collect (k (.ok a)) (D.view (D.view s.stored writes) writes') with
        | error e => rfl
        | ok rest =>
          exact congrArg (fun l => Except.ok (l, rest.2)) (List.append_assoc ..).symm
      refine ⟨fun _ => hcollect, fun hnot => absurd ?_ hnot⟩
      unfold take
      split
      · rfl
      · exact hown
    · -- it is its first statement
      obtain ⟨rfl, hp⟩ := hin.2 hown
      rcases hp with hp | hp
      · have hlocks := hfirst request
        rw [← hp] at hlocks
        rw [view_nil] at heval ⊢
        by_cases hmem : key ∈ D.locks op s.stored
        · refine ⟨fun _ => ?_, fun hnot => absurd (if_pos hmem) hnot⟩
          rw [← hp, collect_of_ok heval, List.nil_append]
        · rcases hlocks with hlocks | hlocks
          · exact absurd hlocks hmem
          · obtain ⟨rfl, hfinished⟩ := hlocks writes' a heval
            refine ⟨fun hown' => absurd hown' ?_, fun _ => ⟨rfl, .inr hfinished⟩⟩
            show ¬ (if key ∈ D.locks op s.stored then some t else s.owner key) = some t
            rw [if_neg hmem]
            exact hown
      · exact absurd hp (by simp [Finished])
  · refine h.setPhase_ hsession ⟨fun hown => ?_, fun hown => ⟨(hin.2 hown).1, .inr trivial⟩⟩
      (fun _ _ hown => hown) (fun _ _ hown => hown)
    rw [hin.1 hown, collect_of_error heval]
    rfl

/-- A rollback. -/
theorem rollback (h : D.InSeries program key s₀ s) {t : ℕ} {s' : Sessions Ret ε α σ ω κ ρ}
    (hstep : D.step program s (.rollback t) = some s') : D.InSeries program key s₀ s' := by
  obtain ⟨request, writes, p, hsession, rfl⟩ := step_rollback hstep
  exact h.setPhase_ hsession (fun hown => (release_eq_some_iff.mp hown).2 rfl)
    (fun t' _ hown => (release_eq_some_iff.mp hown).1)
    (fun t' hne hown => release_eq_some_iff.mpr ⟨hown, hne⟩)

/-- A commit. What the session has written is what it writes alone on what
is stored, so the log with it at the end explains the new contents. The
other sessions hold nothing and have seen nothing, so they stay in
step. -/
theorem commit (h : D.InSeries program key s₀ s) {t : ℕ} {s' : Sessions Ret ε α σ ω κ ρ}
    (hstep : D.step program s (.commit t) = some s') : D.InSeries program key s₀ s' := by
  obtain ⟨request, writes, a, hsession, rfl⟩ := step_commit hstep
  have hin := h.inStep t _ hsession
  have hlen : t < s.sessions.length := (List.getElem?_eq_some_iff.mp hsession).1
  have hset : (setPhase s.sessions t request (.committed a : Phase Ret ε α ω))[t]?
      = some (request, .committed a) := by
    unfold setPhase
    rw [List.getElem?_set_self hlen]
  have hfresh : ∀ entry ∈ s.log, entry.1 ≠ t := by
    rintro entry hentry rfl
    obtain ⟨b, hb⟩ := h.log entry hentry
    rw [hsession] at hb
    exact absurd (Option.some.inj hb) (by simp)
  have hold : ∀ entry ∈ s.log, ∃ b, (setPhase s.sessions t request
      (.committed a : Phase Ret ε α ω))[entry.1]? = some (entry.2, .committed b) := by
    intro entry hentry
    obtain ⟨b, hb⟩ := h.log entry hentry
    exact ⟨b, by rw [getElem?_setPhase_of_ne (hfresh entry hentry), hb]⟩
  constructor
  · show D.Serial program s₀ (if writes.isEmpty then s.log else s.log ++ [(t, request)])
      (D.view s.stored writes)
    cases writes with
    | nil => exact h.serial
    | cons w writes =>
      -- what has written holds the row
      have hown : s.owner key = some t := by
        by_contra hne
        exact absurd (hin.2 hne).1 (by simp)
      have hcollect : D.collect (program request) s.stored = .ok (w :: writes, a) := by
        rw [hin.1 hown]
        exact congrArg (fun l => Except.ok (l, a)) (List.append_nil _)
      exact .snoc t request h.serial hcollect (List.cons_ne_nil w writes)
  · intro t' session hsession'
    rcases getElem?_setPhase hsession' with ⟨rfl, rfl⟩ | ⟨hne, hsession'⟩
    · exact fun hown => (release_eq_some_iff.mp hown).2 rfl
    · have hin' := h.inStep t' session hsession'
      by_cases hown : s.owner key = some t'
      · -- then this transaction has written nothing
        have hnot : s.owner key ≠ some t := fun h' =>
          hne (Option.some.inj (hown.symm.trans h'))
        obtain ⟨rfl, -⟩ := hin.2 hnot
        have hown' : release s.owner t key = some t' := release_eq_some_iff.mpr ⟨hown, hne⟩
        obtain ⟨request', phase'⟩ := session
        cases phase' with
        | active writes' p' => exact ⟨fun _ => hin'.1 hown, fun h' => absurd hown' h'⟩
        | committed b => exact absurd hown hin'
        | rolledBack => exact absurd hown hin'
      · exact hin'.of_ne hown fun hown' => hown (release_eq_some_iff.mp hown').1
  · intro t' hown
    show t' < (setPhase s.sessions t request _).length
    rw [setPhase, List.length_set]
    exact h.owner t' (release_eq_some_iff.mp hown).1
  · show ∀ entry ∈ (if writes.isEmpty then s.log else s.log ++ [(t, request)]), _
    split
    · exact hold
    · intro entry hentry
      rcases List.mem_append.mp hentry with hentry | hentry
      · exact hold entry hentry
      · obtain rfl := List.mem_singleton.mp hentry
        exact ⟨a, hset⟩
  · show ((if writes.isEmpty then s.log else s.log ++ [(t, request)]).map Prod.fst).Nodup
    split
    · exact h.nodup
    · rw [List.map_append, List.map_singleton, ← List.concat_eq_append]
      refine List.Nodup.concat (fun hmem => ?_) h.nodup
      obtain ⟨entry, hentry, heq⟩ := List.mem_map.mp hmem
      exact hfresh entry hentry heq

end InSeries

omit [DecidableEq κ] in
/-- What the transactions of a log keep when each runs alone. -/
theorem Serial.invariant {Inv : σ → Prop} (hinit : Inv s₀)
    (hkeeps : ∀ request s s' a, Inv s → D.alone (program request) s = .ok (s', a) → Inv s')
    {log : List (ℕ × ρ)} {s : σ} (h : D.Serial program s₀ log s) : Inv s := by
  induction h with
  | nil => exact hinit
  | snoc t request _ hcollect _ ih =>
    exact hkeeps request _ _ _ ih (by rw [alone_eq_collect, hcollect]; rfl)

omit [DecidableEq κ] in
/-- What is stored is what the last transaction of the log has written,
from what those before it had left. So its effect can be read off from one
state. -/
theorem Serial.last {log : List (ℕ × ρ)} {t : ℕ} {request : ρ} {s : σ}
    (h : D.Serial program s₀ (log ++ [(t, request)]) s) :
    ∃ before writes a, D.Serial program s₀ log before
      ∧ D.collect (program request) before = .ok (writes, a) ∧ writes ≠ []
      ∧ s = D.view before writes := by
  generalize hlog : log ++ [(t, request)] = log' at h
  cases h with
  | nil => exact absurd hlog (List.append_ne_nil_of_right_ne_nil _ (by simp))
  | snoc t' request' before hcollect hne =>
    obtain ⟨rfl, heq⟩ := List.append_inj' hlog rfl
    obtain ⟨rfl, rfl⟩ := Prod.mk.inj (List.singleton_inj.mp heq)
    exact ⟨_, _, _, before, hcollect, hne, rfl⟩

/-- **Transactions that lock one row first are serializable**: in every
interleaving, what is stored is what the transactions that have written
store when they run alone, in the order of their commits. So what each
keeps when it runs alone, any number of them keep together. -/
theorem serial {Inv : σ → Prop} (hinit : Inv s₀)
    (hkeeps : ∀ request s s' a, Inv s → D.alone (program request) s = .ok (s', a) → Inv s')
    (hfirst : ∀ request s, Inv s → D.LocksFirst key s (program request))
    {s : Sessions Ret ε α σ ω κ ρ}
    (run : Transition.Reachable (D.step program) (initial s₀) s) :
    D.InSeries program key s₀ s := by
  have hstart : D.InSeries program key s₀ (initial s₀) := {
    serial := .nil
    inStep := fun t session h => absurd h (by simp [initial])
    owner := fun t h => absurd h (by simp [initial])
    log := fun entry h => absurd h List.not_mem_nil
    nodup := List.nodup_nil }
  refine run.invariant hstart ?_
  intro s a s' h _ hstep
  cases a with
  | begin request =>
    obtain rfl := Option.some.inj hstep
    exact h.begin_ request
  | advance t =>
    exact h.advance (fun request => hfirst request _ (h.serial.invariant hinit hkeeps)) hstep
  | commit t => exact h.commit hstep
  | rollback t => exact h.rollback hstep

/-! ## What is written is locked

No two transactions that are under way have written the same row. So what
is committed of one does not undo what another has written and not
committed. -/

/-- Statements lock the rows that they write. -/
def LocksWrites (rows : ω → List κ) : Prop :=
  ∀ op s writes a, D.eval op s = .ok (writes, a) → ∀ w ∈ writes, ∀ key ∈ rows w,
    key ∈ D.locks op s

/-- Open transactions hold the rows that they have written. Locks are kept
until the end of a transaction, so this does not depend on how far it has
come. -/
def Owns (rows : ω → List κ) (s : Sessions Ret ε α σ ω κ ρ) : Prop :=
  ∀ t request writes p, s.sessions[t]? = some (request, .active writes p) →
    ∀ w ∈ writes, ∀ key ∈ rows w, s.owner key = some t

variable {rows : ω → List κ}

/-- A step keeps the rows of the others, and locks what it writes. One
case for each action; only running a statement adds a write. -/
theorem Owns.step (hlocks : D.LocksWrites rows) {s s' : Sessions Ret ε α σ ω κ ρ}
    {action : Sessions.Action ρ} (h : Owns rows s) (hstep : D.step program s action = some s') :
    Owns rows s' := by
  intro t' request' writes' p' hsession' w hw key hkey
  cases action with
  | begin request =>
    obtain rfl := Option.some.inj hstep
    rw [List.getElem?_append] at hsession'
    split at hsession'
    · exact h t' request' writes' p' hsession' w hw key hkey
    · have heq := List.mem_singleton.mp (List.mem_of_getElem? hsession')
      obtain ⟨rfl, -⟩ := Phase.active.inj (Prod.mk.inj heq).2
      exact absurd hw List.not_mem_nil
  | advance t =>
    obtain ⟨request, writes, op, k, hsession, hmay, hcases⟩ := step_advance hstep
    -- a statement that succeeds locks before it writes; one that fails writes nothing
    rcases hcases with ⟨writes₁, a, heval, rfl⟩ | ⟨e, -, rfl⟩
    · rcases getElem?_setPhase hsession' with ⟨rfl, heq⟩ | ⟨hne, hsession'⟩
      · obtain ⟨rfl, -⟩ := Phase.active.inj (Prod.mk.inj heq).2
        show take s.owner _ t' key = some t'
        unfold take
        split
        · rfl
        · next hmem =>
          rcases List.mem_append.mp hw with hw | hw
          · exact h t' request writes _ hsession w hw key hkey
          · exact absurd (hlocks op _ writes₁ a heval w hw key hkey) hmem
      · exact take_of_mayLock hmay (h t' request' writes' p' hsession' w hw key hkey) hne
    · rcases getElem?_setPhase hsession' with ⟨rfl, heq⟩ | ⟨-, hsession'⟩
      · obtain ⟨rfl, -⟩ := Phase.active.inj (Prod.mk.inj heq).2
        exact h t' request writes' _ hsession w hw key hkey
      · exact h t' request' writes' p' hsession' w hw key hkey
  | commit t =>
    obtain ⟨request, writes, a, -, rfl⟩ := step_commit hstep
    rcases getElem?_setPhase hsession' with ⟨-, heq⟩ | ⟨hne, hsession'⟩
    · exact absurd (Prod.mk.inj heq).2 (by simp)
    · exact release_eq_some_iff.mpr ⟨h t' request' writes' p' hsession' w hw key hkey, hne⟩
  | rollback t =>
    obtain ⟨request, writes, p, -, rfl⟩ := step_rollback hstep
    rcases getElem?_setPhase hsession' with ⟨-, heq⟩ | ⟨hne, hsession'⟩
    · exact absurd (Prod.mk.inj heq).2 (by simp)
    · exact release_eq_some_iff.mpr ⟨h t' request' writes' p' hsession' w hw key hkey, hne⟩

omit [DecidableEq κ] in
/-- **Two open transactions never write the same row.** A lock has one
owner, and each row that was written is locked until the transaction ends.
So what an open transaction has written can be told from what the others
have. -/
theorem Owns.eq {s : Sessions Ret ε α σ ω κ ρ} (h : Owns rows s) {t t' : ℕ} {request request' : ρ}
    {writes writes' : List ω} {p p' : Program Ret ε α} {w w' : ω} {key : κ}
    (ht : s.sessions[t]? = some (request, .active writes p)) (hw : w ∈ writes)
    (hkey : key ∈ rows w) (ht' : s.sessions[t']? = some (request', .active writes' p'))
    (hw' : w' ∈ writes') (hkey' : key ∈ rows w') : t = t' :=
  Option.some.inj ((h t request writes p ht w hw key hkey).symm.trans
    (h t' request' writes' p' ht' w' hw' key hkey'))

end Step

end Statements
