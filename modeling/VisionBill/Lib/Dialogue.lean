import VisionBill.Lib.Program
import Mathlib.Data.List.Basic

/-!
# Dialogues with a limited number of attempts

A conversation is sent to somebody who may answer anything. The answer is
accepted, or it ends the dialogue, or it is rejected and something is
added to the conversation before it is sent again. After a number of
attempts nobody is asked any more.

## What is shown

Whatever the answers are, a dialogue is determined by those that were
rejected (`Course`): they say what has been sent at each attempt and how
many attempts there were, and the answer after them, if there was one,
says how it ended. So a loop with a counter, a growing list and three ways
to leave it is described by one list, without the loop.

The program `converse` is the loop. `course_of_run` is the induction over
the attempts that are left; the results after it read single facts off the
course, such as that no attempt is made beyond the limit
(`Course.length_le`) and what is sent at an attempt
(`Course.getElem?_conversations`).
-/

/-- What becomes of an answer. Only a rejection goes on, and what it adds
is all that the next answer is different for. -/
inductive Verdict (μ ε α : Type)
  /-- The dialogue ends with a result. -/
  | accept (a : α)
  /-- The dialogue ends at once, without a result. -/
  | abort (e : ε)
  /-- The conversation goes on with more messages. -/
  | reject (more : List μ)

namespace Dialogue

variable {μ τ ε α : Type}

/-- What a rejected answer adds to the conversation. -/
def more (judge : τ → Verdict μ ε α) (answer : τ) : List μ :=
  match judge answer with
  | .reject more => more
  | _ => []

/-- An answer that is rejected. -/
def Rejected (judge : τ → Verdict μ ε α) (answer : τ) : Prop :=
  ∃ more, judge answer = .reject more

/-- A conversation after some answers. -/
def conversation (judge : τ → Verdict μ ε α) (messages : List μ) (answers : List τ) : List μ :=
  messages ++ answers.flatMap (more judge)

/-- The conversations that are sent, one before each of some answers. Each
of them is the one before it with what the answer in between has added. -/
def sent (judge : τ → Verdict μ ε α) (messages : List μ) : List τ → List (List μ)
  | [] => []
  | answer :: answers => messages :: sent judge (messages ++ more judge answer) answers

/-- A dialogue with at most `limit` more attempts, of which the next one
has the number `attempt`. Its result comes with the number of the last
attempt. -/
def converse (judge : τ → Verdict μ ε α) (exhausted : ε) :
    ℕ → ℕ → List μ → Program (fun _ : List μ => τ) ε (α × ℕ)
  | 0, _, _ => throw exhausted
  | limit + 1, attempt, messages => do
    let answer ← Program.perform messages
    match judge answer with
    | .accept a => return (a, attempt)
    | .abort e => throw e
    | .reject more => converse judge exhausted limit (attempt + 1) (messages ++ more)

/-- An operation of a dialogue: the conversation is written down, and what
is answered is a choice. -/
def record (log : List (List μ)) (messages : List μ) (answer : Except ε τ) :
    Option (List (List μ) × Except ε τ) :=
  some (log ++ [messages], answer)

section Run

variable {judge : τ → Verdict μ ε α} {exhausted : ε} {limit attempt : ℕ} {messages : List μ}
  {answer : τ} {answers : List (Except ε τ)} {log : List (List μ)}

/-- An answer that is accepted ends the dialogue. -/
theorem run_converse_accept {a : α} (h : judge answer = .accept a) :
    (converse judge exhausted (limit + 1) attempt messages).run record [.ok answer] log
      = some (log ++ [messages], .ok (a, attempt)) := by
  show Program.run record (match judge answer with
    | .accept a => return (a, attempt)
    | .abort e => throw e
    | .reject more => converse judge exhausted limit (attempt + 1) (messages ++ more)) [] _ = _
  rw [h]
  rfl

/-- One that is rejected is followed by the next attempt. -/
theorem run_converse_reject {more : List μ} (h : judge answer = .reject more) :
    (converse judge exhausted (limit + 1) attempt messages).run record (.ok answer :: answers) log
      = (converse judge exhausted limit (attempt + 1) (messages ++ more)).run record answers
        (log ++ [messages]) := by
  show Program.run record (match judge answer with
    | .accept a => return (a, attempt)
    | .abort e => throw e
    | .reject more => converse judge exhausted limit (attempt + 1) (messages ++ more)) _ _ = _
  rw [h]

end Run

/-- How a dialogue ends with an answer, or with the failure of a
request. -/
def Ends (judge : τ → Verdict μ ε α) (attempt : ℕ) :
    Except ε τ → Except ε (α × ℕ) → Prop
  | .error e, result => result = .error e
  | .ok answer, result => (∃ a, judge answer = .accept a ∧ result = .ok (a, attempt))
      ∨ ∃ e, judge answer = .abort e ∧ result = .error e

/-- **The course of a dialogue**: some answers were rejected, each attempt
sent what was sent before with what the last rejection added, and then
there was no attempt left or an answer that ended it. An answer that ends
a dialogue is answered within the limit, so both cases bound the number of
attempts. -/
structure Course (judge : τ → Verdict μ ε α) (exhausted : ε) (limit attempt : ℕ)
    (messages : List μ) (answers : List (Except ε τ)) (conversations : List (List μ))
    (result : Except ε (α × ℕ)) (rejected : List τ) : Prop where
  all_rejected : ∀ answer ∈ rejected, Rejected judge answer
  ending : (rejected.length = limit ∧ answers = rejected.map .ok
      ∧ conversations = sent judge messages rejected ∧ result = .error exhausted)
    ∨ ∃ last, rejected.length < limit ∧ answers = rejected.map .ok ++ [last]
      ∧ conversations = sent judge messages rejected ++ [conversation judge messages rejected]
      ∧ Ends judge (attempt + rejected.length) last result

section

variable {judge : τ → Verdict μ ε α} {exhausted : ε} {limit attempt : ℕ} {messages : List μ}
  {answers : List (Except ε τ)} {log conversations : List (List μ)} {result : Except ε (α × ℕ)}
  {rejected : List τ}

theorem more_of_reject {answer : τ} {m : List μ} (h : judge answer = .reject m) :
    more judge answer = m := by
  unfold more
  rw [h]

@[simp] theorem length_sent (answers : List τ) :
    (sent judge messages answers).length = answers.length := by
  induction answers generalizing messages with
  | nil => rfl
  | cons answer answers ih => exact congrArg (· + 1) ih

/-- What is sent before an answer is what came before it. The conversation
is generalised, as it grows with every answer. -/
theorem getElem?_sent {answers : List τ} {n : ℕ} (hn : n < answers.length) :
    (sent judge messages answers)[n]? = some (conversation judge messages (answers.take n)) := by
  induction answers generalizing messages n with
  | nil => exact absurd hn (Nat.not_lt_zero n)
  | cons answer answers ih =>
    cases n with
    | zero => exact congrArg some (List.append_nil messages).symm
    | succ n =>
      show (sent judge (messages ++ more judge answer) answers)[n]? = _
      rw [ih (Nat.lt_of_succ_lt_succ hn)]
      unfold conversation
      rw [List.take_succ_cons, List.flatMap_cons, List.append_assoc]

/-- One more answer is rejected first: the course of the rest, of a longer
conversation and with one attempt less, is that of the whole. -/
theorem Course.cons {answer : τ} {m : List μ} (h : judge answer = .reject m)
    (hcourse : Course judge exhausted limit (attempt + 1) (messages ++ m) answers conversations
      result rejected) :
    Course judge exhausted (limit + 1) attempt messages (.ok answer :: answers)
      (messages :: conversations) result (answer :: rejected) where
  all_rejected := List.forall_mem_cons.mpr ⟨⟨m, h⟩, hcourse.all_rejected⟩
  ending := by
    have hsent : sent judge messages (answer :: rejected)
        = messages :: sent judge (messages ++ m) rejected := by
      rw [sent, more_of_reject h]
    rw [hsent]
    rcases hcourse.ending with ⟨hlength, rfl, rfl, hresult⟩ | ⟨last, hlength, rfl, rfl, hends⟩
    · exact .inl ⟨congrArg (· + 1) hlength, rfl, rfl, hresult⟩
    · refine .inr ⟨last, Nat.succ_lt_succ hlength, rfl, ?_, ?_⟩
      · unfold conversation
        rw [List.flatMap_cons, more_of_reject h, List.append_assoc]
        rfl
      · rw [List.length_cons, Nat.add_comm rejected.length, ← Nat.add_assoc]
        exact hends

/-- **Every dialogue takes its course**, whatever is answered. The
induction is on the attempts that are left; a rejected answer moves into
the list of those that were rejected, and what it adds moves into the
conversation. -/
theorem course_of_run
    (h : (converse judge exhausted limit attempt messages).run record answers log
      = some (conversations, result)) :
    ∃ new rejected, conversations = log ++ new
      ∧ Course judge exhausted limit attempt messages answers new result rejected := by
  induction limit generalizing attempt messages answers log with
  | zero =>
    obtain ⟨rfl, rfl, rfl⟩ := Program.run_throw h
    exact ⟨[], [], (List.append_nil _).symm, by simp, .inl ⟨rfl, rfl, rfl, rfl⟩⟩
  | succ limit ih =>
    obtain ⟨choice, rest, rfl, hrun⟩ := Program.run_perform_bind h
    have hone : [messages] = sent judge messages [] ++ [conversation judge messages []] :=
      congrArg (fun m => [m]) (List.append_nil messages).symm
    rcases hrun with ⟨log₁, answer, hrecord, hrest⟩ | ⟨e, hrecord, rfl, rfl⟩
    · obtain ⟨rfl, rfl⟩ := Prod.mk.inj (Option.some.inj hrecord)
      -- only a rejected answer goes on
      cases hjudge : judge answer with
      | accept a =>
        rw [hjudge] at hrest
        obtain ⟨rfl, rfl, rfl⟩ := Program.run_pure hrest
        exact ⟨[messages], [], rfl, by simp, .inr ⟨.ok answer, Nat.succ_pos limit, rfl,
          hone, .inl ⟨a, hjudge, rfl⟩⟩⟩
      | abort e =>
        rw [hjudge] at hrest
        obtain ⟨rfl, rfl, rfl⟩ := Program.run_throw hrest
        exact ⟨[messages], [], rfl, by simp, .inr ⟨.ok answer, Nat.succ_pos limit, rfl,
          hone, .inr ⟨e, hjudge, rfl⟩⟩⟩
      | reject m =>
        rw [hjudge] at hrest
        obtain ⟨new, rejected, rfl, hcourse⟩ := ih hrest
        exact ⟨messages :: new, answer :: rejected, List.append_assoc .., hcourse.cons hjudge⟩
    · obtain ⟨rfl, rfl⟩ := Prod.mk.inj (Option.some.inj hrecord)
      exact ⟨[messages], [], rfl, by simp, .inr ⟨.error e, Nat.succ_pos limit, rfl,
        hone, rfl⟩⟩

/-- There are as many attempts as answers. -/
theorem Course.length_conversations (h : Course judge exhausted limit attempt messages answers
    conversations result rejected) : conversations.length = answers.length := by
  rcases h.ending with ⟨-, rfl, rfl, -⟩ | ⟨last, -, rfl, rfl, -⟩
  · rw [length_sent, List.length_map]
  · rw [List.length_append, List.length_append, length_sent, List.length_map]
    rfl

/-- No more attempts than the limit allows. -/
theorem Course.length_le (h : Course judge exhausted limit attempt messages answers conversations
    result rejected) : conversations.length ≤ limit := by
  rcases h.ending with ⟨hlength, -, rfl, -⟩ | ⟨last, hlength, -, rfl, -⟩
  · rw [length_sent]
    exact Nat.le_of_eq hlength
  · rw [List.length_append, length_sent]
    exact hlength

/-- What is sent at an attempt: the first conversation and all that the
answers rejected so far have added. It does not depend on how the course
ends. -/
theorem Course.getElem?_conversations (h : Course judge exhausted limit attempt messages answers
    conversations result rejected) {n : ℕ} (hn : n < conversations.length) :
    conversations[n]? = some (conversation judge messages (rejected.take n)) := by
  rcases h.ending with ⟨-, -, rfl, -⟩ | ⟨last, -, -, rfl, -⟩
  · rw [length_sent] at hn
    exact getElem?_sent hn
  · rw [List.length_append, length_sent] at hn
    rw [List.getElem?_append]
    split
    · next hlt =>
      rw [length_sent] at hlt
      exact getElem?_sent hlt
    · next hge =>
      rw [length_sent] at hge
      obtain rfl : n = rejected.length := Nat.le_antisymm (Nat.le_of_lt_succ hn)
        (Nat.not_lt.mp hge)
      rw [length_sent, Nat.sub_self, List.take_length]
      rfl

end

end Dialogue
