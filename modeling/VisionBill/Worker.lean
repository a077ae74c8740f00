import VisionBill.ImageDeletion

/-!
# The worker and its wake-ups

The worker waits until it is triggered or the interval is over, clears the
flag, and calls `process_pending`; so do requests at any time, and a lock
lets one call after the other look at the queue. Tasks take turns at
`await`s only, so that the flag is cleared and the call made in one step.

A trigger while the worker is busy leaves the flag set, and the worker
does not stay waiting. So when it waits and the flag is clear, nothing was
triggered since its last call, and that call has looked at the queue if
the provider and the database let it: whatever was stored before the last
trigger was there for it (`Worker.no_lost_wakeup`).

## What is a lost wake-up

An upload stores its image and then triggers the worker. The image is lost
from sight if the worker waits afterwards although it has not listed the
queue since the image was stored. Time alone would bring it back, after
the interval; the point of the trigger is that nobody has to wait for
that. Two things can go wrong in such a design: the flag is cleared after
the queue was listed, so that a trigger in between is forgotten, or the
trigger comes before the image is stored. Neither happens here, and both
are part of what is proved.

## What has happened

The state carries the past, as a list of events: what was stored,
triggered, listed, called. The invariant speaks of the events since the
loop's latest call (`Since`), so that it need not say when that was. An
event is added in the step that makes it happen, and nothing ever looks
into the list except the statements.

Besides the loop there are any number of requests, each with a call of
`process_pending` of its own, and everything else that the program does
(`other`). The lock is taken by one call at a time, in no particular
order.
-/

namespace VisionBill

/-! ## What has happened

Whether an image is forgotten is a question about the past: whether the
queue was looked at after it was stored. So the state has a history, which
no task reads. -/

/-- Who does something: the loop, a request that runs a cycle, or another
one. -/
inductive WorkerTask
  | loop
  | request (n : ℕ)
  | other
  deriving DecidableEq, Repr

/-- What has happened, as far as it concerns images, uploads and the loop.
The worker does not read it; results that speak of the past do. -/
inductive WorkerEvent
  /-- `trigger`, of an upload of several photos or of anyone. -/
  | triggered (upload : Option UUID)
  | called (task : WorkerTask)
  /-- The queue cannot be looked at. -/
  | unavailable (task : WorkerTask)
  | listed (task : WorkerTask) (now : Timestamp) (db : Db) (rows : List ImageRecord)
  | stored (imageId : UUID)
  | deleted (imageId : UUID)

namespace WorkerEvent

/-- An image was stored, and not deleted since. It is read off the history
from its latest event on. An identifier that was deleted is not stored
again, but this does not need to know that. -/
def Keeps (i : UUID) : List WorkerEvent → Prop
  | [] => False
  | .stored j :: history => j = i ∨ Keeps i history
  | .deleted j :: history => j ≠ i ∧ Keeps i history
  | _ :: history => Keeps i history

/-- An image is visible to a listing: it is there, and among the rows if
it may be claimed. An image that somebody has claimed is visible without
being listed. -/
def Sees (now : Timestamp) (db : Db) (rows : List ImageRecord) (i : UUID) : Prop :=
  ∃ image, db.images.get? i = some image ∧ (image.Claimable now → image ∈ rows)

/-- Every listing saw what was there before it. -/
def ListingsSee : List WorkerEvent → Prop
  | [] => True
  | .listed _ now db rows :: history =>
    (∀ i, Keeps i history → Sees now db rows i) ∧ ListingsSee history
  | _ :: history => ListingsSee history

/-- No upload has triggered the worker before its image was stored. This
is about the order of two calls in `upload_image`, between which other
tasks may run. -/
def UploadsStored : List WorkerEvent → Prop
  | [] => True
  | .triggered (some i) :: history => .stored i ∈ history ∧ UploadsStored history
  | _ :: history => UploadsStored history

/-- The events before and after the latest call of the loop. The latest
events are first in the history. -/
structure Since (history after before : List WorkerEvent) : Prop where
  eq : history = after ++ .called .loop :: before
  latest : .called .loop ∉ after

/-- Since its latest call, the loop has looked at the queue, or could
not. -/
def Looked (after : List WorkerEvent) : Prop :=
  .unavailable .loop ∈ after ∨ ∃ now db rows, .listed .loop now db rows ∈ after

/-- Nothing was triggered. -/
def Quiet (after : List WorkerEvent) : Prop := ∀ upload, .triggered upload ∉ after

variable {after before events history newer older : List WorkerEvent}

theorem Looked.append (h : Looked after) (events : List WorkerEvent) : Looked (events ++ after) :=
  h.imp (fun hmem => List.mem_append_right events hmem) fun ⟨now, db, rows, hmem⟩ =>
    ⟨now, db, rows, List.mem_append_right events hmem⟩

theorem Since.append (h : Since history after before) (events : List WorkerEvent)
    (hevents : .called .loop ∉ events) : Since (events ++ history) (events ++ after) before where
  eq := by rw [h.eq, List.append_assoc]
  latest := fun hmem => (List.mem_append.mp hmem).elim hevents h.latest

theorem Quiet.append (hevents : Quiet events) (h : Quiet after) : Quiet (events ++ after) :=
  fun upload hmem => (List.mem_append.mp hmem).elim (hevents upload) (h upload)

/-- What is not deleted is kept. -/
theorem Keeps.append {i : UUID} (h : Keeps i history) (hevents : .deleted i ∉ events) :
    Keeps i (events ++ history) := by
  induction events with
  | nil => exact h
  | cons e events ih =>
    have hrest := ih fun hmem => hevents (List.mem_cons_of_mem e hmem)
    cases e with
    | stored j => exact .inr hrest
    | deleted j =>
      refine ⟨?_, hrest⟩
      rintro rfl
      exact hevents List.mem_cons_self
    | _ => exact hrest

theorem ListingsSee.of_eq {task : WorkerTask} {now : Timestamp} {db : Db}
    {rows : List ImageRecord} (h : ListingsSee history)
    (heq : history = newer ++ .listed task now db rows :: older) {i : UUID} (hi : Keeps i older) :
    Sees now db rows i := by
  subst heq
  induction newer with
  | nil => exact h.1 i hi
  | cons e newer ih =>
    cases e with
    | listed _ _ _ _ => exact ih h.2
    | _ => exact ih h

theorem UploadsStored.of_eq {i : UUID} (h : UploadsStored history)
    (heq : history = newer ++ .triggered (some i) :: older) : .stored i ∈ older := by
  subst heq
  induction newer with
  | nil => exact h.1
  | cons e newer ih =>
    cases e with
    | triggered upload =>
      cases upload with
      | none => exact ih h
      | some j => exact ih h.2
    | _ => exact ih h

end WorkerEvent

section Worker

variable [CaseFolding]

/-! ## Images stay

An image that is stored stays until it is deleted. So what was stored
before a listing is in the table when the queue is listed. -/

namespace World

/-- An image is there. -/
def HasImage (i : UUID) (w : World) : Prop := w.db.images.get? i ≠ none

variable {settings : Settings} {w w' : World} {op : Op} {c : Choice} {r : Except Exn op.Ret}
  {i : UUID}

omit [CaseFolding] in
theorem HasImage.writesImage {imageId : UUID} {f : ImageRecord → ImageRecord} (hi : w.HasImage i)
    (h : WritesImage w.db imageId f w'.db) : w'.HasImage i := by
  unfold HasImage at hi ⊢
  rw [h.get]
  split
  · next heq =>
    subst heq
    exact mt Option.map_eq_none_iff.mp hi
  · exact hi

theorem HasImage.write {imageId : UUID} {f : ImageRecord → ImageRecord}
    {result : Except DbError Db} {r : Except Exn Unit} (hi : w.HasImage i)
    (hperform : (w.started c).write result = (w', r))
    (h : result = .ok w'.db → WritesImage w.db imageId f w'.db) : w'.HasImage i := by
  obtain ⟨hok, -⟩ | ⟨rfl, -⟩ := write_eq hperform
  · exact hi.writesImage (h hok)
  · exact hi

/-- **Images stay** until they are deleted: no operation but the one that
deletes takes a row of an image away. -/
theorem HasImage.exec (hi : w.HasImage i) (h : w.exec settings op c = some (w', r)) :
    w'.HasImage i ∨ (op = .deleteImage i ∧ r.isOk = true) := by
  -- most operations leave the status of every image, and so the image
  by_cases hstage : op.IsStage
  · obtain ⟨-, ⟨rfl, -⟩ | ⟨-, hperform⟩⟩ := exec_eq h
    · exact .inl hi
    · cases op
      case storeImage new =>
        obtain ⟨row, hok, -⟩ | ⟨rfl, -⟩ := writeRow_eq hperform
        · refine .inl ?_
          obtain ⟨-, -, -, hget, -⟩ := Db.storeImage_spec hok
          unfold HasImage
          rw [hget]
          split
          · exact Option.some_ne_none row
          · exact hi
        · exact .inl hi
      case deleteImage imageId =>
        obtain ⟨hworld, rfl⟩ := Prod.mk.inj hperform
        have hdb : w.db.deleteImage imageId = w'.db := congrArg World.db hworld
        by_cases heq : i = imageId
        · exact .inr ⟨heq ▸ rfl, rfl⟩
        · refine .inl ?_
          unfold HasImage
          rw [← hdb, (w.db.deleteImage_spec imageId).1 i, if_neg heq]
          exact hi
      case claimForAnalysis imageId =>
        obtain ⟨row, hok, -⟩ | ⟨rfl, -⟩ := writeRow?_eq hperform
        · obtain ⟨old, -, -, -, hwrites⟩ := Db.claimForAnalysis_spec (Except.ok.inj hok)
          exact .inl (hi.writesImage hwrites)
        · exact .inl hi
      case markAnalyzed => exact .inl (hi.write hperform fun hok => (Db.markAnalyzed_spec hok).2)
      case markFailed => exact .inl (hi.write hperform Db.markFailed_spec)
      case markTerminal => exact .inl (hi.write hperform fun hok => (Db.markTerminal_spec hok).2)
      all_goals exact hstage.elim
  · have hsame := congrArg (Option.map Prod.fst) (exec_sameStages h hstage i)
    rw [Option.map_map, Option.map_map] at hsame
    have hstatus : w'.statusOf i = w.statusOf i := hsame
    refine .inl (mt (statusOf_eq_none_iff w' i).mpr ?_)
    rw [hstatus]
    exact mt (statusOf_eq_none_iff w i).mp hi

/-- A stored image is there. -/
theorem hasImage_stored {new : NewImage} {row : ImageRecord}
    (h : w.exec settings (.storeImage new) c = some (w', .ok row)) : w'.HasImage row.id := by
  obtain ⟨-, ⟨-, e, he⟩ | ⟨-, hperform⟩⟩ := exec_eq h
  · exact absurd he (by simp)
  · obtain ⟨stored, hok, -, hr⟩ | ⟨-, e, he⟩ := writeRow_eq hperform
    · obtain rfl := Except.ok.inj hr
      obtain ⟨hid, -, -, hget, -⟩ := Db.storeImage_spec hok
      unfold HasImage
      rw [hget, if_pos hid]
      exact Option.some_ne_none row
    · exact absurd he (by simp)

end World

/-! ## Calls of `process_pending`

The loop and the requests call the same function, and a lock lets one of
them in at a time. A call goes through phases, from waiting for the lock
to its end. -/

/-- How far a call of `process_pending` is: waiting for the lock, running
with what is left of its program, or over. -/
inductive CycleCall
  /-- It waits for the lock. -/
  | waiting
  | running (rest : Handler (List Handler.PendingImageResult))
  | finished

/-- Whether a call has the lock. -/
def CycleCall.isRunning : CycleCall → Bool
  | running _ => true
  | _ => false

/-- Where `_run_forever` is: not started, waiting for the flag or the
interval, or in a call. -/
inductive WorkerLoop
  /-- It has not been started. -/
  | stopped
  /-- It waits for the flag, or for the interval to be over. -/
  | waiting
  | processing (call : CycleCall)

/-- The call of the loop. -/
def WorkerLoop.call? : WorkerLoop → Option CycleCall
  | processing call => some call
  | _ => none

/-- `AnalysisScheduler`, with everything that happens beside it. The
history is not part of the program; it is what the statements are
about. -/
structure Worker where
  world : World
  /-- `_wake`. -/
  wake : Bool
  loop : WorkerLoop
  /-- The calls that requests have made. -/
  requests : List CycleCall
  /-- The images of several photos that were stored, but not triggered
  yet. -/
  uploads : List UUID
  /-- What has happened, the latest first. -/
  history : List WorkerEvent

/-- What an operation is noted as. Most operations are not noted at all,
as they say nothing about the queue. -/
def WorkerEvent.ofOp (task : WorkerTask) (w : World) (now : Timestamp) :
    (op : Op) → Except Exn op.Ret → List WorkerEvent
  | .storeImage _, .ok row => [.stored (ImageRecord.id row)]
  | .deleteImage imageId, .ok _ => [.deleted imageId]
  | .getAvailableModels, .ok [] => [.unavailable task]
  | .getAvailableModels, .error _ => [.unavailable task]
  | .listPendingImages, .ok rows => [.listed task now w.db rows]
  | .listPendingImages, .error _ => [.unavailable task]
  | _, _ => []

/-- The image that an upload of several photos triggers the worker for. -/
def Op.uploaded : (op : Op) → Except Exn op.Ret → List UUID
  | .storeImage new, .ok row => if new.additionalImages = [] then [] else [ImageRecord.id row]
  | _, _ => []

/-- What can happen. Any sequence of these is a run, so that an image may
be announced or deleted at any moment. -/
inductive WorkerAction
  | start
  | trigger
  | resume
  | timeout
  | request
  | acquire (task : WorkerTask) (ready : Bool)
  | advance (task : WorkerTask) (c : Choice)
  | finish (task : WorkerTask)
  | other (op : Op) (c : Choice)
  | announce (index : ℕ)

namespace Worker

/-- Before `start`. The loop does not run yet, and nothing has been
announced to it. -/
def initial (w : World) : Worker where
  world := w
  wake := false
  loop := .stopped
  requests := []
  uploads := []
  history := []

/-- `start`. -/
def start (s : Worker) : Worker :=
  match s.loop with
  | .stopped => { s with wake := true, loop := .waiting }
  | _ => s

/-- `trigger`. The flag is set whoever is doing what, and stays set until
the loop clears it. -/
def trigger (s : Worker) (upload : Option UUID) : Worker :=
  { s with wake := true, history := .triggered upload :: s.history }

/-- `_run_forever`, from the end of the wait to the lock. Clearing the
flag and making the call are one step, since there is no `await` between
them. -/
def proceed (s : Worker) : Worker :=
  { s with
    wake := false
    loop := .processing .waiting
    history := .called .loop :: s.history }

/-- The wait ends because the flag is set. -/
def resume (s : Worker) : Option Worker :=
  match s.loop with
  | .waiting => if s.wake then some s.proceed else none
  | _ => none

/-- The wait ends because the interval is over. -/
def timeout (s : Worker) : Option Worker :=
  match s.loop with
  | .waiting => some s.proceed
  | _ => none

/-- A request calls `process_pending`. -/
def request (s : Worker) : Worker :=
  { s with
    requests := s.requests ++ [.waiting]
    history := .called (.request s.requests.length) :: s.history }

/-- The call of a task. -/
def callOf (s : Worker) : WorkerTask → Option CycleCall
  | .loop => s.loop.call?
  | .request n => s.requests[n]?
  | .other => none

/-- The call of a task goes on. -/
def setCall (s : Worker) (task : WorkerTask) (call : CycleCall) : Worker :=
  match task with
  | .loop => { s with loop := .processing call }
  | .request n => { s with requests := s.requests.set n call }
  | .other => s

/-- `_lock` is taken. -/
def locked (s : Worker) : Bool :=
  s.loop.call?.any CycleCall.isRunning || s.requests.any CycleCall.isRunning

/-- `process_pending`, once it has the lock. A provider that is not ready
ends the call without a look at the queue. -/
def acquire (settings : Settings) (s : Worker) (task : WorkerTask) (ready : Bool) :
    Option Worker :=
  match s.callOf task with
  | some .waiting =>
    if s.locked then none
    else if ready then some (s.setCall task (.running (Handler.processPending settings)))
    else some
      ({ s with history := .unavailable task :: s.history }.setCall task (.running (pure [])))
  | _ => none

/-- A task performs an operation. -/
def perform (settings : Settings) (s : Worker) (task : WorkerTask) (op : Op) (c : Choice) :
    Option (Worker × Except Exn op.Ret) :=
  (s.world.exec settings op c).map fun (w, r) =>
    ({ s with world := w, history := WorkerEvent.ofOp task s.world c.now op r ++ s.history }, r)

/-- `_process_pending_unlocked`, up to the next `await`. -/
def advance (settings : Settings) (s : Worker) (task : WorkerTask) (c : Choice) : Option Worker :=
  match s.callOf task with
  | some (.running (.call op k)) =>
    (s.perform settings task op c).map fun (s', r) => s'.setCall task (.running (k r))
  | _ => none

/-- The lock is released; the loop waits again, whatever was raised. -/
def ended (s : Worker) (task : WorkerTask) : Worker :=
  match task with
  | .loop => { s with loop := .waiting }
  | task => s.setCall task .finished

/-- A call of `process_pending` is over. -/
def finish (s : Worker) (task : WorkerTask) : Option Worker :=
  match s.callOf task with
  | some (.running (.done _)) => some (s.ended task)
  | some (.running (.raise _)) => some (s.ended task)
  | _ => none

/-- What anyone else does; an upload of several photos is to be
announced. -/
def other (settings : Settings) (s : Worker) (op : Op) (c : Choice) : Option Worker :=
  (s.perform settings .other op c).map fun (s', r) =>
    { s' with uploads := s'.uploads ++ op.uploaded r }

/-- `upload_image` triggers the worker for an image that it has stored. -/
def announce (s : Worker) (index : ℕ) : Option Worker :=
  s.uploads[index]?.map fun imageId =>
    { s with uploads := s.uploads.eraseIdx index }.trigger (some imageId)

/-- One step, from one `await` to the next. What stands between two of
them runs without an interruption, since there is one thread. -/
def step (settings : Settings) (s : Worker) : WorkerAction → Option Worker
  | .start => some s.start
  | .trigger => some (s.trigger none)
  | .resume => s.resume
  | .timeout => s.timeout
  | .request => some s.request
  | .acquire task ready => s.acquire settings task ready
  | .advance task c => s.advance settings task c
  | .finish task => s.finish task
  | .other op c => s.other settings op c
  | .announce index => s.announce index

end Worker

/-! ## What an operation adds to the past

Events are noted by the operations themselves. Of most it has to be known
only that they add nothing that matters. -/

namespace WorkerEvent

variable {history : List WorkerEvent} {task : WorkerTask} {w w' : World} {settings : Settings}
  {op : Op} {c : Choice} {r : Except Exn op.Ret} {now : Timestamp}

theorem called_not_mem_ofOp {task' : WorkerTask} : .called task' ∉ ofOp task w now op r := by
  unfold ofOp
  split <;> simp

theorem quiet_ofOp : Quiet (ofOp task w now op r) := by
  intro upload
  unfold ofOp
  split <;> simp

theorem uploadsStored_ofOp (h : UploadsStored history) :
    UploadsStored (ofOp task w now op r ++ history) := by
  unfold ofOp
  split <;> exact h

/-- **What is kept is there**, after an operation too. -/
theorem hasImage_ofOp (h : w.exec settings op c = some (w', r))
    (hkeeps : ∀ i, Keeps i history → w.HasImage i) (i : UUID)
    (hi : Keeps i (ofOp task w now op r ++ history)) : w'.HasImage i := by
  have hold : Keeps i history → (op = .deleteImage i → r.isOk = true → False) →
      w'.HasImage i := fun hi hdelete =>
    ((hkeeps i hi).exec h).elim id fun ⟨hop, hr⟩ => (hdelete hop hr).elim
  unfold ofOp at hi
  split at hi
  · obtain rfl | hi := hi
    · exact World.hasImage_stored h
    · exact hold hi fun hop => absurd hop (by simp)
  · obtain ⟨hne, hi⟩ := hi
    exact hold hi fun hop => absurd (Op.deleteImage.inj hop) hne
  · exact hold hi fun hop => absurd hop (by simp)
  · exact hold hi fun hop => absurd hop (by simp)
  · exact hold hi fun hop => absurd hop (by simp)
  · exact hold hi fun hop => absurd hop (by simp)
  · next hdelete _ _ _ _ =>
    refine hold hi fun hop hr => ?_
    subst hop
    cases r with
    | ok a => exact hdelete i a rfl HEq.rfl
    | error e => exact absurd hr (by simp [Except.isOk, Except.toBool])

/-- **A listing sees what is there.** It is one statement, so what was
stored before it is among its rows if it may be claimed. -/
theorem listingsSee_ofOp (h : w.exec settings op c = some (w', r))
    (hkeeps : ∀ i, Keeps i history → w.HasImage i) (hsee : ListingsSee history) :
    ListingsSee (ofOp task w c.now op r ++ history) := by
  unfold ofOp
  split
  · exact hsee
  · exact hsee
  · exact hsee
  · exact hsee
  · next rows =>
    refine ⟨fun i hi => ?_, hsee⟩
    obtain ⟨image, himage⟩ := Option.ne_none_iff_exists'.mp (hkeeps i hi)
    obtain ⟨-, ⟨-, e, he⟩ | ⟨-, hperform⟩⟩ := World.exec_eq h
    · exact absurd he (by simp)
    · refine ⟨image, himage, fun hclaimable => ?_⟩
      have hrows : w.db.listPendingImages c.now = rows :=
        Except.ok.inj (Prod.mk.inj hperform).2
      rw [← hrows, Db.mem_listPendingImages]
      exact ⟨(Table.get?_eq_some_iff.mp himage).1, hclaimable⟩
  · exact hsee
  · exact hsee

/-- What an upload is to announce was stored. -/
theorem stored_mem_ofOp {i : UUID} (hi : i ∈ op.uploaded r) : .stored i ∈ ofOp task w now op r := by
  unfold Op.uploaded at hi
  split at hi
  · split at hi
    · exact absurd hi List.not_mem_nil
    · obtain rfl := List.mem_singleton.mp hi
      exact List.mem_singleton_self _
  · exact absurd hi List.not_mem_nil

end WorkerEvent

/-! ## A cycle looks at the queue

A call that ends has listed the queue, unless something that it needs was
not available. Until it ends it has done so, or is about to. -/

namespace Handler

/-- What is left of a cycle once the models are known. -/
def listQueue (settings : Settings) (first : String) (models : List String) :
    Handler (List PendingImageResult) := do
  let pending : List ImageRecord ← perform .listPendingImages
  processImages (first :: models) (selectModel settings first models) pending

/-- What is left of a cycle once the provider has answered. -/
def queueOf (settings : Settings) : Except Exn (List String) → Handler (List PendingImageResult)
  | .ok (first :: models) => listQueue settings first models
  | _ => pure []

theorem processPending_eq (settings : Settings) :
    processPending settings = .call .getAvailableModels (queueOf settings) := by
  refine congrArg (Program.call Op.getAvailableModels) (funext fun models => ?_)
  cases models with
  | error e => rfl
  | ok models => cases models <;> rfl

end Handler

open WorkerEvent

/-- A call has looked at the queue, or is about to. What is about to be
called is read off the rest of its program. -/
def CycleCall.Looks (settings : Settings) (after : List WorkerEvent) : CycleCall → Prop
  | .waiting => True
  | .running rest => Looked after ∨ rest = Handler.processPending settings
    ∨ ∃ first models, rest = Handler.listQueue settings first models
  | .finished => Looked after

theorem CycleCall.Looks.append {settings : Settings} {after : List WorkerEvent} {call : CycleCall}
    (h : call.Looks settings after) (events : List WorkerEvent) :
    call.Looks settings (events ++ after) := by
  cases call with
  | waiting => trivial
  | running rest => exact h.imp_left fun hlooked => hlooked.append events
  | finished => exact Looked.append h events

/-- **A cycle goes on**: its next operation is to ask for the models, to
list the queue, or it comes after that. -/
theorem CycleCall.Looks.advance {settings : Settings} {after : List WorkerEvent} {op : Op}
    {k : Except Exn op.Ret → Handler (List Handler.PendingImageResult)}
    (h : (CycleCall.running (.call op k)).Looks settings after) (w : World) (now : Timestamp)
    (r : Except Exn op.Ret) :
    (CycleCall.running (k r)).Looks settings (ofOp .loop w now op r ++ after) := by
  obtain hlooked | hstart | ⟨first, models, hlist⟩ := h
  · exact .inl (hlooked.append _)
  · rw [Handler.processPending_eq] at hstart
    obtain ⟨rfl, hk⟩ := Program.call.inj hstart
    obtain rfl := eq_of_heq hk
    cases r with
    | error e => exact .inl (.inl List.mem_cons_self)
    | ok models =>
      cases models with
      | nil => exact .inl (.inl List.mem_cons_self)
      | cons first models => exact .inr (.inr ⟨first, models, rfl⟩)
  · obtain ⟨rfl, -⟩ := Program.call.inj hlist
    cases r with
    | error e => exact .inl (.inl List.mem_cons_self)
    | ok rows => exact .inl (.inr ⟨now, w.db, rows, List.mem_cons_self⟩)

/-- Where the loop is, and what has happened since its latest call. While
the flag is clear, nothing was triggered since. -/
def WorkerLoop.Inv (settings : Settings) (wake : Bool) (history : List WorkerEvent) :
    WorkerLoop → Prop
  | .stopped => True
  | .waiting => wake = false →
    ∃ after before, Since history after before ∧ Quiet after ∧ Looked after
  | .processing call => ∃ after before, Since history after before ∧ (wake = false → Quiet after)
    ∧ call.Looks settings after

theorem WorkerLoop.Inv.append {settings : Settings} {wake : Bool} {history : List WorkerEvent}
    {loop : WorkerLoop} (h : loop.Inv settings wake history) (events : List WorkerEvent)
    (hcalled : .called .loop ∉ events) (hquiet : wake = false → Quiet events) :
    loop.Inv settings wake (events ++ history) := by
  cases loop with
  | stopped => trivial
  | waiting =>
    intro hwake
    obtain ⟨after, before, hsince, hafter, hlooked⟩ := h hwake
    exact ⟨_, before, hsince.append events hcalled, (hquiet hwake).append hafter,
      hlooked.append events⟩
  | processing call =>
    obtain ⟨after, before, hsince, hafter, hlooks⟩ := h
    exact ⟨_, before, hsince.append events hcalled,
      fun hwake => (hquiet hwake).append (hafter hwake), hlooks.append events⟩

/-- The flag is set. -/
theorem WorkerLoop.Inv.wake {settings : Settings} {wake : Bool} {history : List WorkerEvent}
    {loop : WorkerLoop} (h : loop.Inv settings wake history) : loop.Inv settings true history := by
  cases loop with
  | stopped => trivial
  | waiting => exact fun hfalse => absurd hfalse (by simp)
  | processing call =>
    obtain ⟨after, before, hsince, -, hlooks⟩ := h
    exact ⟨after, before, hsince, fun hfalse => absurd hfalse (by simp), hlooks⟩

namespace Worker

/-- What is so of the worker, however the tasks take turns. The first four
parts are about the past, the last one about the loop and its flag. -/
structure Inv (settings : Settings) (s : Worker) : Prop where
  images : ∀ i, Keeps i s.history → s.world.HasImage i
  listings : ListingsSee s.history
  uploads : ∀ i ∈ s.uploads, .stored i ∈ s.history
  announced : UploadsStored s.history
  loop : s.loop.Inv settings s.wake s.history

variable {settings : Settings} {s s' : Worker}

theorem inv_trigger (h : s.Inv settings) {upload : Option UUID}
    (hupload : ∀ i ∈ upload, .stored i ∈ s.history) : (s.trigger upload).Inv settings where
  images := h.images
  listings := h.listings
  uploads := fun i hi => List.mem_cons_of_mem _ (h.uploads i hi)
  announced := by
    cases upload with
    | none => exact h.announced
    | some i => exact ⟨hupload i rfl, h.announced⟩
  loop := h.loop.wake.append [.triggered upload] (by simp) fun hfalse =>
    absurd hfalse (by simp)

/-- **The flag is cleared with a call.** So nothing was triggered since
the call, at the moment of the call, and a later trigger sets the flag
again. -/
theorem inv_proceed (h : s.Inv settings) : s.proceed.Inv settings where
  images := h.images
  listings := h.listings
  uploads := fun i hi => List.mem_cons_of_mem _ (h.uploads i hi)
  announced := h.announced
  loop := ⟨[], s.history, ⟨rfl, List.not_mem_nil⟩, fun _ _ => List.not_mem_nil, trivial⟩

theorem inv_resume (h : s.Inv settings) (hstep : s.resume = some s') : s'.Inv settings := by
  unfold resume at hstep
  split at hstep
  · obtain ⟨-, hsome⟩ := Option.ite_none_right_eq_some.mp hstep
    exact Option.some.inj hsome ▸ inv_proceed h
  · exact absurd hstep (by simp)

theorem inv_timeout (h : s.Inv settings) (hstep : s.timeout = some s') : s'.Inv settings := by
  unfold timeout at hstep
  split at hstep
  · exact Option.some.inj hstep ▸ inv_proceed h
  · exact absurd hstep (by simp)

theorem inv_start (h : s.Inv settings) : s.start.Inv settings := by
  unfold start
  split
  · exact { h with loop := fun hfalse => absurd hfalse (by simp) }
  · exact h

/-- An event that concerns neither images nor uploads, nor the loop. -/
theorem inv_log (h : s.Inv settings) {e : WorkerEvent} {requests : List CycleCall}
    (hkeeps : ∀ i, Keeps i (e :: s.history) → Keeps i s.history)
    (hlistings : ListingsSee s.history → ListingsSee (e :: s.history))
    (huploads : UploadsStored s.history → UploadsStored (e :: s.history))
    (hcalled : e ≠ .called .loop) (hquiet : ∀ upload, e ≠ .triggered upload) :
    Inv settings { s with requests := requests, history := e :: s.history } where
  images := fun i hi => h.images i (hkeeps i hi)
  listings := hlistings h.listings
  uploads := fun i hi => List.mem_cons_of_mem _ (h.uploads i hi)
  announced := huploads h.announced
  loop := h.loop.append [e] (fun hmem => hcalled (List.mem_singleton.mp hmem).symm)
    fun _ upload hmem => hquiet upload (List.mem_singleton.mp hmem).symm

theorem inv_request (h : s.Inv settings) : s.request.Inv settings :=
  inv_log h (fun _ => id) id id (by simp) fun _ => by simp

/-- A task goes on with its call. -/
theorem inv_setCall (h : s.Inv settings) {task : WorkerTask} {call : CycleCall}
    (hcall : task = .loop → WorkerLoop.Inv settings s.wake s.history (.processing call)) :
    (s.setCall task call).Inv settings := by
  cases task with
  | loop => exact { h with loop := hcall rfl }
  | request n => exact { h with }
  | other => exact h

/-- What is known of the call of the loop. -/
theorem looks_of_callOf (h : s.Inv settings) {call : CycleCall}
    (hcall : s.callOf .loop = some call) :
    WorkerLoop.Inv settings s.wake s.history (.processing call) := by
  have hloop := h.loop
  change s.loop.call? = some call at hcall
  cases hat : s.loop with
  | processing call' =>
    rw [hat] at hcall hloop
    obtain rfl := Option.some.inj hcall
    exact hloop
  | _ =>
    rw [hat] at hcall
    exact absurd hcall (by simp [WorkerLoop.call?])

theorem inv_acquire (h : s.Inv settings) {task : WorkerTask} {ready : Bool}
    (hstep : s.acquire settings task ready = some s') : s'.Inv settings := by
  unfold acquire at hstep
  split at hstep
  · next hcall =>
    split at hstep
    · exact absurd hstep (by simp)
    · split at hstep
      · obtain rfl := Option.some.inj hstep
        refine inv_setCall h fun htask => ?_
        subst htask
        obtain ⟨after, before, hsince, hquiet, -⟩ := looks_of_callOf h hcall
        exact ⟨after, before, hsince, hquiet, .inr (.inl rfl)⟩
      · obtain rfl := Option.some.inj hstep
        have hlogged : Inv settings { s with history := .unavailable task :: s.history } :=
          inv_log h (fun _ => id) id id (by simp) fun _ => by simp
        refine inv_setCall hlogged fun htask => ?_
        subst htask
        obtain ⟨after, before, hsince, hquiet, -⟩ := looks_of_callOf h hcall
        have hnone : Quiet [.unavailable .loop] := fun _ => by simp
        exact ⟨_, before, hsince.append [.unavailable .loop] (by simp),
          fun hwake => hnone.append (hquiet hwake), .inl (.inl List.mem_cons_self)⟩
  · exact absurd hstep (by simp)

/-- **An operation** of whatever task. -/
theorem inv_perform (h : s.Inv settings) {task : WorkerTask} {op : Op} {c : Choice}
    {r : Except Exn op.Ret} (hstep : s.perform settings task op c = some (s', r)) :
    s'.Inv settings ∧ s'.loop = s.loop ∧ s'.requests = s.requests ∧ s'.uploads = s.uploads
      ∧ s'.wake = s.wake ∧ s'.history = ofOp task s.world c.now op r ++ s.history := by
  obtain ⟨⟨w', r'⟩, hexec, heq⟩ := Option.map_eq_some_iff.mp hstep
  obtain ⟨rfl, rfl⟩ := Prod.mk.inj heq
  refine ⟨⟨?_, ?_, ?_, ?_, ?_⟩, rfl, rfl, rfl, rfl, rfl⟩
  · exact hasImage_ofOp hexec h.images
  · exact listingsSee_ofOp hexec h.images h.listings
  · exact fun i hi => List.mem_append_right _ (h.uploads i hi)
  · exact uploadsStored_ofOp h.announced
  · exact h.loop.append _ called_not_mem_ofOp fun _ => quiet_ofOp

theorem inv_advance (h : s.Inv settings) {task : WorkerTask} {c : Choice}
    (hstep : s.advance settings task c = some s') : s'.Inv settings := by
  unfold advance at hstep
  split at hstep
  · next op k hcall =>
    obtain ⟨⟨s₁, r⟩, hperform, rfl⟩ := Option.map_eq_some_iff.mp hstep
    obtain ⟨hinv, hloop, -, -, hwake, hhistory⟩ := inv_perform h hperform
    refine inv_setCall hinv fun htask => ?_
    subst htask
    obtain ⟨after, before, hsince, hquiet, hlooks⟩ := looks_of_callOf h hcall
    rw [hwake, hhistory]
    exact ⟨_, before, hsince.append _ called_not_mem_ofOp,
      fun hwake => quiet_ofOp.append (hquiet hwake), hlooks.advance s.world c.now r⟩
  · exact absurd hstep (by simp)

/-- A call that has ended has looked at the queue. This matters for the
call of the loop only, as the invariant does not speak of what a request
has seen. -/
theorem inv_ended (h : s.Inv settings) {task : WorkerTask}
    {rest : Handler (List Handler.PendingImageResult)}
    (hcall : s.callOf task = some (.running rest)) (hrest : ∀ op k, rest ≠ .call op k) :
    (s.ended task).Inv settings := by
  cases task with
  | loop =>
    obtain ⟨after, before, hsince, hquiet, hlooks⟩ := looks_of_callOf h hcall
    refine { h with loop := fun hwake => ⟨after, before, hsince, hquiet hwake, ?_⟩ }
    obtain hlooked | hstart | ⟨first, models, hlist⟩ := hlooks
    · exact hlooked
    · exact absurd (hstart.trans (Handler.processPending_eq settings)) (hrest _ _)
    · exact absurd hlist (hrest _ _)
  | request n => exact { h with }
  | other => exact h

theorem inv_finish (h : s.Inv settings) {task : WorkerTask} (hstep : s.finish task = some s') :
    s'.Inv settings := by
  unfold finish at hstep
  split at hstep
  · next hcall =>
    exact Option.some.inj hstep ▸ inv_ended h hcall fun _ _ => by simp
  · next hcall =>
    exact Option.some.inj hstep ▸ inv_ended h hcall fun _ _ => by simp
  · exact absurd hstep (by simp)

theorem inv_other (h : s.Inv settings) {op : Op} {c : Choice}
    (hstep : s.other settings op c = some s') : s'.Inv settings := by
  obtain ⟨⟨s₁, r⟩, hperform, rfl⟩ := Option.map_eq_some_iff.mp hstep
  obtain ⟨hinv, -, -, -, -, hhistory⟩ := inv_perform h hperform
  refine { hinv with uploads := fun i hi => ?_ }
  rcases List.mem_append.mp hi with hi | hi
  · exact hinv.uploads i hi
  · show .stored i ∈ s₁.history
    rw [hhistory]
    exact List.mem_append_left _ (stored_mem_ofOp hi)

/-- **Every step keeps the invariant.** There is one lemma for each kind
of action, and the operations of all tasks share one. -/
theorem inv_step (h : s.Inv settings) {a : WorkerAction} (hstep : s.step settings a = some s') :
    s'.Inv settings := by
  cases a with
  | start => exact Option.some.inj hstep ▸ inv_start h
  | trigger => exact Option.some.inj hstep ▸ inv_trigger h fun i hi => absurd hi (by simp)
  | resume => exact inv_resume h hstep
  | timeout => exact inv_timeout h hstep
  | request => exact Option.some.inj hstep ▸ inv_request h
  | acquire task ready => exact inv_acquire h hstep
  | advance task c => exact inv_advance h hstep
  | finish task => exact inv_finish h hstep
  | other op c => exact inv_other h hstep
  | announce index =>
    obtain ⟨imageId, himage, rfl⟩ := Option.map_eq_some_iff.mp hstep
    have hrest : Inv settings { s with uploads := s.uploads.eraseIdx index } :=
      { h with uploads := fun i hi => h.uploads i (List.mem_of_mem_eraseIdx hi) }
    refine inv_trigger hrest fun i hi => ?_
    rw [← Option.mem_some.mp hi]
    exact h.uploads imageId (List.mem_of_getElem? himage)

theorem inv_initial (settings : Settings) (w : World) : (initial w).Inv settings where
  images := fun _ hi => hi.elim
  listings := trivial
  uploads := fun _ hi => absurd hi List.not_mem_nil
  announced := trivial
  loop := trivial

/-- Everything that was triggered was so before the latest call of the
loop, and since then the loop could not look at the queue, or it did, and
saw every image that had been stored before the call and was not
deleted. -/
def CaughtUp (history : List WorkerEvent) : Prop :=
  ∃ after before, Since history after before ∧ Quiet after
    ∧ (.unavailable .loop ∈ after ∨ ∃ now db rows, .listed .loop now db rows ∈ after
      ∧ ∀ i, Keeps i before → .deleted i ∉ after → Sees now db rows i)

theorem Inv.caughtUp (h : s.Inv settings) (hloop : s.loop = .waiting) (hwake : s.wake = false) :
    CaughtUp s.history := by
  have hinv := h.loop
  rw [hloop] at hinv
  obtain ⟨after, before, hsince, hquiet, hunavailable | ⟨now, db, rows, hlisted⟩⟩ := hinv hwake
  · exact ⟨after, before, hsince, hquiet, .inl hunavailable⟩
  · refine ⟨after, before, hsince, hquiet, .inr ⟨now, db, rows, hlisted, fun i hi hdeleted => ?_⟩⟩
    obtain ⟨newer, older, rfl⟩ := List.append_of_mem hlisted
    have heq : s.history
        = newer ++ .listed .loop now db rows :: (older ++ .called .loop :: before) := by
      rw [hsince.eq, List.append_assoc, List.cons_append]
    have hkept : Keeps i (older ++ .called .loop :: before) := Keeps.append hi fun hmem =>
      hdeleted (List.mem_append_right _ (List.mem_cons_of_mem _ hmem))
    exact h.listings.of_eq heq hkept

/-- **No lost wake-up**: however triggers, time-outs, requests and the
loop take turns, when the loop waits and the flag is clear, everything
that was triggered was so before its latest call, which has looked at the
queue unless it could not. Every listing of anyone sees each image that
was stored before it and not deleted, and an upload triggers the worker
after its image was stored. -/
theorem no_lost_wakeup {w : World} (run : Transition.Reachable (step settings) (initial w) s) :
    (s.loop = .waiting → s.wake = false → CaughtUp s.history)
      ∧ (∀ newer task now db rows older,
        s.history = newer ++ .listed task now db rows :: older →
        ∀ i, Keeps i older → Sees now db rows i)
      ∧ ∀ newer i older, s.history = newer ++ .triggered (some i) :: older → .stored i ∈ older := by
  have hinv : s.Inv settings := run.invariant (inv_initial settings w) fun _ _ _ h _ hstep =>
    inv_step h hstep
  exact ⟨hinv.caughtUp, fun _ _ _ _ _ _ heq _ hi => hinv.listings.of_eq heq hi,
    fun _ _ _ heq => hinv.announced.of_eq heq⟩

end Worker

end Worker

section TriggeredMeanwhile

local instance asciiFoldingOfWorker : CaseFolding := asciiFolding

def WorkerLoop.isWaiting : WorkerLoop → Bool
  | waiting => true
  | _ => false

/-- The images of a listing. -/
def WorkerEvent.listed? : WorkerEvent → Option (List UUID)
  | listed _ _ _ rows => some (rows.map ImageRecord.id)
  | _ => none

/-- Two photos. -/
def twoParts : NewImage := { photo with additionalImages := [{ imagePath := "/data/tmp/b.png" }] }

/-- Two photos are uploaded while the worker is busy, after it has looked
at the queue. The next cycle sees them; its first claim fails. -/
def busySteps : List WorkerAction :=
  [.start, .resume, .acquire .loop true, .advance .loop (smoothly 1 []),
    .advance .loop (smoothly 2 []), .other (.storeImage twoParts) (smoothly 3 [1]), .announce 0,
    .finish .loop, .resume, .acquire .loop true, .advance .loop (smoothly 4 []),
    .advance .loop (smoothly 5 []),
    .advance .loop { smoothly 6 [] with failure := some (.db .failed) }, .finish .loop]

/-- **The trigger is not lost.** -/
theorem Worker.busy_caughtUp :
    ∃ s, Transition.Reachable (Worker.step plainSettings) (.initial (World.initial photoFiles 0)) s
      ∧ s.history.filterMap WorkerEvent.listed? = [[1], []] ∧ Worker.CaughtUp s.history := by
  obtain ⟨s, run, hwaiting, hwake, hlisted⟩ : ∃ s, Transition.Reachable
      (Worker.step plainSettings) (.initial (World.initial photoFiles 0)) s
      ∧ s.loop.isWaiting = true ∧ s.wake = false
      ∧ s.history.filterMap WorkerEvent.listed? = [[1], []] :=
    Transition.Run.of_exec busySteps (by decide +kernel)
  have hloop : s.loop = .waiting := by
    unfold WorkerLoop.isWaiting at hwaiting
    split at hwaiting
    · assumption
    · exact absurd hwaiting (by simp)
  exact ⟨s, run, hlisted, (Worker.no_lost_wakeup run).1 hloop hwake⟩

end TriggeredMeanwhile

end VisionBill
