import VisionBill.Fencing

/-!
# Deleting an image

`DELETE /images/{id}` reads the row of an image and looks at its status,
which must be one in which nobody works on the image. The row is deleted
in another statement, by its id alone, and so are the files after that. In
between, the worker or the upload may claim the image, as
`CLAIM_IMAGE_SQL` does with one statement that looks at the status and
writes it.

## What is promised

The promise is about the moment of removal: a step of the request that
removes the row, or a file, finds the image in one of the four statuses,
whatever it was when the request read it (`RemovesFree`). A row that is
gone by then counts as such, since there is nothing to be removed, and the
files are removed when the row is gone.

## When it is kept

The request is a thread among others, whose steps either leave an image
that may be deleted one or *take* it (`World.exec_not_takes`). If nobody
takes the image between the read and the `DELETE`, every step of the run
removes only what is free (`removesFree_of_leavesFree`). The condition
speaks of the steps of others, each in the state in which it is made. It
is not necessary: an image that has been claimed may time out and be free
again before it is deleted. But nothing in the request sees to that, and
an image that is taken and not let go is deleted while it is analysed
(`meanwhile_removed`).
-/

namespace VisionBill

section ImageDeletion

variable [CaseFolding]

/-! ## The status of an image

Operations are sorted by what they may do to the status of one image. Only
two kinds take it to a status in which it must not be deleted: a claim
that succeeds, and the end of an analysis. -/

namespace World

/-- The status of an image, if it is there. -/
def statusOf (w : World) (i : UUID) : Option ImageStatus :=
  (w.db.images.get? i).map ImageRecord.status

/-- Nobody works on the image, and it has no receipt. -/
def Free (i : UUID) (w : World) : Prop := ∀ status ∈ w.statusOf i, Handler.deletable status = true

end World

/-- An operation by which somebody works on an image from now on, or by
which it gets its receipt. -/
def Op.MayTake (i : UUID) (w : World) (now : Timestamp) : Op → Prop
  | .claimForAnalysis imageId => imageId = i ∧ ∃ image ∈ w.db.images.get? i, image.Claimable now
  | .markAnalyzed imageId receiptId => imageId = i
    ∧ w.db.images.get? i ≠ none ∧ w.db.receipts.get? receiptId ≠ none
  | _ => False

/-- The image is taken by an operation that does not fail. -/
def Op.Takes (i : UUID) (w : World) (c : Choice) (op : Op) : Prop :=
  c.failure = none ∧ op.MayTake i w c.now

/-- The same as a test. -/
def Op.mayTake (i : UUID) (w : World) (now : Timestamp) : Op → Bool
  | .claimForAnalysis imageId => imageId = i ∧ ∃ image ∈ w.db.images.get? i, image.Claimable now
  | .markAnalyzed imageId receiptId => imageId = i
    ∧ w.db.images.get? i ≠ none ∧ w.db.receipts.get? receiptId ≠ none
  | _ => false

theorem Op.mayTake_iff (i : UUID) (w : World) (now : Timestamp) (op : Op) :
    op.mayTake i w now = true ↔ op.MayTake i w now := by
  cases op <;> simp [Op.mayTake, Op.MayTake]

instance (i : UUID) (w : World) (now : Timestamp) (op : Op) : Decidable (op.MayTake i w now) :=
  decidable_of_iff _ (Op.mayTake_iff i w now op)

instance (i : UUID) (w : World) (c : Choice) (op : Op) : Decidable (op.Takes i w c) :=
  inferInstanceAs (Decidable (_ ∧ _))

/-- What any other operation may do to the status of an image. None of
these takes it to a status in which it may not be deleted: claiming and
finishing an analysis do, and are excluded by the condition. -/
inductive StatusStep (i : UUID) (w w' : World) : Prop
  | same (h : w'.statusOf i = w.statusOf i)
  | stored (hnew : i ∉ w.issued) (hissued : i ∈ w'.issued) (h : w'.statusOf i = some .pending)
  | stopped (status : ImageStatus) (hstatus : Handler.deletable status = true)
      (h : w'.statusOf i = (w.statusOf i).map fun _ => status)
  | deleted (h : w'.statusOf i = none)

variable {settings : Settings} {w w' : World} {op : Op} {c : Choice} {r : Except Exn op.Ret}
  {i : UUID}

namespace World

omit [CaseFolding] in
theorem statusOf_writesImage {imageId : UUID} {f : ImageRecord → ImageRecord}
    {status : ImageStatus} (h : WritesImage w.db imageId f w'.db)
    (hf : ∀ image, (f image).status = status) (i : UUID) :
    w'.statusOf i = if i = imageId then (w.statusOf i).map fun _ => status else w.statusOf i := by
  unfold statusOf
  rw [h.get]
  split
  · next heq =>
    rw [heq, Option.map_map, Option.map_map]
    exact Option.map_congr fun image _ => hf image
  · rfl

omit [CaseFolding] in
theorem statusOf_eq_none_iff (w : World) (i : UUID) :
    w.statusOf i = none ↔ w.db.images.get? i = none := Option.map_eq_none_iff

omit [CaseFolding] in
/-- The status that an image gets by a statement. -/
theorem statusOf_write {imageId : UUID} {f : ImageRecord → ImageRecord} {status : ImageStatus}
    (h : WritesImage w.db imageId f w'.db) (hf : ∀ image, (f image).status = status)
    (hstatus : w.statusOf imageId ≠ none) : w'.statusOf imageId = some status := by
  rw [statusOf_writesImage h hf, if_pos rfl]
  obtain ⟨old, hold⟩ := Option.ne_none_iff_exists'.mp hstatus
  rw [hold]
  rfl

omit [CaseFolding] in
theorem not_free {status : ImageStatus} (h : w.statusOf i = some status)
    (hstatus : Handler.deletable status = false) : ¬ w.Free i := fun hfree =>
  absurd ((hfree status h).symm.trans hstatus) (by simp)

/-- The analysis of an image is stopped. Every status in which it can be
stopped is one that may be deleted, and so the image is as free as
before. -/
theorem statusStep_stopped (imageId : UUID) (status : ImageStatus) (error : String)
    {result : Except DbError Db} {r : Except Exn Unit}
    (hperform : (w.started c).write result = (w', r))
    (h : result = .ok w'.db → Handler.deletable status = true
      ∧ WritesImage w.db imageId (Db.stopped status error) w'.db) : StatusStep i w w' := by
  obtain ⟨hok, -⟩ | ⟨rfl, -⟩ := write_eq hperform
  · obtain ⟨hdeletable, hwrites⟩ := h hok
    have hstatus : w'.statusOf i
        = if i = imageId then (w.statusOf i).map fun _ => status else w.statusOf i :=
      statusOf_writesImage hwrites (fun _ => rfl) i
    by_cases hi : i = imageId
    · exact .stopped status hdeletable (hstatus.trans (if_pos hi))
    · exact .same (hstatus.trans (if_neg hi))
  · exact .same rfl

/-- **What is not taken** is as before, new, stopped or deleted. -/
theorem exec_not_takes (h : w.exec settings op c = some (w', r)) (htakes : ¬ op.Takes i w c) :
    StatusStep i w w' := by
  -- most operations write no status at all
  by_cases hstage : op.IsStage
  · obtain ⟨hpossible, ⟨rfl, -⟩ | ⟨hfailure, hperform⟩⟩ := exec_eq h
    · exact .same rfl
    · cases op
      case storeImage new =>
        obtain ⟨hmem, hnew⟩ := hpossible.ids_fresh (n := 0) (Nat.zero_lt_succ 0)
        obtain ⟨row, hok, -⟩ | ⟨rfl, -⟩ := writeRow_eq hperform
        · obtain ⟨-, hstatus, -, hget, -⟩ := Db.storeImage_spec hok
          by_cases hi : i = c.ids 0
          · refine .stored (hi ▸ hnew) ?_ ?_
            · rw [(exec_started h).2]
              exact List.mem_append_left _ (hi ▸ hmem)
            · unfold statusOf
              rw [hget, if_pos hi]
              exact congrArg some hstatus
          · refine .same ?_
            unfold statusOf
            rw [hget, if_neg hi]
            rfl
        · exact .same rfl
      case deleteImage imageId =>
        have hdb : w.db.deleteImage imageId = w'.db := congrArg (fun p => p.1.db) hperform
        have hget := (w.db.deleteImage_spec imageId).1 i
        rw [hdb] at hget
        by_cases hi : i = imageId
        · refine .deleted ?_
          unfold statusOf
          rw [hget, if_pos hi, Option.map_none]
        · refine .same ?_
          unfold statusOf
          rw [hget, if_neg hi]
      case claimForAnalysis imageId =>
        obtain ⟨row, hok, -⟩ | ⟨rfl, -⟩ := writeRow?_eq hperform
        · obtain ⟨old, hold, hclaimable, -, hwrites⟩ := Db.claimForAnalysis_spec (Except.ok.inj hok)
          refine .same ((statusOf_writesImage hwrites (fun _ => rfl) i).trans (if_neg ?_))
          rintro rfl
          exact htakes ⟨hfailure, rfl, old, hold, hclaimable⟩
        · exact .same rfl
      case markAnalyzed imageId receiptId =>
        obtain ⟨hok, -⟩ | ⟨rfl, -⟩ := write_eq hperform
        · obtain ⟨hfk, hwrites⟩ := Db.markAnalyzed_spec hok
          have hstatus := statusOf_writesImage hwrites (fun _ => rfl) i
          by_cases hi : i = imageId
          · subst hi
            -- an image that is there would be taken; so it is gone, and nothing is written
            have hnone : w.db.images.get? i = none := by
              by_contra himage
              exact htakes ⟨hfailure, rfl, himage, hfk himage⟩
            refine .same (hstatus.trans ?_)
            have hno : (w.started c).statusOf i = none := (statusOf_eq_none_iff w i).mpr hnone
            rw [if_pos rfl, hno]
            exact (statusOf_eq_none_iff w i).mpr hnone |>.symm
          · exact .same (hstatus.trans (if_neg hi))
        · exact .same rfl
      case markFailed imageId error =>
        exact statusStep_stopped imageId .failed error hperform fun hok =>
          ⟨rfl, Db.markFailed_spec hok⟩
      case markTerminal imageId status error =>
        refine statusStep_stopped imageId status error hperform fun hok => ?_
        obtain ⟨rfl | rfl, hwrites⟩ := Db.markTerminal_spec hok
        · exact ⟨rfl, hwrites⟩
        · exact ⟨rfl, hwrites⟩
      all_goals exact hstage.elim
  · refine .same ?_
    have hsame := congrArg (Option.map Prod.fst) (exec_sameStages h hstage i)
    rwa [Option.map_map, Option.map_map] at hsame

/-- There must be an image for it to be taken. -/
theorem not_takes_of_eq_none (himage : w.db.images.get? i = none) : ¬ op.Takes i w c := by
  rintro ⟨-, hmay⟩
  cases op
  case claimForAnalysis imageId =>
    obtain ⟨-, image, hold, -⟩ := hmay
    exact absurd (himage.symm.trans hold) (by simp)
  case markAnalyzed imageId receiptId => exact hmay.2.1 himage
  all_goals exact hmay

/-- A free image stays free, as long as nobody takes it. One that is not
there any more is free as well. -/
theorem Free.exec (hfree : w.Free i) (h : w.exec settings op c = some (w', r))
    (htakes : ¬ op.Takes i w c) : w'.Free i := by
  intro status hstatus
  cases exec_not_takes h htakes with
  | same hsame => exact hfree status (hsame ▸ hstatus)
  | stored _ _ hpending =>
    obtain rfl := Option.some.inj (hstatus.symm.trans hpending)
    rfl
  | stopped stopped hdeletable hstopped =>
    obtain ⟨-, -, rfl⟩ := Option.map_eq_some_iff.mp (hstopped.symm.trans hstatus)
    exact hdeletable
  | deleted hnone => exact absurd (hstatus.symm.trans hnone) (by simp)

/-- An image that is gone, by an identifier that is not issued again. -/
def Gone (i : UUID) (w : World) : Prop := w.statusOf i = none ∧ i ∈ w.issued

theorem Gone.exec (hgone : w.Gone i) (h : w.exec settings op c = some (w', r)) : w'.Gone i := by
  obtain ⟨hnone, hissued⟩ := hgone
  refine ⟨?_, by rw [(exec_started h).2]; exact List.mem_append_right _ hissued⟩
  have htakes : ¬ op.Takes i w c := not_takes_of_eq_none ((statusOf_eq_none_iff w i).mp hnone)
  cases exec_not_takes h htakes with
  | same hsame => exact hsame.trans hnone
  | stored hnew _ _ => exact absurd hissued hnew
  | stopped _ _ hstopped => rw [hstopped, hnone, Option.map_none]
  | deleted hdeleted => exact hdeleted

/-- Every image has an identifier that was issued. -/
def KnowsImages (w : World) : Prop := ∀ i, w.statusOf i ≠ none → i ∈ w.issued

theorem KnowsImages.exec (hknows : w.KnowsImages) (h : w.exec settings op c = some (w', r)) :
    w'.KnowsImages := by
  intro i hi
  have hlater : i ∈ w.issued → i ∈ w'.issued := fun hissued => by
    rw [(exec_started h).2]
    exact List.mem_append_right _ hissued
  by_cases hold : w.statusOf i = none
  · by_cases hissued : i ∈ w.issued
    · exact hlater hissued
    · have htakes : ¬ op.Takes i w c := not_takes_of_eq_none ((statusOf_eq_none_iff w i).mp hold)
      cases exec_not_takes h htakes with
      | same hsame => exact absurd (hsame.trans hold) hi
      | stored _ hissued _ => exact hissued
      | stopped _ _ hstopped => exact absurd (by rw [hstopped, hold, Option.map_none]) hi
      | deleted hnone => exact absurd hnone hi
  · exact hlater (hknows i hold)

end World

/-! ## The request among others

One thread is watched while all others do what they like. What the thread
has read may be out of date, and the condition is that it is not, in the
one respect that matters. -/

/-- The rest of `DELETE /images/{id}` after the check. -/
def Handler.removeImage (imageId : UUID) (paths : List FilePath) : Handler Unit := do
  Handler.perform (.deleteImage imageId)
  Handler.deleteFiles paths

/-- How far the request has come, and what is so then. This is the
invariant of the request: once it has found that it may delete, the image
stays one that may be deleted if nobody takes it. -/
inductive Deleting (caller : Caller) (i : UUID) (p : Handler Unit) (w : World) : Prop
  | reading (hp : p = Handler.deleteImage caller i)
  | removing (paths : List FilePath) (hp : p = Handler.removeImage i paths) (hissued : i ∈ w.issued)
      (hfree : w.Free i)
  | removed (hp : p.Calls fun op => ∃ path, op = .deleteFile path) (hgone : w.Gone i)
  | closed (hp : p.Calls fun _ => False)

/-- **Nobody takes the image** while the request is about to delete its
row, which is from its read to its `DELETE`. This is about a step of
somebody else, which performs an operation in the world as it is then. -/
def LeavesFree (i : UUID) (p : Handler Unit) (w : World) (op : Op) (c : Choice) : Prop :=
  (∃ k, p = .call (.deleteImage i) k) → ¬ op.Takes i w c

/-- Whether a program deletes the row of an image next. -/
def Handler.removesNext (i : UUID) : Handler Unit → Bool
  | .call (.deleteImage imageId) _ => imageId = i
  | _ => false

theorem Handler.removesNext_iff (i : UUID) (p : Handler Unit) :
    p.removesNext i = true ↔ ∃ k, p = .call (.deleteImage i) k := by
  constructor
  · intro h
    unfold Handler.removesNext at h
    split at h
    · next imageId k =>
      obtain rfl : imageId = i := of_decide_eq_true h
      exact ⟨k, rfl⟩
    · exact absurd h (by simp)
  · rintro ⟨k, rfl⟩
    exact decide_eq_true (Eq.refl i)

instance (i : UUID) (p : Handler Unit) : Decidable (∃ k, p = .call (.deleteImage i) k) :=
  decidable_of_iff _ (Handler.removesNext_iff i p)

instance (i : UUID) (p : Handler Unit) (w : World) (op : Op) (c : Choice) :
    Decidable (LeavesFree i p w op c) :=
  inferInstanceAs (Decidable (_ → _))

theorem calls_deleteFiles (paths : List FilePath) :
    (Handler.deleteFiles paths).Calls fun op => ∃ path, op = .deleteFile path := by
  induction paths with
  | nil => trivial
  | cons path paths ih =>
    unfold Handler.deleteFiles
    split
    · exact Program.calls_bind (Program.calls_perform ⟨path, rfl⟩) fun _ => ih
    · exact ih

/-- What a step of the request does. It reads the row, removes it and then
removes the files, and what it remembers in between is what the row
said. -/
theorem Deleting.own {caller : Caller} {k : Except Exn op.Ret → Handler Unit}
    (hknows : w.KnowsImages) (hdeleting : Deleting caller i (.call op k) w)
    (h : w.exec settings op c = some (w', r)) : Deleting caller i (k r) w' := by
  -- the request reads the row, removes it, and then its files
  cases hdeleting with
  | reading hp =>
    obtain ⟨rfl, hk⟩ := Program.call.inj hp
    obtain rfl := eq_of_heq hk
    obtain ⟨e, -, rfl, rfl⟩ | ⟨-, hperform⟩ := World.exec_cases h
    · exact .closed trivial
    · obtain ⟨rfl, rfl⟩ := Prod.mk.inj hperform
      show Deleting caller i (Program.bind (.done (w.db.imageFor? caller i)) _) (w.started c)
      cases himage : w.db.imageFor? caller i with
      | none => exact .closed trivial
      | some image =>
        have hstatus : w.statusOf i = some image.status :=
          congrArg (Option.map ImageRecord.status) (Option.filter_eq_some_iff.mp himage).1
        show Deleting caller i (if Handler.deletable image.status = true then _ else _) _
        split
        · next hdeletable =>
          refine .removing (image.parts.map ImagePart.imagePath) rfl ?_ fun status hfree => ?_
          · exact List.mem_append_right _ (hknows i (by rw [hstatus]; simp))
          · obtain rfl := Option.some.inj (hstatus.symm.trans hfree)
            exact hdeletable
        · exact .closed trivial
  | removing paths hp hissued hfree =>
    obtain ⟨rfl, hk⟩ := Program.call.inj hp
    obtain rfl := eq_of_heq hk
    obtain ⟨e, -, rfl, rfl⟩ | ⟨-, hperform⟩ := World.exec_cases h
    · exact .closed trivial
    · obtain ⟨rfl, rfl⟩ := Prod.mk.inj hperform
      refine .removed (calls_deleteFiles paths) ⟨?_, List.mem_append_right _ hissued⟩
      refine (World.statusOf_eq_none_iff _ i).mpr ?_
      exact ((w.db.deleteImage_spec i).1 i).trans (if_pos rfl)
  | removed hp hgone => exact .removed (hp.2 r) (hgone.exec h)
  | closed hp => exact hp.1.elim

/-- What the steps of others do to the request. -/
theorem Deleting.others {caller : Caller} {p : Handler Unit} (hdeleting : Deleting caller i p w)
    (hleaves : LeavesFree i p w op c) (h : w.exec settings op c = some (w', r)) :
    Deleting caller i p w' := by
  cases hdeleting with
  | reading hp => exact .reading hp
  | removing paths hp hissued hfree =>
    refine .removing paths hp ?_ (hfree.exec h (hleaves ⟨_, hp⟩))
    rw [(World.exec_started h).2]
    exact List.mem_append_right _ hissued
  | removed hp hgone => exact .removed hp (hgone.exec h)
  | closed hp => exact .closed hp

/-- An operation by which the request deletes something. -/
def Op.deletes : Op → Bool
  | .deleteImage _ | .deleteFile _ => true
  | _ => false

/-- **A step removes only what is free**: if it is one of the first
thread, and deletes the row of the image or a file of it, the image is in
a status in which nobody works on it at that moment, or its row is
gone. -/
def RemovesFree (i : UUID) (s : Threads Op.Ret Exn World) : Threads.Action Request Choice → Prop
  | .start _ => True
  | .advance t choice => t = 0 → choice.failure = none → ∀ op k,
    s.threads[0]? = some (.call op k) → op.deletes = true → s.shared.Free i

/-- One step of any requests that run at the same time. -/
abbrev World.step (settings : Settings) (s : Threads Op.Ret Exn World)
    (a : Threads.Action Request Choice) : Option (Threads Op.Ret Exn World) :=
  s.step (Request.handler settings) (fun _ => World.exec settings) a

/-- The state before the first request, with a request to delete an
image. -/
def deletionInitial (files : Files) (clock : Timestamp) (caller : Caller) (i : UUID) :
    Threads Op.Ret Exn World :=
  ⟨World.initial files clock, [Handler.deleteImage caller i]⟩

variable {files : Files} {clock : Timestamp} {caller : Caller} {s s' : Threads Op.Ret Exn World}
  {a : Threads.Action Request Choice}

/-- What is so at each point of the request. -/
theorem Deleting.free {op : Op} {k : Except Exn op.Ret → Handler Unit} {w : World}
    (h : Deleting caller i (.call op k) w) (hop : op.deletes = true) : w.Free i := by
  cases h with
  | reading hp =>
    obtain ⟨rfl, -⟩ := Program.call.inj hp
    exact absurd hop (by simp [Op.deletes])
  | removing paths hp hissued hfree => exact hfree
  | removed hp hgone => exact fun status hstatus => absurd (hgone.1.symm.trans hstatus) (by simp)
  | closed hp => exact hp.1.elim

/-- The request is where it is, in a run in which nobody takes its
image. -/
theorem watched_deleting
    (run : Transition.Run (World.step settings) (Threads.Beside (LeavesFree i))
      (deletionInitial files clock caller i) s) :
    s.Watched fun p w => w.KnowsImages ∧ Deleting caller i p w := by
  refine Threads.watch (fun w op k c w' r h hexec => ?_)
    (fun t p w op c w' r _ h hleaves hexec => ?_) ⟨fun i hi => ?_, .reading rfl⟩ run
  · exact ⟨h.1.exec hexec, h.2.own h.1 hexec⟩
  · exact ⟨h.1.exec hexec, h.2.others hleaves hexec⟩
  · exact absurd rfl hi

/-- **The request removes only what is free**, in every step of a run in
which nobody takes the image between its read and its `DELETE`. -/
theorem removesFree_of_leavesFree (settings : Settings) (files : Files) (clock : Timestamp)
    (caller : Caller) (i : UUID) (s : Threads Op.Ret Exn World)
    (run : Transition.Run (World.step settings) (Threads.Beside (LeavesFree i))
      (deletionInitial files clock caller i) s) :
    Transition.Run (World.step settings) (RemovesFree i)
      (deletionInitial files clock caller i) s := by
  induction run with
  | start => exact .start
  | next a run _ hstep ih =>
    refine .next a ih ?_ hstep
    cases a with
    | start request => trivial
    | advance t choice =>
      intro _ _ op k hthread hop
      obtain ⟨p, hp, -, hdeleting⟩ := watched_deleting run
      obtain rfl := Option.some.inj (hp.symm.trans hthread)
      exact hdeleting.free hop

end ImageDeletion

section ClaimedMeanwhile

local instance asciiFoldingOfDeletion : CaseFolding := asciiFolding

/-- Whether the first thread deletes something next. -/
def deletesNext (s : Threads Op.Ret Exn World) : Bool :=
  match s.threads[(0 : ℕ)]? with
  | some (.call op _) => op.deletes
  | _ => false

/-- A user deletes a photo that is being uploaded: the row is stored, and
the request reads it. -/
def uploadedAndRead : List (Threads.Action Request Choice) :=
  [.start (.upload photo), .advance 1 (smoothly 1 []), .advance 1 (smoothly 2 []),
    .advance 1 (smoothly 3 [1]), .advance 0 (smoothly 4 [])]

/-- The worker lists the image, then the request deletes the row and the
file, and then the worker and the upload claim the image, in vain. -/
def deletedFirst : List (Threads.Action Request Choice) :=
  uploadedAndRead ++ [.start .processPending, .advance 2 (smoothly 5 []),
    .advance 2 (smoothly 6 []), .advance 0 (smoothly 7 []), .advance 0 (smoothly 8 []),
    .advance 2 (smoothly 9 []), .advance 1 (smoothly 10 [])]

/-- **An image that nobody takes** is deleted, with its file, while it is
pending. Its row and its file are removed by steps of this run, so that
the property is about steps which do happen. -/
theorem deletedFirst_removesFree :
    ∃ s, Transition.Run (World.step plainSettings) (RemovesFree 1)
        (deletionInitial photoFiles 0 ⟨1, false⟩ 1) s
      ∧ s.shared.statusOf 1 = none ∧ s.shared.files.exists? "/data/tmp/a.png" = false := by
  obtain ⟨s, run, hgone⟩ : ∃ s, Transition.Run (World.step plainSettings)
      (Threads.Beside (LeavesFree 1)) (deletionInitial photoFiles 0 ⟨1, false⟩ 1) s
      ∧ s.shared.statusOf 1 = none ∧ s.shared.files.exists? "/data/tmp/a.png" = false :=
    Transition.Run.of_exec deletedFirst (by decide +kernel)
  exact ⟨s, removesFree_of_leavesFree _ _ _ _ _ s run, hgone⟩

/-- The upload claims the image before the request deletes it. -/
def claimedFirst : List (Threads.Action Request Choice) :=
  uploadedAndRead ++ [.advance 1 (smoothly 5 [])]

/-- **An image is deleted while it is analysed**: it is processing, and
the next step removes its row. The request has read the status before it
was claimed, and the `DELETE` names the image and not the status. -/
theorem meanwhile_removed :
    ∃ s s', Transition.Reachable (World.step plainSettings)
        (deletionInitial photoFiles 0 ⟨1, false⟩ 1) s
      ∧ World.step plainSettings s (.advance 0 (smoothly 6 [])) = some s'
      ∧ s.shared.statusOf 1 = some .processing ∧ s'.shared.statusOf 1 = none
      ∧ ¬ RemovesFree 1 s (.advance 0 (smoothly 6 [])) := by
  obtain ⟨s, run, hdeletes, hprocessing, hstep⟩ : ∃ s,
      Transition.Reachable (World.step plainSettings) (deletionInitial photoFiles 0 ⟨1, false⟩ 1) s
        ∧ deletesNext s = true ∧ s.shared.statusOf 1 = some .processing
        ∧ (World.step plainSettings s (.advance 0 (smoothly 6 []))).any
          (fun s' => s'.shared.statusOf 1 = none) = true :=
    Transition.Run.of_exec claimedFirst (by decide +kernel)
  obtain ⟨s', hstep, hgone⟩ := (Option.any_eq_true _ _).mp hstep
  refine ⟨s, s', run, hstep, hprocessing, of_decide_eq_true hgone, fun hfree => ?_⟩
  unfold deletesNext at hdeletes
  split at hdeletes
  · next op k hthread =>
    exact World.not_free hprocessing rfl (hfree rfl rfl op k hthread hdeletes)
  · exact absurd hdeletes (by simp)

end ClaimedMeanwhile

end VisionBill
