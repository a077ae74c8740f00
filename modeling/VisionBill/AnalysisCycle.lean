import VisionBill.ImageDeletion

/-!
# A cycle of the scheduler

`process_pending` takes the images of the queue one after another. What
becomes of an image is decided by how the calls for it are answered: this
is its *outcome*, of which there are nine (`ImageOutcome`, with the ways
in which an analysis stops). The exceptions of an image are caught where
they are raised, so that a cycle returns one result for each image, in the
order of the queue, and every image ends by its own outcome.

There is one exception. An image whose receipt was stored in an earlier
cycle is only linked to it, outside of any `try`: if that statement
raises, the cycle is over and the images behind it are left
(`settles_iff`).

## Outcomes

Each image of the queue is given an outcome before the cycle begins, and
the choices of the cycle are restricted to those that agree with it. An
outcome says what is answered, not what is done: that an image ends in the
status of its outcome, and that the result reported for it is the one of
its outcome, is what is shown. Two images have two outcomes, and since the
outcomes are arbitrary it does not matter for one image what the other one
has.

Listing, claiming, looking up a receipt and marking an image as failed are
taken to succeed. A database that refuses every statement leaves nothing
to be said about statuses.

## One image, and the others

While an image is analysed, the state has the image that is at hand, with
its status (`AtHand`); all operations of the analysis either keep it or
mark it, and none is about another image (`KeepsOthers`). So the loop can
be gone through image by image, with the images that are still in the
queue as they were listed (`Queued`) and those that are done as their
outcomes have it (`Cycled`).
-/

namespace VisionBill

section AnalysisCycle

variable [CaseFolding]

omit [CaseFolding] in
theorem ImageRecord.Claimable.mono {image : ImageRecord} {now now' : Timestamp}
    (h : image.Claimable now) (hnow : now ≤ now') : image.Claimable now' :=
  h.imp (fun hwaiting => hwaiting) fun ⟨hprocessing, hat⟩ =>
    ⟨hprocessing, fun t ht => lt_of_lt_of_le (hat t ht) (Int.sub_le_sub_right hnow leaseTime)⟩

/-! ## Outcomes

What becomes of an image is chosen before the cycle, and the operations
have to answer accordingly. So the outcome is an input of the theorem and
not something that is read off the run, and the same cycle can be asked
about with each of them. -/

/-- How the calls for a claimed image are answered. The last of the calls
that matter decides: an analysis that fails has no receipt to be
stored. -/
inductive ImageOutcome
  /-- It has a receipt already; linking it may raise. -/
  | linked (receiptId : UUID) (raised : Option Exn)
  /-- Its file is missing. -/
  | missing
  /-- The analysis raises. -/
  | stopped (e : Exn)
  /-- `persist_receipt` or `mark_analyzed` raises. -/
  | unsaved (e : Exn)
  /-- The receipt is stored and linked; moving the files may raise. -/
  | saved (receiptId : UUID)

namespace ImageOutcome

/-- The status in which an image ends. A timeout and an unreadable photo
have statuses of their own, since the worker does not take such an image
up again by itself. -/
def status : ImageOutcome → ImageStatus
  | linked _ _ | saved _ => .analyzed
  | missing | unsaved _ => .failed
  | stopped (.analysisTimeout _) => .timedOut
  | stopped (.unreadableReceipt _) => .unreadable
  | stopped _ => .failed

/-- What is reported of an image. The texts of errors are shown to the
user, and so they are part of the result. -/
def result (image : ImageRecord) (o : ImageOutcome) : Handler.PendingImageResult :=
  match o with
  | linked receiptId _ | saved receiptId =>
    { imageId := image.id, status := o.status, receiptId := some receiptId }
  | missing =>
    { imageId := image.id
      status := o.status
      error := some ("Image file missing: " ++ image.imagePath.getD "None") }
  | stopped e => { imageId := image.id, status := o.status, error := some e.str }
  | unsaved e =>
    { imageId := image.id
      status := o.status
      error := some ("Failed to persist receipt: " ++ e.str) }

omit [CaseFolding] in
theorem result_claimed (now : Timestamp) (image : ImageRecord) (o : ImageOutcome) :
    o.result (Db.claimed now image) = o.result image := by
  cases o <;> rfl

/-- The exception of an image that cannot be linked to its receipt. Of all
that may be raised about an image it is the only one without a handler:
the image has its receipt already, and marking it is outside of every
`try`. -/
def Escapes : ImageOutcome → Prop
  | linked _ (some _) => True
  | _ => False

instance : DecidablePred Escapes
  | linked _ (some _) => isTrue trivial
  | linked _ none | missing | stopped _ | unsaved _ | saved _ => isFalse id

/-- The receipt that is there already. -/
def links (o : ImageOutcome) (receiptId : UUID) : Bool :=
  match o with
  | linked id _ => id = receiptId
  | _ => false

/-- The image that is claimed is one with this outcome. An outcome is
chosen before the cycle, so a claim that contradicts it belongs to no run
of this kind. -/
def allowsClaim (o : ImageOutcome) : Except Exn (Option ImageRecord) → Bool
  | .ok (some image) =>
    match image.receiptId, o with
    | some receiptId, o => o.links receiptId
    | none, .linked _ _ | none, .missing => true
    | none, _ => (Handler.givenPath image.imagePath).isSome
  | _ => true

def allowsLookup (o : ImageOutcome) : Except Exn (Option ReceiptRecord) → Bool
  | .ok (some row) => o.links row.id
  | _ =>
    match o with
    | .linked _ _ => false
    | _ => true

def allowsFound (o : ImageOutcome) : Except Exn Bool → Bool
  | .ok found =>
    match o with
    | .missing => !found
    | _ => found
  | .error _ => false

def allowsAnalysis (o : ImageOutcome) : Except Exn Receipt → Bool
  | .ok _ =>
    match o with
    | .unsaved _ | .saved _ => true
    | _ => false
  | .error e =>
    match o with
    | .stopped e' => e = e'
    | _ => false

def allowsPersist (o : ImageOutcome) : Except Exn ReceiptRecord → Bool
  | .ok row =>
    match o with
    | .saved receiptId => row.id = receiptId
    | .unsaved _ => true
    | _ => false
  | .error e =>
    match o with
    | .unsaved e' => e = e'
    | _ => false

def allowsMark (o : ImageOutcome) : Except Exn Unit → Bool
  | .ok _ =>
    match o with
    | .linked _ none | .saved _ => true
    | _ => false
  | .error e =>
    match o with
    | .linked _ (some e') | .unsaved e' => e = e'
    | _ => false

/-- An answer that an operation for an image with this outcome may get.
Operations that have nothing to do with the outcome may get any. -/
def allows (o : ImageOutcome) : (op : Op) → Except Exn op.Ret → Bool
  | .claimForAnalysis _, r => o.allowsClaim r
  | .getReceiptByImageId _, r => o.allowsLookup r
  | .fileExists _, r => o.allowsFound r
  | .analyse _ _, r => o.allowsAnalysis r
  | .persistReceipt _ _ _ _ _, r => o.allowsPersist r
  | .markAnalyzed _ _, r => o.allowsMark r
  | _, _ => true

variable {o : ImageOutcome}

omit [CaseFolding] in
theorem eq_of_links {receiptId : UUID} (h : o.links receiptId = true) :
    ∃ raised, o = linked receiptId raised := by
  cases o with
  | linked id raised => exact ⟨raised, congrArg (linked · raised) (of_decide_eq_true h)⟩
  | _ => exact absurd h (by simp [links])

omit [CaseFolding] in
theorem eq_of_allowsPersist {row : ReceiptRecord} (h : o.allowsPersist (.ok row) = true) :
    o = saved row.id ∨ ∃ e, o = unsaved e := by
  cases o with
  | saved id => exact .inl (congrArg saved (of_decide_eq_true h).symm)
  | unsaved e => exact .inr ⟨e, rfl⟩
  | _ => exact absurd h (by simp [allowsPersist])

omit [CaseFolding] in
theorem eq_of_allowsPersist_error {e : Exn} (h : o.allowsPersist (.error e) = true) :
    o = unsaved e := by
  cases o with
  | unsaved e' => exact congrArg unsaved (of_decide_eq_true h).symm
  | _ => exact absurd h (by simp [allowsPersist])

theorem eq_of_allowsAnalysis_error {e : Exn} (h : o.allowsAnalysis (.error e) = true) :
    o = stopped e := by
  cases o with
  | stopped e' => exact congrArg stopped (of_decide_eq_true h).symm
  | _ => exact absurd h (by simp [allowsAnalysis])

omit [CaseFolding] in
/-- An image with a receipt. -/
theorem eq_linked_of_allowsClaim {image : ImageRecord} {receiptId : UUID}
    (h : o.allowsClaim (.ok (some image)) = true) (hreceipt : image.receiptId = some receiptId) :
    ∃ raised, o = linked receiptId raised := by
  simp only [allowsClaim, hreceipt] at h
  exact eq_of_links h

omit [CaseFolding] in
/-- An image without a path to its file. -/
theorem eq_missing_of_allowsClaim {image : ImageRecord}
    (h : o.allowsClaim (.ok (some image)) = true) (hlookup : o.allowsLookup (.ok none) = true)
    (hnone : image.receiptId = none) (hpath : Handler.givenPath image.imagePath = none) :
    o = missing := by
  cases o with
  | linked id raised => exact absurd hlookup (by simp [allowsLookup])
  | missing => rfl
  | _ => exact absurd h (by simp [allowsClaim, hnone, hpath])

omit [CaseFolding] in
theorem eq_missing_of_allowsFound (h : o.allowsFound (.ok false) = true) : o = missing := by
  cases o with
  | missing => rfl
  | _ => exact absurd h (by simp [allowsFound])

end ImageOutcome

/-! ## Cycles in which the images have given outcomes

The world remembers which image is at hand, as the operations of its
analysis do not all name it. An operation that contradicts the outcome of
that image is not possible; what the outcome leaves open may still succeed
or fail. -/

/-- The statements that are taken to succeed. -/
def Op.isRequired : Op → Bool
  | .listPendingImages | .claimForAnalysis _ | .getReceiptByImageId _ | .markFailed _ _
  | .markTerminal _ _ _ => true
  | _ => false

/-- A world with the queue of a cycle and the image at hand. Both are read
off the operations, and no operation reads them. -/
structure CycleWorld extends World where
  queue : List ImageRecord
  current : Option UUID

namespace CycleWorld

/-- Before a cycle. -/
def start (w : World) : CycleWorld := ⟨w, [], none⟩

/-- What an operation is about. -/
def note (w : CycleWorld) (w' : World) : (op : Op) → Except Exn op.Ret → CycleWorld
  | .listPendingImages, .ok images => ⟨w', images, w.current⟩
  | .claimForAnalysis imageId, _ => ⟨w', w.queue, some imageId⟩
  | _, _ => ⟨w', w.queue, w.current⟩

/-- An operation, answered as the outcome of the image at hand has it.
Operations that must not fail for that are required to succeed; all others
may still fail. -/
def exec (settings : Settings) (outcome : UUID → ImageOutcome) (w : CycleWorld) (op : Op)
    (c : Choice) : Option (CycleWorld × Except Exn op.Ret) :=
  (w.toWorld.exec settings op c).bind fun (w', r) =>
    if (op.isRequired = true → r.isOk = true)
        ∧ (w.note w' op r).current.all (fun i => (outcome i).allows op r) = true then
      some (w.note w' op r, r)
    else none

variable {settings : Settings} {outcome : UUID → ImageOutcome} {w w' : CycleWorld} {op : Op}
  {c : Choice} {r : Except Exn op.Ret}

/-- What is known of an operation and its answer: it is that of the world,
its trace in the cycle is noted, and the outcome of the image at hand
allows the answer. -/
theorem exec_spec (h : exec settings outcome w op c = some (w', r)) :
    w.toWorld.exec settings op c = some (w'.toWorld, r)
      ∧ w' = w.note w'.toWorld op r ∧ (op.isRequired = true → r.isOk = true)
      ∧ ∀ i ∈ w'.current, (outcome i).allows op r = true := by
  obtain ⟨⟨w₁, r₁⟩, hexec, hrest⟩ := Option.bind_eq_some_iff.mp h
  dsimp only at hrest
  split at hrest
  · next hallowed =>
    obtain ⟨rfl, rfl⟩ := Prod.mk.inj (Option.some.inj hrest)
    have hworld : (w.note w₁ op r₁).toWorld = w₁ := by
      unfold note
      split <;> rfl
    refine ⟨?_, ?_, hallowed.1, fun i hi => ?_⟩
    · rw [hworld]
      exact hexec
    · rw [hworld]
    · have hall := hallowed.2
      rw [Option.mem_def.mp hi] at hall
      exact hall
  · exact absurd hrest (by simp)

theorem note_of_ne (hlist : op ≠ .listPendingImages) (hclaim : ∀ i, op ≠ .claimForAnalysis i)
    (w₁ : World) (r : Except Exn op.Ret) : w.note w₁ op r = ⟨w₁, w.queue, w.current⟩ := by
  cases op
  case listPendingImages => exact absurd rfl hlist
  case claimForAnalysis imageId => exact absurd rfl (hclaim imageId)
  all_goals rfl

theorem queue_note (hlist : op ≠ .listPendingImages) (w₁ : World) (r : Except Exn op.Ret) :
    (w.note w₁ op r).queue = w.queue := by
  cases op
  case listPendingImages => exact absurd rfl hlist
  all_goals rfl

/-- What a required statement is answered. -/
theorem exec_required (h : exec settings outcome w op c = some (w', r))
    (hop : op.isRequired = true) : ∃ a, r = .ok a := by
  have hok := (exec_spec h).2.2.1 hop
  cases r with
  | ok a => exact ⟨a, rfl⟩
  | error e => exact absurd hok (by simp [Except.isOk, Except.toBool])

end CycleWorld

/-- The status that a statement writes for an image. -/
def Op.marking (i : UUID) : Op → Option ImageStatus
  | .markAnalyzed imageId _ => if imageId = i then some .analyzed else none
  | .markFailed imageId _ => if imageId = i then some .failed else none
  | .markTerminal imageId status _ => if imageId = i then some status else none
  | _ => none

/-- A statement that has marked an image. -/
theorem World.exec_marking {settings : Settings} {w w' : World} {op : Op} {c : Choice} {a : op.Ret}
    {i : UUID} {status : ImageStatus} (h : w.exec settings op c = some (w', .ok a))
    (hop : op.marking i = some status) (hi : w.statusOf i ≠ none) :
    w'.statusOf i = some status := by
  obtain ⟨e, -, -, he⟩ | ⟨-, hperform⟩ := exec_cases h
  · exact absurd he (by simp)
  · cases op
    case markAnalyzed imageId receiptId =>
      obtain ⟨rfl, hstatus⟩ := Option.ite_none_right_eq_some.mp hop
      obtain rfl := Option.some.inj hstatus
      obtain ⟨hok, -⟩ | ⟨-, e, he⟩ := write_eq hperform
      · exact statusOf_write (Db.markAnalyzed_spec hok).2 (fun _ => rfl) hi
      · exact absurd he (by simp)
    case markFailed imageId error =>
      obtain ⟨rfl, hstatus⟩ := Option.ite_none_right_eq_some.mp hop
      obtain rfl := Option.some.inj hstatus
      obtain ⟨hok, -⟩ | ⟨-, e, he⟩ := write_eq hperform
      · exact statusOf_write (Db.markFailed_spec hok) (fun _ => rfl) hi
      · exact absurd he (by simp)
    case markTerminal imageId status error =>
      obtain ⟨rfl, hstatus⟩ := Option.ite_none_right_eq_some.mp hop
      obtain rfl := Option.some.inj hstatus
      obtain ⟨hok, -⟩ | ⟨-, e, he⟩ := write_eq hperform
      · exact statusOf_write (Db.markTerminal_spec hok).2 (fun _ => rfl) hi
      · exact absurd he (by simp)
    all_goals exact absurd hop (by simp [Op.marking])

namespace Handler

/-! ## The analysis of one image

What the worker does with one image is said by a rule for each of its
parts, and the parts are put together as the program puts them together.
Each rule says what is so when the part returns and what is so when it
raises, since the worker boundary catches the latter. -/

variable {settings : Settings} {outcome : UUID → ImageOutcome} {w w' : CycleWorld} {α : Type}
  {image : ImageRecord} {i : UUID}

/-- What a part of the scheduler establishes in a cycle with given
outcomes. -/
abbrev Establishes (settings : Settings) (outcome : UUID → ImageOutcome) (p : Handler α)
    (Q : α → CycleWorld → Prop) (R : Exn → CycleWorld → Prop) (w : CycleWorld) : Prop :=
  Program.wlp (CycleWorld.exec settings outcome) p Q R w

theorem establishes_attempt {p : Handler α} {Q : Except Exn α → CycleWorld → Prop}
    {R : Exn → CycleWorld → Prop} :
    Establishes settings outcome (attempt p) Q R w
      ↔ Establishes settings outcome p (fun a => Q (.ok a)) (fun e => Q (.error e)) w := by
  unfold attempt
  rw [Establishes, Program.wlp_handle, Program.wlp_bind]
  exact Iff.rfl

/-- The image is at hand, with a status. Between claiming and marking this
is all that has to be known of the state. -/
def AtHand (i : UUID) (status : ImageStatus) (w : CycleWorld) : Prop :=
  w.current = some i ∧ w.toWorld.statusOf i = some status

/-- An operation that neither begins nor ends an analysis. -/
def IsQuiet (op : Op) : Prop := ¬ op.IsStage ∧ op ≠ .listPendingImages

theorem IsQuiet.ne_claim {op : Op} (h : IsQuiet op) (j : UUID) : op ≠ .claimForAnalysis j := by
  rintro rfl
  exact h.1 trivial

theorem AtHand.quiet {status : ImageStatus} {op : Op} {c : Choice} {r : Except Exn op.Ret}
    (hop : IsQuiet op) (hw : AtHand i status w)
    (h : CycleWorld.exec settings outcome w op c = some (w', r)) : AtHand i status w' := by
  obtain ⟨hexec, hnote, -, -⟩ := CycleWorld.exec_spec h
  refine ⟨?_, ?_⟩
  · rw [hnote, CycleWorld.note_of_ne hop.2 (fun j => hop.ne_claim j)]
    exact hw.1
  · have hsame := congrArg (Option.map Prod.fst) (World.exec_sameStages hexec hop.1 i)
    rw [Option.map_map, Option.map_map] at hsame
    exact hsame.trans hw.2

/-- What happens around an analysis keeps the image at hand. -/
theorem establishes_quiet {status : ImageStatus} {p : Handler α} (hp : p.Calls IsQuiet)
    (hw : AtHand i status w) :
    Establishes settings outcome p (fun _ => AtHand i status) (fun _ => AtHand i status) w :=
  Program.wlp_of_calls (fun _ hop _ _ _ _ hw h => hw.quiet hop h) hp hw

/-- A statement that has marked the image at hand. -/
theorem AtHand.mark {status status' : ImageStatus} {op : Op} {c : Choice} {a : op.Ret}
    (hw : AtHand i status w) (hop : op.marking i = some status')
    (h : CycleWorld.exec settings outcome w op c = some (w', .ok a)) : AtHand i status' w' := by
  obtain ⟨hexec, hnote, -, -⟩ := CycleWorld.exec_spec h
  refine ⟨?_, World.exec_marking hexec hop (by rw [hw.2]; simp)⟩
  rw [hnote, CycleWorld.note_of_ne]
  · exact hw.1
  · rintro rfl
    exact absurd hop (by simp [Op.marking])
  · rintro j rfl
    exact absurd hop (by simp [Op.marking])

/-- `mark_analyzed` for the image at hand. It is done or it raises, and
the outcome says which; where it raises, the image is still in
processing. -/
theorem AtHand.markAnalyzed {receiptId : UUID} {c : Choice} {r : Except Exn Unit}
    (hw : AtHand i .processing w)
    (h : CycleWorld.exec settings outcome w (.markAnalyzed i receiptId) c = some (w', r)) :
    (outcome i).allowsMark r = true
      ∧ ((r = .ok () ∧ AtHand i .analyzed w') ∨ ((∃ e, r = .error e) ∧ AtHand i .processing w')) := by
  obtain ⟨hexec, hnote, -, hallows⟩ := CycleWorld.exec_spec h
  have hcurrent : w'.current = some i := by
    rw [hnote]
    exact hw.1
  refine ⟨hallows i hcurrent, ?_⟩
  cases r with
  | ok a => exact .inl ⟨rfl, hw.mark (by exact if_pos rfl) h⟩
  | error e =>
    refine .inr ⟨⟨e, rfl⟩, hcurrent, ?_⟩
    obtain ⟨-, ⟨hsame, -⟩ | ⟨-, hperform⟩⟩ := World.exec_eq hexec
    · rw [hsame]
      exact hw.2
    · obtain ⟨-, -, hr⟩ | ⟨hsame, -⟩ := World.write_eq hperform
      · exact absurd hr (by simp)
      · rw [hsame]
        exact hw.2

/-- The image at hand is settled by its outcome: it has the status of the
outcome, and the result says so. -/
def Settled (outcome : UUID → ImageOutcome) (image : ImageRecord) (result : PendingImageResult)
    (w : CycleWorld) : Prop :=
  ¬ (outcome image.id).Escapes ∧ result = (outcome image.id).result image
    ∧ AtHand image.id (outcome image.id).status w

/-- An image is marked, which is taken to succeed, and reported. -/
theorem establishes_report {o : ImageOutcome} {op : Op} (ho : outcome image.id = o)
    (hne : ¬ o.Escapes) (hop : op.marking image.id = some o.status)
    (hrequired : op.isRequired = true) (hw : AtHand image.id .processing w) :
    Establishes settings outcome (perform op >>= fun _ => pure (o.result image))
      (Settled outcome image) (fun _ _ => False) w := by
  refine Program.wlp_bind.mpr (Program.wlp_perform fun c w' r h => ⟨fun a ha => ?_, fun e he => ?_⟩)
  · obtain rfl := ha
    subst ho
    exact ⟨hne, rfl, hw.mark hop h⟩
  · obtain ⟨a, ha⟩ := CycleWorld.exec_required h hrequired
    exact absurd (ha.symm.trans he) (by simp)

/-- What is attempted around an analysis does not raise. -/
theorem establishes_attempt_quiet {status : ImageStatus} {p : Handler α} (hp : p.Calls IsQuiet)
    (hw : AtHand i status w) :
    Establishes settings outcome (attempt p) (fun _ => AtHand i status) (fun _ _ => False) w :=
  establishes_attempt.mpr (establishes_quiet hp hw)

theorem establishes_capture {status : ImageStatus} {receiptId : UUID} (userId : Option UUID)
    (hw : AtHand i status w) :
    Establishes settings outcome (captureToActive receiptId userId) (fun _ => AtHand i status)
      (fun _ _ => False) w := by
  cases userId with
  | none => exact hw
  | some userId =>
    refine Program.wlp_bind.mpr (Program.wlp_mono (establishes_attempt_quiet ?_ hw)
      (fun _ _ hw => hw) fun _ _ => id)
    refine Program.calls_bind (Program.calls_perform ⟨id, by simp⟩) fun active => ?_
    cases active with
    | none => trivial
    | some collection => exact Program.calls_perform ⟨id, by simp⟩

/-- The receipt of the image at hand is stored and linked. Both are inside
the `try`, so an exception of either one is an outcome of the image. -/
theorem establishes_stored {receipt : Receipt} {status : ReceiptStatus} {verified : Bool}
    {userId : Option UUID} (hw : AtHand i .processing w) :
    Establishes settings outcome (do
        let row ← persistReceipt receipt (some i) status verified userId
        perform (.markAnalyzed i row.id)
        return row)
      (fun row w => outcome i = .saved row.id ∧ AtHand i .analyzed w)
      (fun e w => outcome i = .unsaved e ∧ AtHand i .processing w) w := by
  refine Program.wlp_bind.mpr (Program.wlp_bind.mpr (Program.wlp_perform fun c w₁ r h => ?_))
  have hw₁ : AtHand i .processing w₁ := hw.quiet ⟨id, by simp⟩ h
  have hallows : (outcome i).allowsPersist r = true := (CycleWorld.exec_spec h).2.2.2 i hw₁.1
  refine ⟨fun row hrow => ?_, fun e he => ?_⟩
  · obtain rfl := hrow
    refine Program.wlp_bind.mpr (Program.wlp_mono (establishes_capture userId hw₁)
      (fun _ w₂ hw₂ => ?_) fun _ _ => False.elim)
    refine Program.wlp_bind.mpr (Program.wlp_perform fun c w₃ r h => ?_)
    obtain ⟨hmark, hresult⟩ := hw₂.markAnalyzed h
    -- the receipt is stored; by the outcome of the image, linking it returns or raises
    obtain ho | ⟨e', ho⟩ := ImageOutcome.eq_of_allowsPersist hallows
    · rw [ho] at hmark
      obtain ⟨rfl, hw₃⟩ | ⟨⟨e, rfl⟩, -⟩ := hresult
      · exact ⟨fun _ _ => ⟨ho, hw₃⟩, fun e he => absurd he (by simp)⟩
      · exact absurd hmark (by simp [ImageOutcome.allowsMark])
    · rw [ho] at hmark
      obtain ⟨rfl, -⟩ | ⟨⟨e, rfl⟩, hw₃⟩ := hresult
      · exact absurd hmark (by simp [ImageOutcome.allowsMark])
      · obtain rfl : e = e' := of_decide_eq_true hmark
        refine ⟨fun _ h => absurd h (by simp), fun e₂ he₂ => ?_⟩
        obtain rfl := Except.error.inj he₂
        exact ⟨ho, hw₃⟩
  · obtain rfl := he
    exact ⟨ImageOutcome.eq_of_allowsPersist_error hallows, hw₁⟩

theorem establishes_storeAnalysis (path : FilePath) (receipt : Receipt)
    (hw : AtHand image.id .processing w) :
    Establishes settings outcome (storeAnalysis image path receipt) (Settled outcome image)
      (fun _ _ => False) w := by
  refine Program.wlp_bind.mpr (establishes_attempt.mpr (Program.wlp_mono (establishes_stored hw)
    (fun row w h => ?_) fun e w h => ?_))
  · obtain ⟨ho, hw⟩ := h
    have hsettled : ∀ w, AtHand image.id .analyzed w → Settled outcome image
        { imageId := image.id, status := .analyzed, receiptId := some row.id } w := by
      intro w hw
      unfold Settled
      rw [ho]
      exact ⟨id, rfl, hw⟩
    dsimp only
    split
    · refine Program.wlp_bind.mpr (Program.wlp_mono (establishes_attempt_quiet ?_ hw)
        (fun _ w hw => hsettled w hw) fun _ _ => False.elim)
      refine Program.calls_bind (calls_movePrimary ⟨id, by simp⟩ (fun _ => ⟨id, by simp⟩)
        fun _ => ⟨id, by simp⟩) fun _ => ?_
      split
      · exact calls_moveAdditionalImages (fun _ => ⟨id, by simp⟩) (fun _ => ⟨id, by simp⟩) _ _
      · trivial
    · exact hsettled w hw
  · exact establishes_report h.1 id (if_pos rfl) rfl h.2

theorem establishes_analyzeFile (path : FilePath) (modelId : String)
    (hw : AtHand image.id .processing w) :
    Establishes settings outcome (analyzeFile image path modelId) (Settled outcome image)
      (fun _ _ => False) w := by
  refine Program.wlp_bind.mpr (establishes_attempt.mpr (Program.wlp_perform fun c w₁ r h => ?_))
  have hw₁ : AtHand image.id .processing w₁ := hw.quiet ⟨id, by simp⟩ h
  have hallows : (outcome image.id).allowsAnalysis r = true :=
    (CycleWorld.exec_spec h).2.2.2 image.id hw₁.1
  refine ⟨fun receipt hreceipt => establishes_storeAnalysis path receipt hw₁, fun e he => ?_⟩
  obtain rfl := he
  have ho : outcome image.id = .stopped e := ImageOutcome.eq_of_allowsAnalysis_error hallows
  cases e with
  | analysisTimeout message => exact establishes_report ho id (if_pos rfl) rfl hw₁
  | unreadableReceipt message => exact establishes_report ho id (if_pos rfl) rfl hw₁
  | db e => exact establishes_report ho id (if_pos rfl) rfl hw₁
  | notFound message => exact establishes_report ho id (if_pos rfl) rfl hw₁
  | http status detail => exact establishes_report ho id (if_pos rfl) rfl hw₁
  | other message => exact establishes_report ho id (if_pos rfl) rfl hw₁

/-- A receipt that is there already is linked, or the exception escapes.
It is the only place where something is raised that is not turned into a
status. -/
theorem establishes_linked {receiptId : UUID} {raised : Option Exn}
    (ho : outcome image.id = .linked receiptId raised) (hw : AtHand image.id .processing w) :
    Establishes settings outcome (do
        perform (.markAnalyzed image.id receiptId)
        return { imageId := image.id, status := .analyzed, receiptId := some receiptId })
      (Settled outcome image) (fun _ _ => (outcome image.id).Escapes) w := by
  refine Program.wlp_bind.mpr (Program.wlp_perform fun c w₁ r h => ?_)
  obtain ⟨hmark, hresult⟩ := hw.markAnalyzed h
  rw [ho] at hmark
  refine ⟨fun a ha => ?_, fun e he => ?_⟩
  · obtain rfl := ha
    cases raised with
    | none =>
      obtain ⟨-, hw₁⟩ | ⟨⟨e, he⟩, -⟩ := hresult
      · show Settled outcome image _ w₁
        unfold Settled
        rw [ho]
        exact ⟨id, rfl, hw₁⟩
      · exact absurd he (by simp)
    | some e => exact absurd hmark (by simp [ImageOutcome.allowsMark])
  · obtain rfl := he
    rw [ho]
    cases raised with
    | none => exact absurd hmark (by simp [ImageOutcome.allowsMark])
    | some e => trivial

/-- **What becomes of an image** is decided by its outcome, unless its
exception escapes. One case for each way through the function, and each
ends with another mark on the image. -/
theorem establishes_analyzeOne (modelId : String)
    (hclaim : (outcome image.id).allowsClaim (.ok (some image)) = true)
    (hw : AtHand image.id .processing w) :
    Establishes settings outcome (analyzeOne image modelId) (Settled outcome image)
      (fun _ _ => (outcome image.id).Escapes) w := by
  have hmissing : ∀ w, outcome image.id = .missing → AtHand image.id .processing w →
      Establishes settings outcome (do
          let error := "Image file missing: " ++ image.imagePath.getD "None"
          perform (.markFailed image.id error)
          return { imageId := image.id, status := .failed, error := some error })
        (Settled outcome image) (fun _ _ => (outcome image.id).Escapes) w := fun w ho hw =>
    Program.wlp_mono (establishes_report ho id (if_pos rfl) rfl hw) (fun _ _ => id)
      fun _ _ => False.elim
  unfold analyzeOne
  split
  · next receiptId hreceipt =>
    obtain ⟨raised, ho⟩ := ImageOutcome.eq_linked_of_allowsClaim hclaim hreceipt
    exact establishes_linked ho hw
  · next hnone =>
    refine Program.wlp_bind.mpr (Program.wlp_perform fun c w₁ r h => ?_)
    have hw₁ : AtHand image.id .processing w₁ := hw.quiet ⟨id, by simp⟩ h
    have hlookup : (outcome image.id).allowsLookup r = true :=
      (CycleWorld.exec_spec h).2.2.2 image.id hw₁.1
    obtain ⟨existing, rfl⟩ := CycleWorld.exec_required h rfl
    refine ⟨fun a ha => ?_, fun e he => absurd he (by simp)⟩
    obtain rfl := Except.ok.inj ha
    -- the claimed row has no receipt, but one may have been stored since
    cases existing with
    | some row =>
      obtain ⟨raised, ho⟩ := ImageOutcome.eq_of_links hlookup
      exact establishes_linked ho hw₁
    | none =>
      dsimp only
      split
      · next hpath =>
        exact hmissing w₁ (ImageOutcome.eq_missing_of_allowsClaim hclaim hlookup hnone hpath) hw₁
      · refine Program.wlp_bind.mpr (Program.wlp_perform fun c w₂ r h => ?_)
        have hw₂ : AtHand image.id .processing w₂ := hw₁.quiet ⟨id, by simp⟩ h
        have hfound : (outcome image.id).allowsFound r = true :=
          (CycleWorld.exec_spec h).2.2.2 image.id hw₂.1
        refine ⟨fun found hr => ?_, fun e he => ?_⟩
        · obtain rfl := hr
          -- the path is there; the file may be missing
          cases found with
          | true =>
            exact Program.wlp_mono (establishes_analyzeFile _ modelId hw₂) (fun _ _ => id)
              fun _ _ => False.elim
          | false => exact hmissing w₂ (ImageOutcome.eq_missing_of_allowsFound hfound) hw₂
        · obtain rfl := he
          exact absurd hfound (by simp [ImageOutcome.allowsFound])

/-! ## The images of a cycle

The induction is on the images that are left. It carries that those are
still as they were listed, which the analysis of another image does not
change, and that one result was reported for each image that was
claimed. -/

/-- An operation for one image. -/
def IsOwn (i : UUID) (op : Op) : Prop :=
  (∀ j, j ≠ i → op.LeavesAlone j) ∧ op ≠ .listPendingImages

/-- Nothing has happened to the other images. The cycle takes one image
after the other, and this is what the analysis of one leaves for those
that come after it. -/
structure KeepsOthers (i : UUID) (w w' : CycleWorld) : Prop where
  queue : w'.queue = w.queue
  clock : w.clock ≤ w'.clock
  images : ∀ j, j ≠ i → w'.db.images.get? j = w.db.images.get? j

omit [CaseFolding] in
theorem KeepsOthers.refl (i : UUID) (w : CycleWorld) : KeepsOthers i w w :=
  ⟨rfl, le_refl _, fun _ _ => rfl⟩

theorem KeepsOthers.exec {op : Op} {c : Choice} {r : Except Exn op.Ret} {w₁ : CycleWorld}
    (hop : IsOwn i op) (hw : KeepsOthers i w₁ w)
    (h : CycleWorld.exec settings outcome w op c = some (w', r)) : KeepsOthers i w₁ w' := by
  obtain ⟨hexec, hnote, -, -⟩ := CycleWorld.exec_spec h
  refine ⟨?_, ?_, fun j hj => ?_⟩
  · rw [hnote, CycleWorld.queue_note hop.2]
    exact hw.queue
  · rw [(World.exec_started hexec).1]
    exact hw.clock.trans (World.exec_eq hexec).1.1
  · exact ((World.exec_leavesAlone hexec (hop.1 j hj)).image).trans (hw.images j hj)

theorem calls_moves_own (path : FilePath) (receiptId : UUID) (parts : List ImagePart) :
    (do
      movePrimary i path receiptId
      if parts ≠ [] then moveAdditionalImages i receiptId [] parts : Handler Unit).Calls
      (IsOwn i) := by
  have hstore : ∀ path, IsOwn i (.storePermImage path receiptId) := fun _ =>
    ⟨fun _ _ => trivial, by simp⟩
  refine Program.calls_bind (calls_movePrimary (hstore path) (fun _ => ⟨fun _ hj => hj, by simp⟩)
    fun _ => ⟨fun _ hj => hj, by simp⟩) fun _ => ?_
  split
  · exact calls_moveAdditionalImages hstore (fun _ => ⟨fun _ hj => hj, by simp⟩) _ _
  · trivial

theorem calls_storeAnalysis_own (path : FilePath) (receipt : Receipt) :
    (storeAnalysis image path receipt).Calls (IsOwn image.id) := by
  have hcapture : ∀ receiptId userId, (captureToActive receiptId userId).Calls (IsOwn image.id) :=
    fun _ _ => calls_captureToActive (fun _ => ⟨fun _ _ => trivial, by simp⟩)
      fun _ => ⟨fun _ _ => trivial, by simp⟩
  refine Program.calls_bind (calls_attempt (Program.calls_bind (Program.calls_bind
    (Program.calls_perform ⟨fun j hj heq => hj (Option.some.inj heq).symm, by simp⟩) fun row =>
      Program.calls_bind (hcapture _ _) fun _ => trivial) fun row => Program.calls_bind
        (Program.calls_perform ⟨fun _ hj => hj, by simp⟩) fun _ => trivial)) fun stored => ?_
  cases stored with
  | error e =>
    exact Program.calls_bind (Program.calls_perform ⟨fun _ hj => hj, by simp⟩) fun _ => trivial
  | ok row =>
    dsimp only
    split
    · exact Program.calls_bind (calls_attempt (calls_moves_own _ _ _)) fun _ => trivial
    · trivial

theorem calls_analyzeFile_own (path : FilePath) (modelId : String) :
    (analyzeFile image path modelId).Calls (IsOwn image.id) := by
  refine Program.calls_bind (calls_attempt (Program.calls_perform
    ⟨fun _ _ => trivial, by simp⟩)) fun analysis => ?_
  split
  · exact calls_storeAnalysis_own path _
  all_goals
    exact Program.calls_bind (Program.calls_perform ⟨fun _ hj => hj, by simp⟩) fun _ => trivial

theorem calls_analyzeOne_own (modelId : String) :
    (analyzeOne image modelId).Calls (IsOwn image.id) := by
  have hall : ∀ op, (∀ j, op.LeavesAlone j) → op ≠ .listPendingImages → IsOwn image.id op :=
    fun op halone hlist => ⟨fun j _ => halone j, hlist⟩
  have hreport : ∀ op (result : PendingImageResult), IsOwn image.id op →
      (perform op >>= fun _ => pure result : Handler PendingImageResult).Calls (IsOwn image.id) :=
    fun op result hop => Program.calls_bind (Program.calls_perform hop) fun _ => trivial
  have hmark : ∀ receiptId, IsOwn image.id (.markAnalyzed image.id receiptId) := fun _ =>
    ⟨fun _ hj => hj, by simp⟩
  have hfail : ∀ error, IsOwn image.id (.markFailed image.id error) := fun _ =>
    ⟨fun _ hj => hj, by simp⟩
  unfold analyzeOne
  split
  · exact hreport _ _ (hmark _)
  · refine Program.calls_bind (Program.calls_perform (hall _ (fun _ => trivial) (by simp)))
      fun existing => ?_
    cases existing with
    | some row => exact hreport _ _ (hmark _)
    | none =>
      dsimp only
      split
      · exact hreport _ _ (hfail _)
      · refine Program.calls_bind (Program.calls_perform (hall _ (fun _ => trivial) (by simp)))
          fun found => ?_
        cases found with
        | true => exact calls_analyzeFile_own _ modelId
        | false => exact hreport _ _ (hfail _)

/-- Images that wait for their analysis. Each is as it was listed and may
still be claimed, which is the invariant of the rest of the cycle. -/
structure Queued (images : List ImageRecord) (w : CycleWorld) : Prop where
  nodup : (images.map ImageRecord.id).Nodup
  get : ∀ image ∈ images, w.db.images.get? image.id = some image
  claimable : ∀ image ∈ images, image.Claimable w.clock

omit [CaseFolding] in
theorem Queued.tail {images : List ImageRecord} (h : Queued (image :: images) w)
    (hothers : KeepsOthers image.id w w') : Queued images w' := by
  obtain ⟨hnotin, hnodup⟩ := List.nodup_cons.mp h.nodup
  refine ⟨hnodup, fun next hnext => ?_, fun next hnext => ?_⟩
  · have hne : next.id ≠ image.id := fun heq => hnotin (heq ▸ List.mem_map_of_mem hnext)
    rw [hothers.images next.id hne]
    exact h.get next (List.mem_cons_of_mem _ hnext)
  · exact (h.claimable next (List.mem_cons_of_mem _ hnext)).mono hothers.clock

/-- An image of the queue is claimed. It could be claimed when the queue
was listed, and still can; the other images keep their status. -/
theorem exec_claim {c : Choice} {r : Except Exn (Option ImageRecord)}
    (hget : w.db.images.get? image.id = some image) (hclaimable : image.Claimable w.clock)
    (h : CycleWorld.exec settings outcome w (.claimForAnalysis image.id) c = some (w', r)) :
    r = .ok (some (Db.claimed c.now image)) ∧ AtHand image.id .processing w'
      ∧ (outcome image.id).allowsClaim r = true ∧ KeepsOthers image.id w w' := by
  obtain ⟨hexec, hnote, -, hallows⟩ := CycleWorld.exec_spec h
  have hcurrent : w'.current = some image.id := by rw [hnote]; rfl
  obtain ⟨claimed, rfl⟩ := CycleWorld.exec_required h rfl
  obtain ⟨hpossible, ⟨-, e, he⟩ | ⟨-, hperform⟩⟩ := World.exec_eq hexec
  · exact absurd he (by simp)
  · have hnow : image.Claimable c.now := hclaimable.mono hpossible.1
    obtain ⟨db, hclaim⟩ := Db.claimForAnalysis_of_claimable hget hnow
    change (w.toWorld.started c).writeRow? (.ok (w.db.claimForAnalysis c.now image.id)) = _
      at hperform
    rw [hclaim] at hperform
    obtain ⟨hworld, hr⟩ := Prod.mk.inj hperform
    obtain ⟨old, hold, -, -, hwrites⟩ := Db.claimForAnalysis_spec hclaim
    refine ⟨hr.symm, ⟨hcurrent, ?_⟩, hallows image.id hcurrent,
      KeepsOthers.exec (by exact ⟨fun _ hj => hj, by simp⟩) (.refl _ w) h⟩
    rw [← hworld]
    exact World.statusOf_write hwrites (fun _ => rfl) (by unfold World.statusOf; rw [hget]; simp)

/-- What a cycle leaves of its images: those that are done are settled,
those that are not are as they were listed. -/
structure Cycled (outcome : UUID → ImageOutcome) (images : List ImageRecord) (w : CycleWorld)
    (results : List PendingImageResult) (w' : CycleWorld) : Prop where
  results : results = images.map fun image => (outcome image.id).result image
  queue : w'.queue = w.queue
  caught : ∀ image ∈ images, ¬ (outcome image.id).Escapes
  status : ∀ image ∈ images, w'.toWorld.statusOf image.id = some (outcome image.id).status
  others : ∀ j, j ∉ images.map ImageRecord.id → w'.db.images.get? j = w.db.images.get? j

/-- **The loop over the queue** leaves every image as its outcome has it,
or the exception of one of them escapes. Then what came before it in the
queue is done, and what comes after it is still pending, which is why the
cycle is to blame. -/
theorem establishes_processImages (models : List String) (modelId : String)
    {images : List ImageRecord} (hw : Queued images w) :
    Establishes settings outcome (processImages models modelId images)
      (fun results w' => Cycled outcome images w results w')
      (fun _ w' => w'.queue = w.queue ∧ ∃ image ∈ images, (outcome image.id).Escapes) w := by
  induction images generalizing w with
  | nil =>
    exact ⟨rfl, rfl, fun _ h => absurd h List.not_mem_nil, fun _ h => absurd h List.not_mem_nil,
      fun _ _ => rfl⟩
  | cons image images ih =>
    refine Program.wlp_bind.mpr (Program.wlp_perform fun c w₁ r h => ?_)
    obtain ⟨rfl, hat, hallows, hothers⟩ :=
      exec_claim (hw.get image List.mem_cons_self) (hw.claimable image List.mem_cons_self) h
    refine ⟨fun claimed hclaimed => ?_, fun e he => absurd he (by simp)⟩
    obtain rfl := Except.ok.inj hclaimed
    -- the other images are as they were, whatever becomes of this one
    have hframe : Establishes settings outcome
        (analyzeOne (Db.claimed c.now image) (chosenModel (Db.claimed c.now image) models modelId))
        (fun _ => KeepsOthers image.id w) (fun _ => KeepsOthers image.id w) w₁ :=
      Program.wlp_of_calls (fun _ hop _ _ _ _ hw h => hw.exec hop h)
        (calls_analyzeOne_own _) hothers
    refine Program.wlp_bind.mpr (Program.wlp_mono
      (Program.wlp_and (establishes_analyzeOne _ hallows hat) hframe) (fun result w₂ h => ?_)
      fun e w₂ h => ⟨h.2.queue, image, List.mem_cons_self, h.1⟩)
    obtain ⟨⟨hcaught, hresult, hsettled⟩, hothers₂⟩ := h
    refine Program.wlp_bind.mpr (Program.wlp_mono (ih (hw.tail hothers₂))
      (fun results w₃ h => ?_) fun e w₃ h => ?_)
    · obtain ⟨hnotin, -⟩ := List.nodup_cons.mp hw.nodup
      refine ⟨?_, h.queue.trans hothers₂.queue, ?_, ?_, fun j hj => ?_⟩
      · rw [h.results, hresult, ImageOutcome.result_claimed]
        rfl
      · exact List.forall_mem_cons.mpr ⟨hcaught, h.caught⟩
      · refine List.forall_mem_cons.mpr ⟨?_, h.status⟩
        unfold World.statusOf
        rw [h.others image.id hnotin]
        exact hsettled.2
      · rw [List.map_cons, List.mem_cons, not_or] at hj
        rw [h.others j hj.2, hothers₂.images j hj.1]
    · obtain ⟨hqueue, next, hnext, hescapes⟩ := h
      exact ⟨hqueue.trans hothers₂.queue, next, List.mem_cons_of_mem _ hnext, hescapes⟩

/-- The queue as it is listed. What is listed is remembered, because the
result of the cycle is compared with it after all images have left the
queue. -/
theorem exec_listPendingImages {c : Choice} {r : Except Exn (List ImageRecord)}
    (h : CycleWorld.exec settings outcome w .listPendingImages c = some (w', r)) :
    r = .ok w'.queue ∧ Queued w'.queue w' := by
  obtain ⟨hexec, hnote, -, -⟩ := CycleWorld.exec_spec h
  obtain ⟨images, rfl⟩ := CycleWorld.exec_required h rfl
  obtain ⟨-, ⟨-, e, he⟩ | ⟨-, hperform⟩⟩ := World.exec_eq hexec
  · exact absurd he (by simp)
  · obtain ⟨hworld, hr⟩ := Prod.mk.inj hperform
    have himages : images = w.db.listPendingImages c.now := (Except.ok.inj hr).symm
    have hqueue : w'.queue = images := by rw [hnote]; rfl
    have hmem : ∀ image ∈ w.db.listPendingImages c.now,
        image ∈ w.db.images.rows ∧ image.Claimable c.now := fun _ himage =>
      Db.mem_listPendingImages.mp himage
    rw [hqueue, himages]
    refine ⟨rfl, ?_, fun image himage => ?_, fun image himage => ?_⟩
    · refine ((perm_orderBy _ _).map ImageRecord.id).nodup_iff.mpr ?_
      exact w.db.images.nodup.sublist (List.filter_sublist.map _)
    · rw [← hworld]
      exact Table.get?_eq_some_iff.mpr ⟨(hmem image himage).1, rfl⟩
    · rw [← hworld]
      exact (hmem image himage).2

/-- One result for each image of the queue, in its order, and each image
as its own outcome has it. So the outcome of one image has no influence on
another: neither on what is reported of it nor on the status in which it
ends. -/
def Settles (outcome : UUID → ImageOutcome) (w : CycleWorld)
    (r : Except Exn (List PendingImageResult)) : Prop :=
  r = .ok (w.queue.map fun image => (outcome image.id).result image)
    ∧ ∀ image ∈ w.queue, w.toWorld.statusOf image.id = some (outcome image.id).status

theorem establishes_processPending (w : World) :
    Establishes settings outcome (processPending settings)
      (fun results w' => Settles outcome w' (.ok results)
        ∧ ∀ image ∈ w'.queue, ¬ (outcome image.id).Escapes)
      (fun _ w' => ∃ image ∈ w'.queue, (outcome image.id).Escapes) (CycleWorld.start w) := by
  have hnothing : ∀ w' : CycleWorld, w'.queue = [] → Settles outcome w' (.ok [])
      ∧ ∀ image ∈ w'.queue, ¬ (outcome image.id).Escapes := by
    intro w' hqueue
    unfold Settles
    rw [hqueue]
    exact ⟨⟨rfl, fun _ h => absurd h List.not_mem_nil⟩, fun _ h => absurd h List.not_mem_nil⟩
  refine Program.wlp_bind.mpr (establishes_attempt.mpr (Program.wlp_perform fun c w₁ r h => ?_))
  have hqueue : w₁.queue = [] := by
    rw [(CycleWorld.exec_spec h).2.1, CycleWorld.queue_note (by simp)]
    rfl
  refine ⟨fun models _ => ?_, fun e _ => hnothing w₁ hqueue⟩
  -- without a model nothing is looked at
  cases models with
  | nil => exact hnothing w₁ hqueue
  | cons first models =>
    refine Program.wlp_bind.mpr (Program.wlp_perform fun c w₂ r h => ?_)
    obtain ⟨rfl, hqueued⟩ := exec_listPendingImages h
    refine ⟨fun pending hpending => ?_, fun e he => absurd he (by simp)⟩
    obtain rfl := Except.ok.inj hpending
    refine Program.wlp_mono (establishes_processImages _ _ hqueued) (fun results w₃ h => ?_)
      fun e w₃ h => ?_
    · unfold Settles
      rw [h.queue, h.results]
      exact ⟨⟨rfl, h.status⟩, h.caught⟩
    · rw [h.1]
      exact h.2

/-- **One bad image does not affect the others**: a cycle returns one
result for each image of the queue, and each image ends by its own
outcome, if and only if no image of the queue has a receipt already to
which it cannot be linked. -/
theorem settles_iff {w : World} {cs : List Choice} {w' : CycleWorld}
    {r : Except Exn (List PendingImageResult)}
    (hrun : (processPending settings).run (CycleWorld.exec settings outcome) cs
      (CycleWorld.start w) = some (w', r)) :
    Settles outcome w' r ↔ ∀ image ∈ w'.queue, ¬ (outcome image.id).Escapes := by
  obtain ⟨results, rfl, hsettles, hcaught⟩ | ⟨e, rfl, image, himage, hescapes⟩ :=
    Program.wlp_run (establishes_processPending w) hrun
  · exact iff_of_true hsettles hcaught
  · refine iff_of_false (fun hsettles => absurd hsettles.1 (by simp)) fun hall => ?_
    exact hall image himage hescapes

end Handler

end AnalysisCycle

section TwoImages

local instance asciiFoldingOfCycle : CaseFolding := asciiFolding

/-- Two images in the queue; the receipt of the first one was stored in an
earlier cycle, which could not link it. -/
def twoQueued : Option Db := do
  let (db, _) ← (Db.empty.storeImage 1 1 photo).toOption
  let (db, _) ← (db.storeImage 2 3 photo).toOption
  let (db, _) ← (db.persistReceipt 3 (fun _ => 2) emptyReceipt (some 1) .unverified false
    (some 1)).toOption
  (db.markFailed 1 "Failed to persist receipt: statement failed").toOption

/-- The world with both images. -/
def twoQueuedWorld : World where
  db := twoQueued.getD Db.empty
  files := photoFiles
  clock := 4
  issued := [3, 2, 1]

/-- The first image is linked, or that raises; the analysis of the second
one stops. -/
def twoOutcomes (raised : Option Exn) (i : UUID) : ImageOutcome :=
  if i = 1 then .linked 2 raised else .stopped (.other "no answer")

/-- A cycle in which the choices are these. -/
def twoRun (raised : Option Exn) (cs : List Choice) :
    Option (CycleWorld × Except Exn (List Handler.PendingImageResult)) :=
  (Handler.processPending plainSettings).run (CycleWorld.exec plainSettings (twoOutcomes raised))
    cs (CycleWorld.start twoQueuedWorld)

/-- The first image is linked, the second one fails. -/
def linkingChoices : List Choice :=
  List.replicate 8 (smoothly 5 [])
    ++ [{ smoothly 5 [] with analysis := .error (.other "no answer") }, smoothly 5 []]

/-- The first image cannot be linked. -/
def escapingChoices : List Choice :=
  List.replicate 4 (smoothly 5 []) ++ [{ smoothly 5 [] with failure := some (.db .failed) }]

/-- Both images end by their own outcomes. -/
theorem settles_iff_linking : ∃ w' r, twoRun none linkingChoices = some (w', r)
    ∧ w'.queue.map ImageRecord.id = [1, 3] ∧ Handler.Settles (twoOutcomes none) w' r := by
  obtain ⟨⟨w', r⟩, hrun, hqueue⟩ := (Option.any_eq_true _ _).mp
    (show (twoRun none linkingChoices).any
      (fun out => decide (out.1.queue.map ImageRecord.id = [1, 3]
        ∧ ∀ image ∈ out.1.queue, ¬ (twoOutcomes none image.id).Escapes)) = true by decide +kernel)
  obtain ⟨hids, hcaught⟩ := of_decide_eq_true hqueue
  exact ⟨w', r, hrun, hids, (Handler.settles_iff hrun).mpr hcaught⟩

/-- **A receipt that cannot be linked ends the cycle**, and nothing is
returned for the image behind it. The image has a receipt already, and the
statement that links it stands outside of every `try`. -/
theorem escaping_not_settles : ∃ w' r, twoRun (some (.db .failed)) escapingChoices = some (w', r)
    ∧ w'.queue.map ImageRecord.id = [1, 3]
    ∧ ¬ Handler.Settles (twoOutcomes (some (.db .failed))) w' r := by
  obtain ⟨⟨w', r⟩, hrun, hout⟩ := (Option.any_eq_true _ _).mp
    (show (twoRun (some (.db .failed)) escapingChoices).any
      (fun out => decide (out.1.queue.map ImageRecord.id = [1, 3] ∧ out.2.isOk = false)) = true
      by decide +kernel)
  obtain ⟨hids, hraised⟩ := of_decide_eq_true hout
  refine ⟨w', r, hrun, hids, fun hsettles => ?_⟩
  rw [hsettles.1] at hraised
  exact absurd hraised (by simp [Except.isOk, Except.toBool])

end TwoImages

end VisionBill
