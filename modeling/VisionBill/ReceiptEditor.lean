import VisionBill.Lib.Transition
import VisionBill.Database
import VisionBill.Money
import Mathlib.Logic.Function.Basic

/-!
# Categories in the receipt editor

When an input of the editor loses the focus, the server is asked which
category was last given to the item, and the answers arrive in any order,
while the user edits on. A line counts its lookups and edits, the editor
counts the changes of the merchant, and an answer is used only if both
counts are still those of its lookup.

So an answer that is used belongs to the last lookup of its line, and
nothing it depends on was edited since (`Undisturbed`). A category that
came from an answer is the one for the texts in the form, or an edit has
taken it back; one that the user chose stays (`late_answers_never_win`).

## What the editor is here

Its lines are objects: the form has a list of them, and the requests that
are on their way refer to them too, so that an answer may concern a line
which is no longer in the form. The state therefore has a store of lines
beside the list. The two effects of the component run at any time after
the page has changed what it passes, and are steps like the actions of the
user.

## What has happened

What is to be said of a line speaks of the past: which category the user
chose last, to which texts an answer was given, what was edited since. The
state of the editor does not have all of it, so what happens is recorded
beside it, and the record is read by functions of its own (`lastChoice`,
`origin`). No step looks at it. The invariant relates the two, line by
line (`LineInv`) and lookup by lookup (`LookupInv`); a version of a line
is never used twice, which is why a lookup with the version of its line
must be the last one.
-/

namespace VisionBill

/-! ## The form

The state has the lines, the lookups that wait for an answer, and counters
that say whether an answer is still wanted. Lines are objects in the
source and have identities here, so that an answer can meet a line that
was removed. -/

/-- `EditorLine`, without the fields that do not matter for the
category. -/
structure EditorLine where
  description : String
  spendingCategory : String
  categorySource : CategorySource
  manualChoice : Bool
  rememberCategory : Bool
  suggestion : Option String
  lookupVersion : ℕ
  deriving DecidableEq, Repr

/-- `LineItemRow`, likewise. -/
structure LineItemRow where
  description : String
  spendingCategory : Option String
  categorySource : Option CategorySource

/-- `CategorySuggestion`: a category from the history, or none. It is what
a lookup is answered with. -/
structure CategorySuggestion where
  category : Option String
  fromHistory : Bool
  deriving DecidableEq, Repr

/-- The category of a reply that is from the history, if it has one. Any
other reply leaves the line as it is. -/
def CategorySuggestion.used? (reply : CategorySuggestion) : Option String :=
  if reply.fromHistory then reply.category.filter (· ≠ "") else none

/-- What the editor gets from the page. The revision tells it that the
same receipt has been loaded once more. -/
structure EditorProps where
  receiptId : String
  revision : ℤ
  savedRevision : ℤ
  merchantName : String
  lineItems : List LineItemRow

/-- A lookup that waits for its answer. It remembers for which texts and
versions it was sent, and the answer is dropped if one of them is no
longer current. -/
structure CategoryLookup where
  line : ℕ
  description : String
  merchant : String
  version : ℕ
  merchantVersion : ℕ
  receiptId : String
  deriving DecidableEq, Repr

/-- What has happened. A choice of the user that was made before, and
comes with the receipt, counts as one. -/
inductive EditorEvent
  | chosen (line : ℕ) (category : String)
  | described (line : ℕ)
  | merchantChanged
  | reloaded
  | sent (lookup : CategoryLookup)
  | answered (lookup : CategoryLookup) (reply : Option CategorySuggestion)
  | filled (lookup : CategoryLookup) (category : String)
  deriving DecidableEq, Repr

/-- The editor. Lines are objects, which the form and the lookups refer
to. -/
structure Editor where
  props : EditorProps
  initializedReceiptId : Option String
  initializedRevision : ℤ
  initializedSavedRevision : ℤ
  merchantVersion : ℕ
  merchantName : String
  lines : List ℕ
  objects : ℕ → EditorLine
  /-- The next object. -/
  next : ℕ
  pending : List CategoryLookup
  /-- What has happened, the latest first. -/
  history : List EditorEvent

/-- `s.trim()`. -/
def trimmed (s : String) : String := String.ofList (jsTrim s.toList)

namespace EditorLine

/-- A line of `buildForm`. A category that the user has chosen before
counts as chosen by hand. -/
def ofRow (row : LineItemRow) : EditorLine where
  description := row.description
  spendingCategory := row.spendingCategory.getD "unknown"
  categorySource := row.categorySource.getD .unknown
  manualChoice := row.categorySource = some .user
  rememberCategory := false
  suggestion := none
  lookupVersion := 0

/-- The line of `addLine`. Nothing has been chosen for it, so that the
history may fill in its category. -/
def blank : EditorLine where
  description := ""
  spendingCategory := "unknown"
  categorySource := .unknown
  manualChoice := false
  rememberCategory := false
  suggestion := none
  lookupVersion := 0

/-- `clearHistoryCategory`: a category from an answer is taken back, one
that the user chose is left, and older lookups do not count any more. -/
def clearHistoryCategory (line : EditorLine) : EditorLine :=
  let line := if line.manualChoice = false ∧ line.categorySource = .history then
    { line with spendingCategory := "unknown", categorySource := .unknown } else line
  { line with suggestion := none, lookupVersion := line.lookupVersion + 1 }

@[simp] theorem clearHistoryCategory_manualChoice (line : EditorLine) :
    line.clearHistoryCategory.manualChoice = line.manualChoice := by
  unfold clearHistoryCategory
  dsimp only
  split <;> rfl

@[simp] theorem clearHistoryCategory_lookupVersion (line : EditorLine) :
    line.clearHistoryCategory.lookupVersion = line.lookupVersion + 1 := by
  unfold clearHistoryCategory
  dsimp only
  split <;> rfl

/-- `changeDescription`. -/
def changeDescription (description : String) (line : EditorLine) : EditorLine :=
  { line.clearHistoryCategory with rememberCategory := false, description := description }

/-- What `changeMerchant` does to a line. -/
def changeMerchant (line : EditorLine) : EditorLine :=
  { line.clearHistoryCategory with rememberCategory := false }

/--`selectCategory`. A choice by hand is to be remembered, and no
suggestion stands beside it any more.-/
def selectCategory (category : String) (line : EditorLine) : EditorLine :=
  { line with
    spendingCategory := category
    categorySource := .user
    manualChoice := true
    rememberCategory := true
    suggestion := none }

/-- What an answer does to a line. Where the user has chosen, it is shown
as a suggestion, and the category stays. -/
def suggest (category : String) (line : EditorLine) : EditorLine :=
  if line.manualChoice then
    { line with suggestion := if category = line.spendingCategory then none else some category }
  else { line with spendingCategory := category, categorySource := .history, suggestion := none }

end EditorLine

namespace Editor

/-- A line of the form is written to. It may have been removed, and is
written to nevertheless. -/
def write (s : Editor) (line : ℕ) (f : EditorLine → EditorLine) : Editor :=
  { s with objects := Function.update s.objects line (f (s.objects line)) }

/-- Something has happened. -/
def log (s : Editor) (event : EditorEvent) : Editor := { s with history := event :: s.history }

/-- A new line at the end of the form. One that is loaded may have a
category that the user chose before. -/
def push (s : Editor) (line : EditorLine) : Editor :=
  let s' := { s with
    lines := s.lines ++ [s.next]
    objects := Function.update s.objects s.next line
    next := s.next + 1 }
  if line.manualChoice then s'.log (.chosen s.next line.spendingCategory) else s'

/-- `addLine`. -/
def addLine (s : Editor) : Editor := s.push .blank

/-- `removeLine`. -/
def removeLine (s : Editor) (index : ℕ) : Editor := { s with lines := s.lines.eraseIdx index }

/-- `changeDescription`. -/
def changeDescription (s : Editor) (line : ℕ) (description : String) : Editor :=
  (s.write line (EditorLine.changeDescription description)).log (.described line)

/--`changeMerchant`. A category that came from the history of the old
merchant is dropped in every line.-/
def changeMerchant (s : Editor) (merchant : String) : Editor :=
  { s with
    merchantVersion := s.merchantVersion + 1
    merchantName := merchant
    objects := fun line =>
      if line ∈ s.lines then (s.objects line).changeMerchant else s.objects line
    history := .merchantChanged :: s.history }

/-- `selectCategory`. -/
def selectCategory (s : Editor) (line : ℕ) (category : String) : Editor :=
  (s.write line (EditorLine.selectCategory category)).log (.chosen line category)

/-- The lookup that is sent for a line. Texts are trimmed, and the version
is the one that the line is about to get. -/
def lookupOf (s : Editor) (line : ℕ) : CategoryLookup where
  line := line
  description := trimmed (s.objects line).description
  merchant := trimmed s.merchantName
  version := (s.objects line).lookupVersion + 1
  merchantVersion := s.merchantVersion
  receiptId := s.props.receiptId

/-- `lookupCategory`, up to the request. Without a description or a
merchant nothing is sent. -/
def lookupCategory (s : Editor) (line : ℕ) : Editor :=
  if (s.lookupOf line).description = "" ∨ (s.lookupOf line).merchant = "" then s
  else
    let s' := s.write line fun l => { l with lookupVersion := l.lookupVersion + 1 }
    { s' with
      pending := s.pending ++ [s.lookupOf line]
      history := .sent (s.lookupOf line) :: s.history }

/-- Nothing has overtaken a lookup. The texts are compared besides the
versions. -/
def Current (s : Editor) (lookup : CategoryLookup) : Prop :=
  (s.objects lookup.line).lookupVersion = lookup.version
    ∧ s.merchantVersion = lookup.merchantVersion
    ∧ s.props.receiptId = lookup.receiptId
    ∧ lookup.line ∈ s.lines
    ∧ trimmed (s.objects lookup.line).description = lookup.description
    ∧ trimmed s.merchantName = lookup.merchant

instance (s : Editor) (lookup : CategoryLookup) : Decidable (s.Current lookup) := by
  unfold Current
  infer_instance

/-- `lookupCategory`, once the answer is there; a request that failed has
none. Any of the lookups that wait may be the next to be answered. -/
def receive (s : Editor) (index : ℕ) (reply : Option CategorySuggestion) : Option Editor :=
  s.pending[index]?.map fun lookup =>
    let s' := { s with pending := s.pending.eraseIdx index }.log (.answered lookup reply)
    if s.Current lookup then
      match reply.bind CategorySuggestion.used? with
      | none => s'
      | some category =>
        let s'' := s'.write lookup.line (EditorLine.suggest category)
        if (s.objects lookup.line).manualChoice then s'' else s''.log (.filled lookup category)
    else s'

/-- The lines of `buildForm`. -/
def build (s : Editor) : Editor := (s.props.lineItems.map EditorLine.ofRow).foldl push s

/-- The effect that loads the form again. Lookups that are still pending
were sent for another merchant version, so their answers are dropped. -/
def reload (s : Editor) : Editor :=
  if some s.props.receiptId ≠ s.initializedReceiptId ∨ s.props.revision ≠ s.initializedRevision then
    build { s with
      initializedReceiptId := some s.props.receiptId
      initializedRevision := s.props.revision
      merchantVersion := s.merchantVersion + 1
      merchantName := s.props.merchantName
      lines := []
      history := .reloaded :: s.history }
  else s

/-- The effect that forgets what was to be remembered, once it is
saved. -/
def forget (s : Editor) : Editor :=
  if s.props.savedRevision ≠ s.initializedSavedRevision then
    { s with
      initializedSavedRevision := s.props.savedRevision
      objects := fun line =>
        if line ∈ s.lines then { s.objects line with rememberCategory := false }
        else s.objects line }
  else s

/-- The editor when it is mounted. The lines are those of the receipt, but
nothing counts as initialised, so the first effect loads the form once
more. -/
def mount (props : EditorProps) : Editor :=
  build
    { props := props
      initializedReceiptId := none
      initializedRevision := -1
      initializedSavedRevision := 0
      merchantVersion := 0
      merchantName := props.merchantName
      lines := []
      objects := fun _ => .blank
      next := 0
      pending := []
      history := [] }

end Editor

/-- What can happen to the editor: the page passes something else, an
effect runs, the user does something, or an answer arrives. -/
inductive EditorAction
  | rerender (props : EditorProps)
  | reload
  | forget
  | addLine
  | removeLine (index : ℕ)
  | changeDescription (line : ℕ) (description : String)
  | changeMerchant (merchant : String)
  | selectCategory (line : ℕ) (category : String)
  | blurDescription (line : ℕ)
  | blurMerchant
  | receive (index : ℕ) (reply : Option CategorySuggestion)

/-- One step of the editor. The handlers of a line may still be called
when the line has been removed. -/
def Editor.step (s : Editor) : EditorAction → Option Editor
  | .rerender props => some { s with props := props }
  | .reload => some s.reload
  | .forget => some s.forget
  | .addLine => some s.addLine
  | .removeLine index => some (s.removeLine index)
  | .changeDescription line description =>
    if line < s.next then some (s.changeDescription line description) else none
  | .changeMerchant merchant => some (s.changeMerchant merchant)
  | .selectCategory line category =>
    if line < s.next then some (s.selectCategory line category) else none
  | .blurDescription line => if line < s.next then some (s.lookupCategory line) else none
  | .blurMerchant => some (s.lines.foldl Editor.lookupCategory s)
  | .receive index reply => s.receive index reply

/-! ## What has happened to a line

The invariant is about the past: which choices the user has made for a
line, and which lookups were sent for it. The history records that, and
the program does not read it. -/

namespace EditorEvent

/-- The line that an event is about. -/
def line? : EditorEvent → Option ℕ
  | .chosen line _ | .described line => some line
  | .sent lookup | .answered lookup _ | .filled lookup _ => some lookup.line
  | .merchantChanged | .reloaded => none

/-- The category that the user chose last for a line. -/
def lastChoice (line : ℕ) : List EditorEvent → Option String
  | [] => none
  | .chosen l category :: history => if l = line then some category else lastChoice line history
  | _ :: history => lastChoice line history

/-- What became of a category that came from an answer: it is still there,
or an edit has taken it back. -/
inductive Origin
  | answer (lookup : CategoryLookup) (category : String)
  /-- An edit has taken it back. -/
  | takenBack
  deriving DecidableEq, Repr

/-- What a line has from answers, by what has happened. Choices of the
user are not looked at here; they go before. -/
def origin (line : ℕ) : List EditorEvent → Option Origin
  | [] => none
  | .filled lookup category :: history =>
    if lookup.line = line then some (.answer lookup category) else origin line history
  | .described l :: history =>
    if l = line then (origin line history).map fun _ => .takenBack else origin line history
  | .merchantChanged :: history => (origin line history).map fun _ => .takenBack
  | _ :: history => origin line history

/-- What an origin says of the line: its category is that of a reply to
the texts that are in the form, or `unknown`. The lookup may have been
sent long ago. What matters is that the texts it was sent with are those
of the line and the merchant now. -/
def Origin.Fits (history : List EditorEvent) (merchantName : String) (line : EditorLine) :
    Origin → Prop
  | .answer lookup category => line.spendingCategory = category
    ∧ lookup.description = trimmed line.description ∧ lookup.merchant = trimmed merchantName
    ∧ ∃ reply : CategorySuggestion, reply.used? = some category
      ∧ .answered lookup (some reply) ∈ history
  | .takenBack => line.spendingCategory = "unknown"

/-- After this event, older lookups of a line do not count any more. -/
def Overtakes (line : ℕ) : EditorEvent → Prop
  | .described l => l = line
  | .sent lookup => lookup.line = line
  | .merchantChanged | .reloaded => True
  | .chosen _ _ | .answered _ _ | .filled _ _ => False

/-- An event by which the category of a line changes, or what it came
from. -/
def Concerns (line : ℕ) : EditorEvent → Prop
  | .chosen l _ | .described l => l = line
  | .filled lookup _ => lookup.line = line
  | .merchantChanged => True
  | .reloaded | .sent _ | .answered _ _ => False

/-- Since a lookup was sent, no other one was sent for its line, and
neither the description nor the merchant was edited, nor the form loaded
again. -/
def Undisturbed (lookup : CategoryLookup) (history : List EditorEvent) : Prop :=
  ∃ newer older, history = newer ++ .sent lookup :: older ∧ ∀ e ∈ newer, ¬ e.Overtakes lookup.line

/-- Every answer that was used was that of an undisturbed lookup, when it
was used. It is a property of the history, and speaks of no version
numbers. -/
def UsesUndisturbed : List EditorEvent → Prop
  | [] => True
  | .filled lookup _ :: history => Undisturbed lookup history ∧ UsesUndisturbed history
  | _ :: history => UsesUndisturbed history

variable {line : ℕ} {e : EditorEvent} {history : List EditorEvent}

/-- What does not concern a line leaves its last choice. -/
theorem lastChoice_cons (h : ¬ e.Concerns line) :
    lastChoice line (e :: history) = lastChoice line history := by
  cases e with
  | chosen l category => exact if_neg h
  | _ => rfl

/-- And what it has from answers. -/
theorem origin_cons (h : ¬ e.Concerns line) : origin line (e :: history) = origin line history := by
  cases e with
  | filled lookup category => exact if_neg h
  | described l => exact if_neg h
  | merchantChanged => exact absurd trivial h
  | _ => rfl

/-- Nothing is known of a line that no event is about. A new line is one
of these, since its number has not been given before. -/
theorem unknown_of_not_mem (h : ∀ e ∈ history, e.line? ≠ some line) :
    lastChoice line history = none ∧ origin line history = none := by
  induction history with
  | nil => exact ⟨rfl, rfl⟩
  | cons e history ih =>
    obtain ⟨hchoice, horigin⟩ := ih fun e' he' => h e' (List.mem_cons_of_mem e he')
    have hline := h e List.mem_cons_self
    by_cases hconcerns : e.Concerns line
    · cases e with
      | merchantChanged => exact ⟨hchoice, by unfold origin; rw [horigin]; rfl⟩
      | chosen l category => exact absurd (congrArg some hconcerns) hline
      | described l => exact absurd (congrArg some hconcerns) hline
      | filled lookup category => exact absurd (congrArg some hconcerns) hline
      | _ => exact hconcerns.elim
    · exact ⟨(lastChoice_cons hconcerns).trans hchoice, (origin_cons hconcerns).trans horigin⟩

theorem Undisturbed.cons {lookup : CategoryLookup} (h : Undisturbed lookup history)
    (he : ¬ e.Overtakes lookup.line) : Undisturbed lookup (e :: history) := by
  obtain ⟨newer, older, rfl, hnewer⟩ := h
  exact ⟨e :: newer, older, rfl, List.forall_mem_cons.mpr ⟨he, hnewer⟩⟩

theorem Origin.Fits.cons {o : Origin} {merchantName : String} {l : EditorLine}
    (h : o.Fits history merchantName l) : o.Fits (e :: history) merchantName l := by
  cases o with
  | answer lookup category =>
    obtain ⟨hcategory, hdescription, hmerchant, reply, hused, hmem⟩ := h
    exact ⟨hcategory, hdescription, hmerchant, reply, hused, List.mem_cons_of_mem e hmem⟩
  | takenBack => exact h

/-- Where a category from an origin is said to come from. -/
def Origin.source : Origin → CategorySource
  | .answer _ _ => .history
  | .takenBack => .unknown

end EditorEvent

open EditorEvent

/-! ## One line

For a single line it is said where its category has come from: the last
choice by hand, the last answer that was used, or nothing at all. -/

/-- What is so of a line in the form: its fields say what has happened to
it. -/
structure LineInv (history : List EditorEvent) (merchantName : String) (ref : ℕ)
    (line : EditorLine) : Prop where
  chosen : ∀ c, lastChoice ref history = some c →
    line.manualChoice = true ∧ line.spendingCategory = c
  free : lastChoice ref history = none → line.manualChoice = false
  origin : lastChoice ref history = none → ∀ o, origin ref history = some o →
    o.Fits history merchantName line ∧ line.categorySource = o.source

/-- Two states of a line with the same texts and the same category. What
else a line has may differ: its version, its suggestion, and whether its
category is to be remembered. -/
structure EditorLine.Same (line line' : EditorLine) : Prop where
  description : line'.description = line.description
  spendingCategory : line'.spendingCategory = line.spendingCategory
  categorySource : line'.categorySource = line.categorySource
  manualChoice : line'.manualChoice = line.manualChoice

namespace LineInv

variable {history : List EditorEvent} {merchantName : String} {ref : ℕ} {line line' : EditorLine}
  {e : EditorEvent}

theorem same (h : LineInv history merchantName ref line) (hsame : line.Same line') :
    LineInv history merchantName ref line' := by
  refine ⟨fun c hc => ?_, fun hnone => ?_, fun hnone o ho => ?_⟩
  · rw [hsame.manualChoice, hsame.spendingCategory]
    exact h.chosen c hc
  · rw [hsame.manualChoice]
    exact h.free hnone
  · obtain ⟨hfits, hsource⟩ := h.origin hnone o ho
    refine ⟨?_, hsame.categorySource.trans hsource⟩
    cases o with
    | answer lookup category =>
      unfold Origin.Fits at hfits ⊢
      rwa [hsame.spendingCategory, hsame.description]
    | takenBack => exact hsame.spendingCategory.trans hfits

/-- What happens to others. -/
theorem cons (h : LineInv history merchantName ref line) (he : ¬ e.Concerns ref) :
    LineInv (e :: history) merchantName ref line := by
  refine ⟨fun c hc => h.chosen c ((lastChoice_cons he).symm.trans hc),
    fun hnone => h.free ((lastChoice_cons he).symm.trans hnone), fun hnone o ho => ?_⟩
  obtain ⟨hfits, hsource⟩ := h.origin ((lastChoice_cons he).symm.trans hnone) o
    ((origin_cons he).symm.trans ho)
  exact ⟨hfits.cons, hsource⟩

/-- A line that nothing has happened to. -/
theorem unknown (hknown : ∀ e ∈ history, e.line? ≠ some ref) (hline : line.manualChoice = false) :
    LineInv history merchantName ref line := by
  obtain ⟨hchoice, horigin⟩ := unknown_of_not_mem hknown
  refine ⟨fun c hc => absurd (hchoice.symm.trans hc) (by simp), fun _ => hline, fun _ o ho => ?_⟩
  exact absurd (horigin.symm.trans ho) (by simp)

/-- The user chooses. -/
theorem select (category : String) (hmanual : line.manualChoice = true)
    (hcategory : line.spendingCategory = category) :
    LineInv (.chosen ref category :: history) merchantName ref line := by
  have hchoice : lastChoice ref (.chosen ref category :: history) = some category := if_pos rfl
  refine ⟨fun c hc => ?_, fun hnone => absurd (hchoice.symm.trans hnone) (by simp),
    fun hnone => absurd (hchoice.symm.trans hnone) (by simp)⟩
  rw [hchoice] at hc
  exact ⟨hmanual, hcategory.trans (Option.some.inj hc)⟩

/-- **An edit takes back** what came from an answer, whatever is edited.
The choice of the user, if there is one, stays; only what a lookup has
filled in goes. -/
theorem edit (h : LineInv history merchantName ref line) (merchantName' : String)
    (he : lastChoice ref (e :: history) = lastChoice ref history)
    (horigin : EditorEvent.origin ref (e :: history)
      = (EditorEvent.origin ref history).map fun _ => .takenBack)
    (hmanual : line'.manualChoice = line.manualChoice)
    (hcategory : line'.spendingCategory = line.clearHistoryCategory.spendingCategory)
    (hsource : line'.categorySource = line.clearHistoryCategory.categorySource) :
    LineInv (e :: history) merchantName' ref line' := by
  refine ⟨fun c hc => ?_, fun hnone => ?_, fun hnone o ho => ?_⟩
  · obtain ⟨hchosen, hc⟩ := h.chosen c (he.symm.trans hc)
    have hclear : ¬ (line.manualChoice = false ∧ line.categorySource = .history) := by
      rw [hchosen]
      simp
    refine ⟨hmanual.trans hchosen, ?_⟩
    rw [hcategory]
    unfold EditorLine.clearHistoryCategory
    rw [if_neg hclear]
    exact hc
  · rw [hmanual]
    exact h.free (he.symm.trans hnone)
  · rw [horigin] at ho
    obtain ⟨old, hold, rfl⟩ := Option.map_eq_some_iff.mp ho
    have hfree := h.free (he.symm.trans hnone)
    obtain ⟨hfits, hold⟩ := h.origin (he.symm.trans hnone) old hold
    show line'.spendingCategory = "unknown" ∧ line'.categorySource = .unknown
    rw [hcategory, hsource]
    unfold EditorLine.clearHistoryCategory
    -- an answer is taken back now, or has been before
    cases old with
    | answer lookup category =>
      rw [if_pos ⟨hfree, hold⟩]
      exact ⟨rfl, rfl⟩
    | takenBack =>
      have hclear : ¬ (line.manualChoice = false ∧ line.categorySource = .history) := by
        rw [hold]
        simp [Origin.source]
      rw [if_neg hclear]
      exact ⟨hfits, hold⟩

/-- **An answer that is used** is one to the texts in the form. The line
was not chosen by hand, and description and merchant are those that the
lookup was sent with. -/
theorem fill {lookup : CategoryLookup} {category : String} {reply : CategorySuggestion}
    (h : LineInv history merchantName lookup.line line) (hmanual : line.manualChoice = false)
    (hdescription : trimmed line.description = lookup.description)
    (hmerchant : trimmed merchantName = lookup.merchant) (hused : reply.used? = some category)
    (hmem : .answered lookup (some reply) ∈ history) :
    LineInv (.filled lookup category :: history) merchantName lookup.line
      (line.suggest category) := by
  have hsuggest : line.suggest category
      = { line with
          spendingCategory := category, categorySource := .history, suggestion := none } :=
    if_neg (by simp [hmanual])
  have horigin : EditorEvent.origin lookup.line (.filled lookup category :: history)
      = some (.answer lookup category) := if_pos rfl
  rw [hsuggest]
  refine ⟨fun c hc => ?_, fun _ => hmanual, fun _ o ho => ?_⟩
  · have hchosen := (h.chosen c hc).1
    exact absurd (hmanual.symm.trans hchosen) (by simp)
  · rw [horigin] at ho
    obtain rfl := Option.some.inj ho
    exact ⟨⟨rfl, hdescription.symm, hmerchant.symm, reply, hused, List.mem_cons_of_mem _ hmem⟩, rfl⟩

end LineInv

/-! ## The whole editor

Each action touches one line or loads the form again. What has to be shown
of an answer is that it was asked for with the texts that the line has
now. -/

namespace Editor

/-- What is so of a lookup that waits for its answer: if its version is
still that of its line, it is the last one and undisturbed. -/
structure LookupInv (s : Editor) (lookup : CategoryLookup) : Prop where
  line_lt : lookup.line < s.next
  version_le : lookup.version ≤ (s.objects lookup.line).lookupVersion
  merchantVersion_le : lookup.merchantVersion ≤ s.merchantVersion
  undisturbed : lookup.version = (s.objects lookup.line).lookupVersion →
    lookup.merchantVersion = s.merchantVersion → Undisturbed lookup s.history

/-- What is so of the editor, whatever the user and the server do. Each
line and each pending lookup has its own invariant, and the history shows
that no answer has disturbed the user. -/
structure Inv (s : Editor) : Prop where
  lines_lt : ∀ l ∈ s.lines, l < s.next
  history_lt : ∀ e ∈ s.history, ∀ l ∈ e.line?, l < s.next
  line : ∀ l ∈ s.lines, LineInv s.history s.merchantName l (s.objects l)
  lookup : ∀ p ∈ s.pending, s.LookupInv p
  uses : UsesUndisturbed s.history

variable {s : Editor}

theorem uses_cons {e : EditorEvent} {history : List EditorEvent} (h : UsesUndisturbed history)
    (he : ∀ lookup category, e ≠ .filled lookup category) : UsesUndisturbed (e :: history) := by
  cases e with
  | filled lookup category => exact absurd rfl (he lookup category)
  | _ => exact h

/-- A lookup that is left alone. Its versions are those of the line and of
the merchant still, and what has happened since has not overtaken it. -/
theorem LookupInv.frame {s' : Editor} {p : CategoryLookup} (h : s.LookupInv p)
    (hnext : s.next ≤ s'.next)
    (hversion : (s'.objects p.line).lookupVersion = (s.objects p.line).lookupVersion)
    (hmerchant : s'.merchantVersion = s.merchantVersion)
    (hhistory : s'.history = s.history
      ∨ ∃ e, s'.history = e :: s.history ∧ ¬ e.Overtakes p.line) : s'.LookupInv p := by
  refine ⟨h.line_lt.trans_le hnext, hversion ▸ h.version_le, hmerchant ▸ h.merchantVersion_le,
    fun heq hmerchant' => ?_⟩
  rw [hversion] at heq
  rw [hmerchant] at hmerchant'
  have hundisturbed := h.undisturbed heq hmerchant'
  obtain hsame | ⟨e, hcons, he⟩ := hhistory
  · rwa [hsame]
  · rw [hcons]
    exact hundisturbed.cons he

/-- A lookup that is overtaken by a newer version of its line. -/
theorem LookupInv.overtaken {s' : Editor} {p : CategoryLookup} (h : s.LookupInv p)
    (hnext : s.next ≤ s'.next)
    (hversion : (s.objects p.line).lookupVersion < (s'.objects p.line).lookupVersion)
    (hmerchant : s'.merchantVersion = s.merchantVersion) : s'.LookupInv p := by
  have hle := h.version_le
  exact ⟨h.line_lt.trans_le hnext, hle.trans hversion.le, hmerchant ▸ h.merchantVersion_le,
    fun heq => absurd heq (by omega)⟩

/-- **One line is written to**, and something has happened to it. The
other lines are as they were, and lookups of this one are overtaken or
still the last. -/
theorem Inv.write_log (h : s.Inv) {line : ℕ} {f : EditorLine → EditorLine} {e : EditorEvent}
    (hlt : line < s.next) (heline : e.line? = some line) (hothers : ∀ l, l ≠ line → ¬ e.Concerns l)
    (hothers' : ∀ l, l ≠ line → ¬ e.Overtakes l)
    (hline : line ∈ s.lines → LineInv (e :: s.history) s.merchantName line (f (s.objects line)))
    (hversion : (s.objects line).lookupVersion < (f (s.objects line)).lookupVersion
      ∨ ((f (s.objects line)).lookupVersion = (s.objects line).lookupVersion ∧ ¬ e.Overtakes line))
    (huses : UsesUndisturbed (e :: s.history)) : ((s.write line f).log e).Inv := by
  have hself : ((s.write line f).log e).objects line = f (s.objects line) :=
    Function.update_self line _ _
  have hother : ∀ l, l ≠ line → ((s.write line f).log e).objects l = s.objects l := fun l hl =>
    Function.update_of_ne hl _ _
  refine ⟨h.lines_lt, fun e' he' l hl => ?_, fun l hl => ?_, fun p hp => ?_, huses⟩
  · rcases List.mem_cons.mp he' with rfl | he'
    · rw [heline] at hl
      exact Option.mem_some.mp hl ▸ hlt
    · exact h.history_lt e' he' l hl
  · by_cases hne : l = line
    · subst hne
      rw [hself]
      exact hline hl
    · rw [hother l hne]
      exact (h.line l hl).cons (hothers l hne)
  · have hp := h.lookup p hp
    by_cases hne : p.line = line
    · obtain hlt | ⟨heq, hovertakes⟩ := hversion
      · exact hp.overtaken (Nat.le_refl _) (by rw [hne, hself]; exact hlt) rfl
      · refine hp.frame (Nat.le_refl _) (by rw [hne, hself]; exact heq) rfl (.inr ⟨e, rfl, ?_⟩)
        rwa [hne]
    · exact hp.frame (Nat.le_refl _) (by rw [hother _ hne]) rfl (.inr ⟨e, rfl, hothers' _ hne⟩)

/-- Lines are written to, but neither their texts nor their categories.
Prices and tags are of this kind, and removing a line is, too. -/
theorem Inv.same (h : s.Inv) {s' : Editor} (hlines : s'.lines.Sublist s.lines)
    (hnext : s'.next = s.next) (hhistory : s'.history = s.history)
    (hname : s'.merchantName = s.merchantName) (hmerchant : s'.merchantVersion = s.merchantVersion)
    (hpending : s'.pending.Sublist s.pending) (hsame : ∀ l, (s.objects l).Same (s'.objects l))
    (hversion : ∀ l, (s'.objects l).lookupVersion = (s.objects l).lookupVersion) : s'.Inv := by
  refine ⟨fun l hl => hnext ▸ h.lines_lt l (hlines.subset hl), ?_, fun l hl => ?_, fun p hp => ?_,
    ?_⟩
  · rw [hhistory, hnext]
    exact h.history_lt
  · rw [hhistory, hname]
    exact (h.line l (hlines.subset hl)).same (hsame l)
  · exact (h.lookup p (hpending.subset hp)).frame hnext.ge (hversion _) hmerchant (.inl hhistory)
  · rw [hhistory]
    exact h.uses

theorem same_refl (line : EditorLine) : line.Same line := ⟨rfl, rfl, rfl, rfl⟩

theorem inv_removeLine (h : s.Inv) (index : ℕ) : (s.removeLine index).Inv :=
  h.same (List.eraseIdx_sublist _ _) rfl rfl rfl rfl (List.Sublist.refl _)
    (fun _ => same_refl _) fun _ => rfl

theorem inv_forget (h : s.Inv) : s.forget.Inv := by
  unfold forget
  split
  · refine h.same (List.Sublist.refl _) rfl rfl rfl rfl (List.Sublist.refl _) (fun l => ?_)
      fun l => ?_
    · dsimp only
      split
      · exact ⟨rfl, rfl, rfl, rfl⟩
      · exact same_refl _
    · dsimp only
      split <;> rfl
  · exact h

/-- A new line without a choice of the user. Its number is new, so no
event of the past and no lookup on its way is about it. -/
theorem inv_push_free (h : s.Inv) (line : EditorLine) (hmanual : line.manualChoice = false) :
    (s.push line).Inv := by
  have hobjects : ∀ l, l < s.next →
      Function.update s.objects s.next line l = s.objects l := fun l hl =>
    Function.update_of_ne hl.ne _ _
  have hfresh : ∀ e ∈ s.history, e.line? ≠ some s.next := fun e he heq =>
    absurd (h.history_lt e he s.next heq) (Nat.lt_irrefl _)
  have hmem : ∀ {l}, l ∈ s.lines ++ [s.next] → l ∈ s.lines ∨ l = s.next := fun hl =>
    (List.mem_append.mp hl).imp_right List.mem_singleton.mp
  have hfree : ¬ line.manualChoice = true := by
    rw [hmanual]
    simp
  unfold push
  dsimp only
  rw [if_neg hfree]
  refine ⟨fun l hl => ?_, fun e he l hl => ?_, fun l hl => ?_, fun p hp => ?_, h.uses⟩
  · obtain hl | rfl := hmem hl
    · exact (h.lines_lt l hl).trans (Nat.lt_succ_self _)
    · exact Nat.lt_succ_self _
  · exact (h.history_lt e he l hl).trans (Nat.lt_succ_self _)
  · obtain hl | rfl := hmem hl
    · show LineInv _ _ l (Function.update s.objects s.next line l)
      rw [hobjects l (h.lines_lt l hl)]
      exact h.line l hl
    · show LineInv _ _ s.next (Function.update s.objects s.next line s.next)
      rw [Function.update_self]
      exact .unknown hfresh hmanual
  · have hp := h.lookup p hp
    exact hp.frame (Nat.le_succ _) (congrArg _ (hobjects p.line hp.line_lt)) rfl (.inl rfl)

/-- A new line. One that comes with a choice is one without it, for which
the user then chooses. -/
theorem inv_push (h : s.Inv) (line : EditorLine) : (s.push line).Inv := by
  by_cases hmanual : line.manualChoice = true
  · have hpushed := inv_push_free h { line with manualChoice := false } rfl
    have hself : Function.update s.objects s.next { line with manualChoice := false } s.next
        = { line with manualChoice := false } := Function.update_self _ _ _
    have hchosen : (((s.push { line with manualChoice := false }).write s.next fun _ => line).log
        (.chosen s.next line.spendingCategory)).Inv :=
      hpushed.write_log (Nat.lt_succ_self _) rfl (fun _ hl => Ne.symm hl) (fun _ _ => id)
        (fun _ => .select _ hmanual rfl) (.inr ⟨(congrArg EditorLine.lookupVersion hself).symm, id⟩)
        (uses_cons hpushed.uses fun _ _ => EditorEvent.noConfusion)
    have heq : ((s.push { line with manualChoice := false }).write s.next fun _ => line).log
        (.chosen s.next line.spendingCategory) = s.push line := by
      unfold push
      dsimp only
      rw [if_pos hmanual, if_neg (by simp)]
      unfold write
      dsimp only
      rw [Function.update_idem]
    exact heq ▸ hchosen
  · exact inv_push_free h line (by simpa using hmanual)

theorem inv_foldl_push (h : s.Inv) (lines : List EditorLine) : (lines.foldl push s).Inv := by
  induction lines generalizing s with
  | nil => exact h
  | cons line lines ih => exact ih (inv_push h line)

theorem inv_changeDescription (h : s.Inv) {line : ℕ} (hlt : line < s.next) (description : String) :
    (s.changeDescription line description).Inv := by
  refine h.write_log hlt rfl (fun _ hl => Ne.symm hl) (fun _ hl => Ne.symm hl) (fun hmem => ?_)
    (.inl ?_) (uses_cons h.uses fun _ _ => EditorEvent.noConfusion)
  · exact (h.line line hmem).edit s.merchantName rfl (if_pos rfl)
      (s.objects line).clearHistoryCategory_manualChoice rfl rfl
  · exact (s.objects line).clearHistoryCategory_lookupVersion ▸ Nat.lt_succ_self _

theorem inv_selectCategory (h : s.Inv) {line : ℕ} (hlt : line < s.next) (category : String) :
    (s.selectCategory line category).Inv :=
  h.write_log hlt rfl (fun _ hl => Ne.symm hl) (fun _ _ => id) (fun _ => .select category rfl rfl)
    (.inr ⟨rfl, id⟩) (uses_cons h.uses fun _ _ => EditorEvent.noConfusion)

/-- Another merchant: every line forgets what came from an answer, and no
lookup counts any more. It is the one step that writes to all lines. -/
theorem inv_changeMerchant (h : s.Inv) (merchant : String) : (s.changeMerchant merchant).Inv := by
  have hversion : ∀ l, (s.objects l).lookupVersion
      ≤ ((s.changeMerchant merchant).objects l).lookupVersion := by
    intro l
    unfold changeMerchant
    dsimp only
    split
    · exact (s.objects l).clearHistoryCategory_lookupVersion ▸ Nat.le_succ _
    · exact Nat.le_refl _
  refine ⟨h.lines_lt, fun e he l hl => ?_, fun l hl => ?_, fun p hp => ?_,
    uses_cons h.uses fun _ _ => EditorEvent.noConfusion⟩
  · rcases List.mem_cons.mp he with rfl | he
    · exact absurd hl (Option.not_mem_none l)
    · exact h.history_lt e he l hl
  · have hline : (s.changeMerchant merchant).objects l = (s.objects l).changeMerchant := if_pos hl
    rw [hline]
    exact (h.line l hl).edit merchant rfl rfl (s.objects l).clearHistoryCategory_manualChoice rfl
      rfl
  · have hp := h.lookup p hp
    have hle := hp.merchantVersion_le
    refine ⟨hp.line_lt, hp.version_le.trans (hversion _), hle.trans (Nat.le_succ _),
      fun _ heq => ?_⟩
    have heq' : p.merchantVersion = s.merchantVersion + 1 := heq
    omega

/-- A lookup is sent, and overtakes the older ones of its line. It is sent
with the texts of the form, and this is what its answer is compared
with. -/
theorem inv_lookupCategory (h : s.Inv) {line : ℕ} (hlt : line < s.next) :
    (s.lookupCategory line).Inv := by
  unfold lookupCategory
  split
  · exact h
  · have hwritten : ((s.write line fun l => { l with lookupVersion := l.lookupVersion + 1 }).log
        (.sent (s.lookupOf line))).Inv :=
      h.write_log hlt rfl (fun _ _ => id) (fun _ hl => Ne.symm hl)
        (fun hmem => ((h.line line hmem).cons id).same ⟨rfl, rfl, rfl, rfl⟩)
        (.inl (Nat.lt_succ_self _)) (uses_cons h.uses fun _ _ => EditorEvent.noConfusion)
    refine ⟨hwritten.lines_lt, hwritten.history_lt, hwritten.line, fun p hp => ?_, hwritten.uses⟩
    rcases List.mem_append.mp hp with hp | hp
    · have hp := hwritten.lookup p hp
      exact hp.frame (Nat.le_refl _) rfl rfl (.inl rfl)
    · obtain rfl := List.mem_singleton.mp hp
      have hversion : (Function.update s.objects line { s.objects line with
          lookupVersion := (s.objects line).lookupVersion + 1 } line).lookupVersion
          = (s.lookupOf line).version := by
        rw [Function.update_self]
        rfl
      exact ⟨hlt, hversion.ge, Nat.le_refl _,
        fun _ _ => ⟨[], s.history, rfl, fun e he => absurd he List.not_mem_nil⟩⟩

theorem next_lookupCategory (s : Editor) (line : ℕ) : (s.lookupCategory line).next = s.next := by
  unfold lookupCategory
  split <;> rfl

theorem inv_blurMerchant (h : s.Inv) {lines : List ℕ} (hlt : ∀ l ∈ lines, l < s.next) :
    (lines.foldl lookupCategory s).Inv := by
  induction lines generalizing s with
  | nil => exact h
  | cons line lines ih =>
    refine ih (inv_lookupCategory h (hlt line List.mem_cons_self)) fun l hl => ?_
    rw [next_lookupCategory]
    exact hlt l (List.mem_cons_of_mem line hl)

theorem inv_build (h : s.Inv) : s.build.Inv := inv_foldl_push h _

/-- The form is loaded again, and no lookup counts any more: the version
of the merchant grows, which every answer is compared with. -/
theorem inv_reload (h : s.Inv) : s.reload.Inv := by
  unfold reload
  split
  · refine inv_build ⟨fun l hl => absurd hl List.not_mem_nil, fun e he l hl => ?_,
      fun l hl => absurd hl List.not_mem_nil, fun p hp => ?_,
      uses_cons h.uses fun _ _ => EditorEvent.noConfusion⟩
    · rcases List.mem_cons.mp he with rfl | he
      · exact absurd hl (Option.not_mem_none l)
      · exact h.history_lt e he l hl
    · have hp := h.lookup p hp
      have hle := hp.merchantVersion_le
      refine ⟨hp.line_lt, hp.version_le, hle.trans (Nat.le_succ _), fun _ heq => ?_⟩
      have heq' : p.merchantVersion = s.merchantVersion + 1 := heq
      omega
  · exact h

/-- **An answer arrives**, in whatever order. If it is used, the lookup
was the last one of its line, and the texts in the form are those it was
sent with. -/
theorem inv_receive (h : s.Inv) {index : ℕ} {reply : Option CategorySuggestion} {s' : Editor}
    (hreceive : s.receive index reply = some s') : s'.Inv := by
  obtain ⟨lookup, hlookup, rfl⟩ := Option.map_eq_some_iff.mp hreceive
  have hmem := List.mem_of_getElem? hlookup
  have hwaiting := h.lookup lookup hmem
  have hanswered : ({ s with pending := s.pending.eraseIdx index }.log
      (.answered lookup reply)).Inv := by
    refine ⟨h.lines_lt, fun e he l hl => ?_, fun l hl => (h.line l hl).cons id, fun p hp => ?_,
      uses_cons h.uses fun _ _ => EditorEvent.noConfusion⟩
    · rcases List.mem_cons.mp he with rfl | he
      · exact Option.mem_some.mp hl ▸ hwaiting.line_lt
      · exact h.history_lt e he l hl
    · have hp := h.lookup p ((List.eraseIdx_sublist _ _).subset hp)
      exact hp.frame (Nat.le_refl _) rfl rfl (.inr ⟨_, rfl, id⟩)
  dsimp only
  split
  · next hcurrent =>
    obtain ⟨hversion, hmerchantVersion, -, hline, hdescription, hmerchant⟩ := hcurrent
    split
    · exact hanswered
    · next category hused =>
      obtain ⟨suggestion, rfl, hused⟩ := Option.bind_eq_some_iff.mp hused
      split
      · next hmanual =>
        -- a line with a choice of the user only gets a suggestion
        have hsuggest : (s.objects lookup.line).suggest category = _ := if_pos hmanual
        have hself := Function.update_self lookup.line
          ((s.objects lookup.line).suggest category) s.objects
        have hother : ∀ l, l ≠ lookup.line → Function.update s.objects lookup.line
            ((s.objects lookup.line).suggest category) l = s.objects l := fun l hl =>
          Function.update_of_ne hl _ _
        refine hanswered.same (List.Sublist.refl _) rfl rfl rfl rfl (List.Sublist.refl _)
          (fun l => ?_) fun l => ?_
        · show (s.objects l).Same (Function.update s.objects lookup.line
            ((s.objects lookup.line).suggest category) l)
          by_cases hl : l = lookup.line
          · rw [hl, hself, hsuggest]
            exact ⟨rfl, rfl, rfl, rfl⟩
          · rw [hother l hl]
            exact same_refl _
        · show (Function.update s.objects lookup.line
            ((s.objects lookup.line).suggest category) l).lookupVersion = _
          by_cases hl : l = lookup.line
          · rw [hl, hself, hsuggest]
            rfl
          · rw [hother l hl]
            rfl
      · next hmanual =>
        have hfree : (s.objects lookup.line).manualChoice = false := by simpa using hmanual
        have hsuggest : (s.objects lookup.line).suggest category = _ := if_neg hmanual
        have hundisturbed := (hwaiting.undisturbed hversion.symm hmerchantVersion.symm).cons
          (e := .answered lookup (some suggestion)) id
        refine hanswered.write_log hwaiting.line_lt rfl (fun _ hl => Ne.symm hl) (fun _ _ => id)
          (fun _ => ?_) (.inr ⟨?_, id⟩) ⟨hundisturbed, hanswered.uses⟩
        · exact (hanswered.line lookup.line hline).fill hfree hdescription hmerchant hused
            List.mem_cons_self
        · show ((s.objects lookup.line).suggest category).lookupVersion = _
          rw [hsuggest]
          rfl
  · exact hanswered

/-- **Every step keeps the invariant.** One case for each action; an
answer may arrive at any time, and those are the cases in which the
history is looked into. -/
theorem inv_step (h : s.Inv) {a : EditorAction} {s' : Editor} (hstep : s.step a = some s') :
    s'.Inv := by
  cases a with
  | rerender props =>
    obtain rfl := Option.some.inj hstep
    exact h.same (List.Sublist.refl _) rfl rfl rfl rfl (List.Sublist.refl _)
      (fun _ => same_refl _) fun _ => rfl
  | reload => exact Option.some.inj hstep ▸ inv_reload h
  | forget => exact Option.some.inj hstep ▸ inv_forget h
  | addLine => exact Option.some.inj hstep ▸ inv_push h _
  | removeLine index => exact Option.some.inj hstep ▸ inv_removeLine h index
  | changeDescription line description =>
    obtain ⟨hlt, hsome⟩ := Option.ite_none_right_eq_some.mp hstep
    exact Option.some.inj hsome ▸ inv_changeDescription h hlt description
  | changeMerchant merchant => exact Option.some.inj hstep ▸ inv_changeMerchant h merchant
  | selectCategory line category =>
    obtain ⟨hlt, hsome⟩ := Option.ite_none_right_eq_some.mp hstep
    exact Option.some.inj hsome ▸ inv_selectCategory h hlt category
  | blurDescription line =>
    obtain ⟨hlt, hsome⟩ := Option.ite_none_right_eq_some.mp hstep
    exact Option.some.inj hsome ▸ inv_lookupCategory h hlt
  | blurMerchant => exact Option.some.inj hstep ▸ inv_blurMerchant h h.lines_lt
  | receive index reply => exact inv_receive h hstep

theorem inv_mount (props : EditorProps) : (mount props).Inv :=
  inv_build ⟨fun _ hl => absurd hl List.not_mem_nil, fun _ he => absurd he List.not_mem_nil,
    fun _ hl => absurd hl List.not_mem_nil, fun _ hp => absurd hp List.not_mem_nil, trivial⟩

/-- **Late answers never win**: in whatever order the user edits and the
answers arrive, a line of the form keeps the category that the user chose
last for it. A line for which the user chose none, and which has a
category from an answer, has the category that the server returned for the
texts in the form, or an edit has made it `unknown` again. And whatever
answer is used, it is the answer to the last lookup of its line, since
which no text was edited. -/
theorem late_answers_never_win {props : EditorProps}
    (run : Transition.Reachable step (mount props) s) :
    (∀ l ∈ s.lines, ∀ category, lastChoice l s.history = some category →
        (s.objects l).spendingCategory = category)
      ∧ (∀ l ∈ s.lines, lastChoice l s.history = none → ∀ o, origin l s.history = some o →
        o.Fits s.history s.merchantName (s.objects l))
      ∧ UsesUndisturbed s.history := by
  have hinv : s.Inv := run.invariant (inv_mount props) fun _ _ _ h _ hstep => inv_step h hstep
  exact ⟨fun l hl category hchoice => ((hinv.line l hl).chosen category hchoice).2,
    fun l hl hnone o ho => ((hinv.line l hl).origin hnone o ho).1, hinv.uses⟩

section OlderLookup

/-- A receipt with one item. -/
def milkProps : EditorProps where
  receiptId := "r"
  revision := 0
  savedRevision := 0
  merchantName := "Shop"
  lineItems := [{ description := "Milk", spendingCategory := none, categorySource := none }]

/-- The description is edited after a lookup, and the answer to that
lookup arrives after the one to the next. On a second line, the user
chooses before the answer is there. -/
def milkSteps : List EditorAction :=
  [.reload, .addLine, .changeDescription 2 "Bag", .blurDescription 1, .blurDescription 2,
    .changeDescription 1 " Wine", .blurDescription 1, .selectCategory 2 "household",
    .receive 2 (some ⟨some "drinks", true⟩), .receive 1 (some ⟨some "other", true⟩),
    .receive 0 (some ⟨some "food", true⟩)]

/-- The answer to the older lookup is not used, nor does one replace a
choice. -/
theorem milk_categories :
    ∃ s, Transition.Reachable step (mount milkProps) s ∧ s.pending = []
      ∧ s.lines.map (fun l => (s.objects l).spendingCategory) = ["drinks", "household"]
      ∧ (∀ l ∈ s.lines, ∀ category, lastChoice l s.history = some category →
        (s.objects l).spendingCategory = category)
      ∧ (∀ l ∈ s.lines, lastChoice l s.history = none → ∀ o, origin l s.history = some o →
        o.Fits s.history s.merchantName (s.objects l))
      ∧ UsesUndisturbed s.history := by
  obtain ⟨s, run, hpending, hcategories⟩ : ∃ s, Transition.Reachable step (mount milkProps) s
      ∧ s.pending = []
      ∧ s.lines.map (fun l => (s.objects l).spendingCategory) = ["drinks", "household"] :=
    Transition.Run.of_exec milkSteps (by decide +kernel)
  exact ⟨s, run, hpending, hcategories, late_answers_never_win run⟩

end OlderLookup

end Editor

end VisionBill
