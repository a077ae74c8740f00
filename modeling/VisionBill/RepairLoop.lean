import VisionBill.Lib.Dialogue
import VisionBill.ModelAnswer
import VisionBill.World

/-!
# The repair loop

`analyse_receipt_with_metadata` asks a model for the receipt in some
photos, at most three times. An answer that cannot be read as a receipt is
sent back together with what was wrong with it, and the model may correct
it; an empty answer is just asked for again. Both providers have the same
loop (`analyseReceiptWithMetadata`) and differ in the first message.

What a model has answered before the last time cannot be seen in the
result, and the model sees of it exactly what was rejected, in order. A
result is always what `parse_llm_response` makes of the last answer
(`analysed_of_run`).

## Three ways to end

An answer is *accepted* if it parses. It is *rejected* if it is empty or
raises a `ValueError`, and then there is another attempt, unless this was
the third one. And it *ends the analysis* with an error in every other
case: the provider raises, the model says that it has got no image, or the
answer raises something that is not a `ValueError`. The source has one
`try` around the parsing, with one handler, and which exceptions that
handler catches is what separates the second case from the third
(`judge`).

The model is a parameter in every respect. It is a list of what it
answers, one for each time it is asked, and nothing is assumed of it, so
the theorem is about all models, including those that answer differently
to the same question.

## What a conversation is

The first message has the prompt and the photos, and is sent with every
attempt. What is appended to it are two messages for each rejected answer,
the answer and what was wrong with it, and nothing for an empty one. So a
conversation is determined by the first message and the answers before
(`corrections`), and that is how the loop of the source, which appends to
a list, is described without its list.

Whether the first message can be built depends on the photos: one that is
not there raises before anything is sent, and it is the first missing one
that is named (`buildImageMessages_error_iff`).
-/

namespace VisionBill

/-! ## Messages

A conversation is a list of messages, and both providers build the same
kind of list. Their first messages differ in how a photo is put into
them. -/

/-- The two roles of a conversation. The first message is the user's, and
what is fed back to the model as well. -/
inductive Role
  | user | assistant
  deriving DecidableEq

/-- The content of a message: a text, or a text with images. An image is
sent in Base64, which is left out. -/
inductive Content
  | text (text : String)
  | withImages (text : String) (images : List (String × Bytes))
  deriving DecidableEq

/-- A message, with the paths from which the Ollama package reads images.
The other provider has the images in the content. -/
structure Message where
  role : Role
  content : Content
  images : List FilePath := []
  deriving DecidableEq

/-- What a provider raises. A `ValueError` of the parser passes through,
and so does what the connection raises. The caller tells a timeout and an
unreadable photo from everything else. -/
inductive ProviderError
  /-- `TimeoutError`, or a timeout of the transport. -/
  | timeout
  /-- Any other exception of the transport. -/
  | transport (message : String)
  /-- `FileNotFoundError`. -/
  | fileNotFound (message : String)
  /-- What is raised about an answer. -/
  | answer (e : ParseError)

/-- `ValueError(message)`. -/
def ProviderError.valueError (message : String) : ProviderError :=
  .answer (.python (.valueError message))

/-- `str(e)` of a `ValueError`. Other exceptions have no such text here,
since the loop does not catch them. -/
def PyError.valueErrorText : PyError → Option String
  | .valueError message => some message
  | .validationError field => some field
  | .indexError => none
  | .overflow => none
  | .invalidOperation => none

theorem PyError.isValueError_iff {e : PyError} :
    e.IsValueError ↔ ∃ text, e.valueErrorText = some text := by
  cases e <;> simp [IsValueError, valueErrorText]

/-- What is raised when an image is not there. -/
def imageNotFound (path : FilePath) : ProviderError :=
  .fileNotFound ("Image not found at: " ++ path)

/-- The images of a message to an OpenAI server, with their media types.
They are read one after the other, so the first one that is missing is the
error. -/
def readImages (guessType : FilePath → Option String) (files : Files) :
    List FilePath → Except ProviderError (List (String × Bytes))
  | [] => .ok []
  | path :: paths =>
    match files path with
    | none => .error (imageNotFound path)
    | some image =>
      (readImages guessType files paths).map (((guessType path).getD "image/jpeg", image) :: ·)

/-- The two providers. They build their messages differently, and the loop
around them is the same. -/
inductive Provider
  | openai | ollama

/-- `_build_image_messages`, for a given prompt. One provider reads the
files itself; the other hands their paths over and has checked before that
they are there. -/
def Provider.buildImageMessages (guessType : FilePath → Option String) (prompt : String)
    (files : Files) (images : List FilePath) : Provider → Except ProviderError (List Message)
  | .openai => (readImages guessType files images).map fun read =>
    [{ role := .user, content := .withImages prompt read }]
  | .ollama =>
    match images.find? fun path => !files.exists? path with
    | some path => .error (imageNotFound path)
    | none => .ok [{ role := .user, content := .text prompt, images := images }]

theorem some_error_iff {α : Type} {path : FilePath} {e : ProviderError} :
    (Except.error (imageNotFound path) : Except ProviderError α) = .error e
      ↔ ∃ path', some path = some path' ∧ e = imageNotFound path' := by
  constructor
  · intro h
    exact ⟨path, rfl, (Except.error.inj h).symm⟩
  · rintro ⟨path', hpath, rfl⟩
    rw [Option.some.inj hpath]

/-- Reading the images fails if one is missing, with the first one of
these. They are read in their order, and nothing is read after it. -/
theorem readImages_error_iff {guessType : FilePath → Option String} {files : Files}
    {paths : List FilePath} {e : ProviderError} :
    readImages guessType files paths = .error e
      ↔ ∃ path, paths.find? (fun path => !files.exists? path) = some path
        ∧ e = imageNotFound path := by
  induction paths with
  | nil => simp [readImages]
  | cons path paths ih =>
    unfold readImages Files.exists?
    cases hfile : files path with
    | none =>
      rw [List.find?_cons_of_pos (by simp [hfile])]
      exact some_error_iff
    | some image =>
      rw [List.find?_cons_of_neg (by simp [hfile])]
      refine Iff.trans ?_ ih
      cases readImages guessType files paths <;> simp [Except.map]

/-- A first message cannot be built exactly if a photo is missing, and the
error names the first one that is. The two providers agree on this,
although only one of them reads the files. -/
theorem buildImageMessages_error_iff {guessType : FilePath → Option String} {prompt : String}
    {files : Files} {images : List FilePath} {provider : Provider} {e : ProviderError} :
    provider.buildImageMessages guessType prompt files images = .error e
      ↔ ∃ path, images.find? (fun path => !files.exists? path) = some path
        ∧ e = imageNotFound path := by
  cases provider with
  | openai =>
    rw [← @readImages_error_iff guessType]
    unfold Provider.buildImageMessages
    cases readImages guessType files images <;> simp [Except.map]
  | ollama =>
    unfold Provider.buildImageMessages
    dsimp only
    split
    · next path hfind =>
      rw [hfind]
      exact some_error_iff
    · next hfind =>
      rw [hfind]
      simp

/-- What `_append_repair_message` appends. -/
def repairMessages (badOutput error : String) : List Message :=
  [{ role := .assistant, content := .text badOutput },
    { role := .user
      content := .text ("That response was not valid JSON matching the required schema. "
        ++ "Error: " ++ error ++ "\n\nPlease respond again with ONLY corrected JSON.") }]

/-! ## Judging an answer

An empty answer is asked about again without a comment. One that says that
images are not supported ends the loop, and any other is parsed. -/

/-- A letter of a pattern under `re.IGNORECASE`: beside its two cases, `i`
stands for the dotless and the dotted one. -/
def matchesLetter (letter c : Char) : Bool :=
  c.toLower = letter || (letter = 'i' && (c = 'ı' || c = 'İ'))

/-- A text that begins with a word, whatever its case. -/
def beginsWith : List Char → List Char → Bool
  | [], _ => true
  | _ :: _, [] => false
  | letter :: word, c :: text => matchesLetter letter c && beginsWith word text

/-- `re.search(r"provide.*image", content, re.IGNORECASE | re.DOTALL)`. -/
def asksForImage (content : String) : Bool :=
  content.toList.tails.any fun text => beginsWith "provide".toList text
    && (text.drop "provide".toList.length).tails.any (beginsWith "image".toList)

/-- `content.lstrip().startswith(("{", "```"))`. -/
def looksLikeJson (content : String) : Bool :=
  let text := content.toList.dropWhile isSpace
  ['\x7b'].isPrefixOf text || "```".toList.isPrefixOf text

/-- Whether a model says that it has got no image: it asks for one, in an
answer that does not look like JSON. -/
def RefusesImages (content : String) : Prop :=
  looksLikeJson content = false ∧ asksForImage content = true

instance : DecidablePred RefusesImages := fun _ => inferInstanceAs (Decidable (_ ∧ _))

/-- An object is no such answer, whatever its texts say. A receipt on
which "provide an image" is printed is read like any other. -/
theorem not_refusesImages_object (fields : List Char) :
    ¬ RefusesImages (String.ofList ('\x7b' :: fields)) := by
  rintro ⟨hlooks, -⟩
  unfold looksLikeJson at hlooks
  rw [String.toList_ofList, List.dropWhile_cons_of_neg (by decide)] at hlooks
  exact absurd hlooks (by simp [List.isPrefixOf])

/-- What is raised about a model that cannot see. -/
def noVision (modelId : String) : ProviderError :=
  .valueError ("Model '" ++ modelId ++ "' returned a message indicating it cannot process images. "
    ++ "Please ensure the model supports vision capabilities.")

/-- `RETRY_LIMIT`. -/
def retryLimit : ℕ := 3

/-- What is raised after the last attempt. -/
def noValidResponse (modelId : String) : ProviderError :=
  .valueError ("Failed to get a valid response from model '" ++ modelId ++ "' after "
    ++ Nat.repr retryLimit ++ " attempts")

section Loop

variable [CaseFolding]

/-- What an analysis is about: the model, the number of photos, and what
reads an answer. It is the same for every turn of the conversation. -/
structure Analysis where
  modelId : String
  imageCount : ℤ
  readers : Readers
  ratio : String → String → ℚ

namespace Analysis

/-- `parse_llm_response`. -/
def parse (a : Analysis) (content : String) : Except ParseError Receipt :=
  parseLlmResponse a.ratio a.readers content a.imageCount

/-- What becomes of an answer that has been parsed. Only a `ValueError` is
fed back, and a report of an unreadable image ends the conversation at
once. -/
def judgeParsed (content : String) :
    Except ParseError Receipt → Verdict Message ProviderError Receipt
  | .ok receipt => .accept receipt
  | .error (.unreadable message) => .abort (.answer (.unreadable message))
  | .error (.python e) =>
    e.valueErrorText.elim (.abort (.answer (.python e))) fun text =>
      .reject (repairMessages content text)

/-- The body of the loop, once an answer is there. The order is that of
the source: an empty answer first, then a model that cannot see, then the
parser. -/
def judge (a : Analysis) (content : String) : Verdict Message ProviderError Receipt :=
  if content = "" then .reject []
  else if RefusesImages content then .abort (noVision a.modelId)
  else judgeParsed content (a.parse content)

/-- `analyse_receipt_with_metadata`, with the first message built. Without
it nothing is sent, and the model is not asked at all. -/
def analyseReceiptWithMetadata (a : Analysis) (first : Except ProviderError (List Message)) :
    Program (fun _ : List Message => String) ProviderError (Receipt × ℕ) :=
  match first with
  | .error e => throw e
  | .ok messages => Dialogue.converse a.judge (noValidResponse a.modelId) retryLimit 1 messages

/-! ## What the loop does

It is an instance of a dialogue with at most three turns. What is said of
all dialogues is that each conversation extends the one before, by what
was fed back. -/

/-- What is told to the model about an answer that raised. -/
def complaint (content : String) : Except ParseError Receipt → List Message
  | .error (.python e) => e.valueErrorText.elim [] (repairMessages content)
  | _ => []

/-- What is told to the model about an answer that was rejected. Of an
empty answer nothing is told, since there is nothing to be wrong with. -/
def corrections (a : Analysis) (content : String) : List Message :=
  if content = "" then [] else complaint content (a.parse content)

/-- An answer after which the model is asked again: it is empty, or it is
about a receipt but raises a `ValueError`. Every other answer ends the
loop. -/
def Repairable (a : Analysis) (content : String) : Prop :=
  content = "" ∨ (¬ RefusesImages content ∧ ∃ e : PyError, e.IsValueError
    ∧ a.parse content = .error (.python e))

/-- How the analysis ends with its last answer. The number of attempts is
part of what is returned, and decides whether a rejected answer is the
end. -/
inductive Decides (a : Analysis) (attempts : ℕ) :
    Except ProviderError String → Except ProviderError (Receipt × ℕ) → Prop
  /-- The model could not be asked. -/
  | failed (e : ProviderError) : Decides a attempts (.error e) (.error e)
  /-- The model has got no image. -/
  | refused (content : String) (h : RefusesImages content) :
    Decides a attempts (.ok content) (.error (noVision a.modelId))
  /-- The answer is a receipt. -/
  | accepted (content : String) (receipt : Receipt) (h : ¬ RefusesImages content)
    (hparse : a.parse content = .ok receipt) : Decides a attempts (.ok content)
      (.ok (receipt, attempts))
  /-- Parsing raises what is no `ValueError`. -/
  | escaped (content : String) (e : ParseError) (h : ¬ RefusesImages content)
    (hparse : a.parse content = .error e) (hvalue : ∀ p, e = .python p → ¬ p.IsValueError) :
    Decides a attempts (.ok content) (.error (.answer e))

/-- **What an analysis has done**: `rejected` are the answers that were
sent back, and each conversation is the first one with what was wrong so
far. The last answer is not among them, whatever becomes of it. -/
structure Analysed (a : Analysis) (first : List Message)
    (answers : List (Except ProviderError String)) (sent : List (List Message))
    (result : Except ProviderError (Receipt × ℕ)) (rejected : List String) : Prop where
  repairable : ∀ content ∈ rejected, a.Repairable content
  attempts : sent.length = answers.length ∧ sent.length ≤ retryLimit
  grows : ∀ n < sent.length,
    sent[n]? = some (first ++ (rejected.take n).flatMap a.corrections)
  ending : (answers = rejected.map .ok ∧ sent.length = retryLimit
      ∧ result = .error (noValidResponse a.modelId))
    ∨ ∃ last, answers = rejected.map .ok ++ [last] ∧ a.Decides sent.length last result

variable {a : Analysis} {content : String}

theorem judge_of_ne_empty (h : content ≠ "") (hrefuses : ¬ RefusesImages content) :
    a.judge content = judgeParsed content (a.parse content) := by
  unfold judge
  rw [if_neg h, if_neg hrefuses]

theorem judge_of_refuses (h : content ≠ "") (hrefuses : RefusesImages content) :
    a.judge content = .abort (noVision a.modelId) := by
  unfold judge
  rw [if_neg h, if_pos hrefuses]

/-- Of what has been parsed, a `ValueError` is rejected. The classes that
derive from it count, such as the `ValidationError` of a schema. -/
theorem judgeParsed_eq_reject_iff {parsed : Except ParseError Receipt} {more : List Message} :
    judgeParsed content parsed = .reject more
      ↔ (∃ e : PyError, e.IsValueError ∧ parsed = .error (.python e))
        ∧ more = complaint content parsed := by
  cases parsed with
  | ok receipt => simp [judgeParsed]
  | error e =>
    cases e with
    | unreadable message => simp [judgeParsed]
    | python e =>
      show e.valueErrorText.elim _ _ = _ ↔ _ ∧ more = e.valueErrorText.elim _ _
      simp only [PyError.isValueError_iff, Except.error.injEq, ParseError.python.injEq]
      cases htext : e.valueErrorText with
      | none => simp [htext]
      | some text => simp [htext, eq_comm]

/-- What is rejected, and what is said about it. An empty answer is
rejected as well, and nothing is said about that one. -/
theorem judge_eq_reject_iff {more : List Message} :
    a.judge content = .reject more ↔ a.Repairable content ∧ more = a.corrections content := by
  by_cases hempty : content = ""
  · have hjudge : a.judge content = .reject [] := if_pos hempty
    have hcorrections : a.corrections content = [] := if_pos hempty
    rw [hjudge, hcorrections]
    exact ⟨fun h => ⟨.inl hempty, (Verdict.reject.inj h).symm⟩, fun h => h.2 ▸ rfl⟩
  · have hcorrections : a.corrections content = complaint content (a.parse content) :=
      if_neg hempty
    by_cases hrefuses : RefusesImages content
    · refine iff_of_false (by simp [judge_of_refuses hempty hrefuses]) ?_
      rintro ⟨hblank | ⟨hnot, -⟩, -⟩
      · exact hempty hblank
      · exact hnot hrefuses
    · rw [judge_of_ne_empty hempty hrefuses, hcorrections, judgeParsed_eq_reject_iff]
      unfold Repairable
      rw [or_iff_right hempty, and_iff_right hrefuses]

/-- How an answer that has been parsed ends the loop. It is a receipt, or
an error that asking again would not repair. -/
theorem decides_of_parsed {attempts : ℕ} {result : Except ProviderError (Receipt × ℕ)}
    (hrefuses : ¬ RefusesImages content)
    (h : (∃ receipt, judgeParsed content (a.parse content) = .accept receipt
        ∧ result = .ok (receipt, attempts))
      ∨ ∃ e, judgeParsed content (a.parse content) = .abort e ∧ result = .error e) :
    a.Decides attempts (.ok content) result := by
  cases hparse : a.parse content with
  | ok receipt =>
    rw [hparse] at h
    rcases h with ⟨receipt', haccept, rfl⟩ | ⟨e, habort, -⟩
    · obtain rfl := Verdict.accept.inj haccept
      exact .accepted content receipt hrefuses hparse
    · exact absurd habort (by simp [judgeParsed])
  | error e =>
    rw [hparse] at h
    have hescaped : result = .error (.answer e) → (∀ p, e = .python p → ¬ p.IsValueError) →
        a.Decides attempts (.ok content) result := by
      rintro rfl hvalue
      exact .escaped content e hrefuses hparse hvalue
    cases e with
    | unreadable message =>
      rcases h with ⟨receipt, haccept, -⟩ | ⟨e, habort, rfl⟩
      · exact absurd haccept (by simp [judgeParsed])
      · refine hescaped ?_ fun p hp => absurd hp (by simp)
        rw [← Verdict.abort.inj habort]
    | python e =>
      have hjudge : judgeParsed content (.error (.python e))
          = e.valueErrorText.elim (.abort (.answer (.python e))) fun text =>
            .reject (repairMessages content text) := rfl
      rw [hjudge] at h
      cases htext : e.valueErrorText with
      | some text =>
        -- a `ValueError` is rejected, so it ends nothing
        rw [htext] at h
        rcases h with ⟨receipt, haccept, -⟩ | ⟨e, habort, -⟩
        · exact absurd haccept (by simp)
        · exact absurd habort (by simp)
      | none =>
        rw [htext] at h
        rcases h with ⟨receipt, haccept, -⟩ | ⟨e', habort, rfl⟩
        · exact absurd haccept (by simp)
        · refine hescaped ?_ fun p hp => ?_
          · rw [← Verdict.abort.inj habort]
          · obtain rfl := ParseError.python.inj hp
            rw [PyError.isValueError_iff, htext]
            simp

/-- How an answer ends the loop. The library says that the last answer was
not rejected or the attempts are used up, and here it is said which
answers these are. -/
theorem decides_of_ends {attempts : ℕ} {last : Except ProviderError String}
    {result : Except ProviderError (Receipt × ℕ)}
    (h : Dialogue.Ends a.judge attempts last result) : a.Decides attempts last result := by
  cases last with
  | error e =>
    obtain rfl : result = .error e := h
    exact .failed e
  | ok content =>
    by_cases hempty : content = ""
    · have hjudge : a.judge content = .reject [] := if_pos hempty
      rcases h with ⟨receipt, haccept, -⟩ | ⟨e, habort, -⟩
      · exact absurd (hjudge.symm.trans haccept) (by simp)
      · exact absurd (hjudge.symm.trans habort) (by simp)
    · by_cases hrefuses : RefusesImages content
      · have hjudge := judge_of_refuses (a := a) hempty hrefuses
        rcases h with ⟨receipt, haccept, -⟩ | ⟨e, habort, rfl⟩
        · exact absurd (hjudge.symm.trans haccept) (by simp)
        · obtain rfl := Verdict.abort.inj (hjudge.symm.trans habort)
          exact .refused content hrefuses
      · refine decides_of_parsed hrefuses ?_
        rw [← judge_of_ne_empty hempty hrefuses]
        exact h

/-- What the loop does with a first message. The library's account of a
dialogue with a limited number of attempts, with the verdicts spelled
out. -/
theorem analysed_of_converse {first : List Message} {answers : List (Except ProviderError String)}
    {sent : List (List Message)} {result : Except ProviderError (Receipt × ℕ)}
    (h : (a.analyseReceiptWithMetadata (.ok first)).run Dialogue.record answers []
      = some (sent, result)) : ∃ rejected, a.Analysed first answers sent result rejected := by
  obtain ⟨new, rejected, hnew, hcourse⟩ := Dialogue.course_of_run h
  obtain rfl : sent = new := hnew
  have hrejected : ∀ content ∈ rejected, a.Repairable content
      ∧ Dialogue.more a.judge content = a.corrections content := by
    intro content hcontent
    obtain ⟨more, hmore⟩ := hcourse.all_rejected content hcontent
    obtain ⟨hrepairable, hmessages⟩ := judge_eq_reject_iff.mp hmore
    exact ⟨hrepairable, (Dialogue.more_of_reject hmore).trans hmessages⟩
  refine ⟨rejected, fun content hcontent => (hrejected content hcontent).1,
    ⟨hcourse.length_conversations, hcourse.length_le⟩, fun n hn => ?_, ?_⟩
  · rw [hcourse.getElem?_conversations hn]
    unfold Dialogue.conversation
    rw [List.flatMap_congr fun content hcontent =>
      (hrejected content (List.mem_of_mem_take hcontent)).2]
  · rcases hcourse.ending with ⟨hlength, hanswers, hsent, hresult⟩ | ⟨last, -, hanswers, hsent, hends⟩
    · refine .inl ⟨hanswers, ?_, hresult⟩
      rw [hsent, Dialogue.length_sent, hlength]
    · refine .inr ⟨last, hanswers, ?_⟩
      have hlength : sent.length = 1 + rejected.length := by
        rw [hsent, List.length_append, Dialogue.length_sent, Nat.add_comm]
        rfl
      rw [hlength]
      exact decides_of_ends hends

end Analysis

/-- **The repair loop.** Whatever a model answers, and whatever fails:
with a missing photo nothing is sent; otherwise there are at most three
attempts, each sends the first message followed by every rejected answer
and what was wrong with it, and the result is what the last answer
says. -/
theorem analysed_of_run (provider : Provider) (guessType : FilePath → Option String)
    (prompt : String) (files : Files) (images : List FilePath) (modelId : String)
    (readers : Readers) (ratio : String → String → ℚ)
    (answers : List (Except ProviderError String)) (sent : List (List Message))
    (result : Except ProviderError (Receipt × ℕ))
    (h : ((⟨modelId, images.length, readers, ratio⟩ : Analysis).analyseReceiptWithMetadata
      (provider.buildImageMessages guessType prompt files images)).run Dialogue.record answers []
        = some (sent, result)) :
    (∃ path, images.find? (fun path => !files.exists? path) = some path ∧ sent = []
        ∧ result = .error (imageNotFound path))
      ∨ ((∀ path ∈ images, files.exists? path = true) ∧ ∃ first rejected,
        provider.buildImageMessages guessType prompt files images = .ok first
          ∧ (⟨modelId, images.length, readers, ratio⟩ : Analysis).Analysed first answers sent result
            rejected) := by
  cases hfirst : provider.buildImageMessages guessType prompt files images with
  | error e =>
    obtain ⟨path, hfind, rfl⟩ := buildImageMessages_error_iff.mp hfirst
    rw [hfirst] at h
    obtain ⟨-, rfl, rfl⟩ := Program.run_throw h
    exact .inl ⟨path, hfind, rfl, rfl⟩
  | ok first =>
    rw [hfirst] at h
    obtain ⟨rejected, hanalysed⟩ := Analysis.analysed_of_converse h
    refine .inr ⟨fun path hpath => ?_, first, rejected, rfl, hanalysed⟩
    by_contra hmissing
    obtain ⟨missing, hfind⟩ := Option.isSome_iff_exists.mp
      (List.find?_isSome (p := fun path => !files.exists? path).mpr ⟨path, hpath, by simp [hmissing]⟩)
    have herror : provider.buildImageMessages guessType prompt files images
        = .error (imageNotFound missing) := buildImageMessages_error_iff.mpr ⟨missing, hfind, rfl⟩
    exact absurd (hfirst.symm.trans herror) (by simp)

end Loop

/-! ## A correction -/

section Corrected

local instance : CaseFolding := asciiFolding

/-- The fields of a receipt as a model writes them. -/
def answerFields : String :=
  "\"confidence\": 90, \"merchant_name\": \"Shop\", \"date\": \"2024-01-02\", "
    ++ "\"category\": \"grocery\", \"payment_method\": \"cash\", \"subtotal\": 0, "
    ++ "\"total\": 0, \"line_items\": []"

/-- An answer with these fields. -/
def plainAnswer : String := String.ofList ('\x7b' :: (answerFields.toList ++ ['\x7d']))

/-- What `json.loads` makes of it. -/
def plainObject : Json :=
  .object [("confidence", .number "90"), ("merchant_name", .string "Shop"),
    ("date", .string "2024-01-02"), ("category", .string "grocery"),
    ("payment_method", .string "cash"), ("subtotal", .number "0"), ("total", .number "0"),
    ("line_items", .array [])]

/-- What is read of that text; any other is no JSON. -/
def plainReaders : Readers where
  loads text := if text = plainAnswer then .ok plainObject else .error .decodeError
  receipt text :=
    if text = plainAnswer then .ok { payload := emptyFields.modelDump [], misread := none }
    else .error (.validationError "Invalid JSON")
  multiImageReceipt _ := .error (.validationError "duplicate_candidates")

/-- An analysis of one photo. -/
def plainAnalysis : Analysis := ⟨"llava", 1, plainReaders, exactRatio⟩

theorem judge_no : plainAnalysis.judge "no"
    = .reject (repairMessages "no" "LLM output failed validation: Invalid JSON") := by
  have hhead : plainAnswer.toList.head? = some '\x7b' := by
    rw [plainAnswer, String.toList_ofList]
    rfl
  have hne : "no" ≠ plainAnswer := fun h => absurd (h ▸ hhead) (by decide)
  have htext : rawText "no" = "no" := by decide
  have hloads : plainReaders.loads "no" = .error .decodeError := by
    dsimp only [plainReaders]
    exact if_neg hne
  have hread : Receipt.modelValidateJson plainReaders "no"
      = .error (.validationError "Invalid JSON") := by
    have hreceipt : plainReaders.receipt "no" = .error (.validationError "Invalid JSON") := by
      dsimp only [plainReaders]
      exact if_neg hne
    unfold Receipt.modelValidateJson
    rw [hreceipt]
    rfl
  have hparse : plainAnalysis.parse "no"
      = .error (.python (.valueError "LLM output failed validation: Invalid JSON")) := by
    have hpayload : loadPayload plainReaders.loads (rawText "no") = .ok none := by
      rw [htext, loadPayload, hloads]
    refine (parseLlmResponse_eq hpayload rfl).trans ?_
    refine (if_neg (lt_irrefl 1)).trans ?_
    rw [htext, hread]
    rfl
  rw [Analysis.judge_of_ne_empty (by decide) (by decide), hparse]
  rfl

theorem judge_plainAnswer :
    plainAnalysis.judge plainAnswer = .accept { emptyFields with lineItems := [] } := by
  have htext : rawText plainAnswer = plainAnswer := rawText_object answerFields.toList
  have hloads : plainReaders.loads plainAnswer = .ok plainObject := by
    dsimp only [plainReaders]
    exact if_pos rfl
  have hread : plainReaders.receipt plainAnswer
      = .ok { payload := emptyFields.modelDump [], misread := none } := by
    dsimp only [plainReaders]
    exact if_pos rfl
  have hvalidated : Receipt.modelValidateJson plainReaders plainAnswer
      = .ok { emptyFields with lineItems := [] } := by
    unfold Receipt.modelValidateJson
    rw [hread]
    show (checkTotal (emptyFields.modelDump []).toFieldsPayload >>= fun _ =>
      Receipt.modelValidate (emptyFields.modelDump [])) = _
    rw [checkTotal_emptyFields]
    exact Receipt.modelValidate_dump emptyFields []
  have hparse : plainAnalysis.parse plainAnswer = .ok { emptyFields with lineItems := [] } := by
    have hpayload : loadPayload plainReaders.loads (rawText plainAnswer)
        = .ok (some plainObject) := by
      rw [htext, loadPayload, hloads]
    refine (parseLlmResponse_eq hpayload rfl).trans ?_
    refine (if_neg (lt_irrefl 1)).trans ?_
    rw [htext, hvalidated]
    rfl
  have hne : plainAnswer ≠ "" := fun h => absurd (ofList_eq_empty_iff.mp h) (List.cons_ne_nil _ _)
  rw [Analysis.judge_of_ne_empty hne (not_refusesImages_object _), hparse]
  rfl

/-- A model that answers without a receipt at first is told so, and then
answers with one: that is the second attempt. The first conversation is
the first message alone, and the second has what was wrong behind it. -/
theorem analysed_of_run_corrected :
    ∃ first, Provider.ollama.buildImageMessages (fun _ => none) "Analyse."
        (fun path => if path = "a.png" then some [] else none) ["a.png"] = .ok first
      ∧ (plainAnalysis.analyseReceiptWithMetadata (.ok first)).run Dialogue.record
          [.ok "no", .ok plainAnswer] []
        = some ([first, first ++ repairMessages "no" "LLM output failed validation: Invalid JSON"],
          .ok ({ emptyFields with lineItems := [] }, 2))
      ∧ ∃ rejected, plainAnalysis.Analysed first [.ok "no", .ok plainAnswer]
        [first, first ++ repairMessages "no" "LLM output failed validation: Invalid JSON"]
        (.ok ({ emptyFields with lineItems := [] }, 2)) rejected := by
  have hrun : ∀ first, (plainAnalysis.analyseReceiptWithMetadata (.ok first)).run Dialogue.record
      [.ok "no", .ok plainAnswer] []
        = some ([first, first ++ repairMessages "no" "LLM output failed validation: Invalid JSON"],
          .ok ({ emptyFields with lineItems := [] }, 2)) := by
    intro first
    exact (Dialogue.run_converse_reject judge_no).trans
      (Dialogue.run_converse_accept judge_plainAnswer)
  refine ⟨[{ role := .user, content := .text "Analyse.", images := ["a.png"] }], rfl, hrun _, ?_⟩
  rcases analysed_of_run .ollama (fun _ => none) "Analyse."
      (fun path => if path = "a.png" then some [] else none) ["a.png"] "llava" plainReaders
      exactRatio [.ok "no", .ok plainAnswer] _ _ (hrun _) with ⟨path, -, hsent, -⟩ | ⟨-, hrest⟩
  · exact absurd hsent (by simp)
  · obtain ⟨first, rejected, hfirst, hanalysed⟩ := hrest
    obtain rfl := Except.ok.inj hfirst
    exact ⟨rejected, hanalysed⟩

end Corrected

end VisionBill
