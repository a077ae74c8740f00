import VisionBill.OverlapCandidates

/-!
# Parsing a model's answer

`parse_llm_response` turns the text that a model returns into a receipt.
The providers retry on `ValueError` and feed its text back to the model,
so every answer should end in a receipt, in the report that the image is
unreadable, or in a `ValueError`.

Reading the text is left to `json` and `pydantic`, which raise nothing
else about it. But `model_validate_json` does not only read: it runs the
validators of the program on what was read, and `sanity_check_total` among
them computes with decimals of any size. Its differences can overflow, and
`decimal.Overflow` is an `ArithmeticError`, which `pydantic` lets through.
What else can escape is raised when the photos are reconciled, by the same
arithmetic on the totals and the quantities of two rows: an overflow, or
the difference of two infinite quantities.

`parseLlmResponse_staysInLoop_iff` says that nothing else escapes, and
when these do.
-/

namespace VisionBill

/-- A value that `json.loads` returns. Numbers are kept as they are
written, since nothing is computed with them here. -/
inductive Json
  | null
  | bool (b : Bool)
  | number (text : String)
  | string (text : String)
  | array (elements : List Json)
  | object (fields : List (String × Json))

/-- `value.get(key)` of a value that may be a `dict`. -/
def Json.get? (key : String) : Json → Option Json
  | .object fields => fields.lookup key
  | _ => none

/-- What `json.loads` raises. Only the first is caught where the answer is
loaded; the second is fed back to the model. -/
inductive JsonError
  | decodeError
  /-- A `ValueError` that is no `JSONDecodeError`. -/
  | valueError (text : String)

/-- What `parse_llm_response` raises. What is no `ValueError` is not
caught by the providers, and ends the analysis. -/
inductive ParseError
  | unreadable (message : String)
  | python (e : PyError)

/-- The text between the fences of a JSON code block, or the whole answer
if it has none. Models tend to wrap what they are told to return bare. -/
def rawText (response : String) : String :=
  strip (removeSuffix "```" (removePrefix "```json" (strip response)))

/-- An answer that is an object needs no unwrapping. The code takes off a
fence around the text, and here is none. -/
theorem rawText_object (fields : List Char) :
    rawText (String.ofList ('\x7b' :: (fields ++ ['\x7d'])))
      = String.ofList ('\x7b' :: (fields ++ ['\x7d'])) := by
  have hstrip : strip (String.ofList ('\x7b' :: (fields ++ ['\x7d'])))
      = String.ofList ('\x7b' :: (fields ++ ['\x7d'])) := by
    unfold strip
    rw [String.toList_ofList, List.dropWhile_cons_of_neg (by decide), ← List.cons_append,
      List.rdropWhile_concat_neg _ _ _ (by decide)]
  have hprefix : removePrefix "```json" (String.ofList ('\x7b' :: (fields ++ ['\x7d'])))
      = String.ofList ('\x7b' :: (fields ++ ['\x7d'])) := by
    unfold removePrefix
    rw [String.toList_ofList]
    exact if_neg (by simp [List.isPrefixOf])
  have hlast : ('\x7b' :: (fields ++ ['\x7d'])).reverse = '\x7d' :: ('\x7b' :: fields).reverse := by
    rw [← List.cons_append, List.reverse_append]
    rfl
  have hsuffix : removeSuffix "```" (String.ofList ('\x7b' :: (fields ++ ['\x7d'])))
      = String.ofList ('\x7b' :: (fields ++ ['\x7d'])) := by
    unfold removeSuffix
    refine if_neg ?_
    rw [List.isSuffixOf, String.toList_ofList, String.toList_ofList, hlast]
    simp [List.isPrefixOf]
  unfold rawText
  rw [hstrip, hprefix, hsuffix, hstrip]

/-- The message of an answer that reports an unreadable image. Only an
object with the right code counts, and only so much of its message is kept
as there is room for. -/
def unreadableMessage (payload : Option Json) : Option String :=
  match payload.bind (Json.get? "error") with
  | some error =>
    match error.get? "code", error.get? "message" with
    | some (.string code), some (.string message) =>
      if code = "unreadable" then some (String.ofList (message.toList.take 1000)) else none
    | _, _ => none
  | none => none

/-- `json.loads`, with `None` for text that is no JSON. Such a text is not
rejected here, but when it is validated. -/
def loadPayload (loads : String → Except JsonError Json) (text : String) :
    Except ParseError (Option Json) :=
  match loads text with
  | .ok payload => .ok (some payload)
  | .error .decodeError => .ok none
  | .error (.valueError message) => .error (.python (.valueError message))

section Answer

variable [CaseFolding]

/-- A `ValidationError` is raised again as a plain `ValueError`. -/
def feedBack : Except PyError Receipt → Except ParseError Receipt
  | .ok receipt => .ok receipt
  | .error (.validationError field) =>
    .error (.python (.valueError ("LLM output failed validation: " ++ field)))
  | .error e => .error (.python e)

/-- A text as it is read by `pydantic`, before the bounds and the
validators of the models are looked at. A field that could not be read is
an error that is remembered. -/
structure Reading (Payload : Type) where
  payload : Payload
  /-- A field that is missing or of another type, if there is one. The
  payload then has some value for it: `nan` for a decimal, which no field
  admits. -/
  misread : Option String

/-- The readers that the program does not have itself: `json.loads`, and
what `model_validate_json` of the two receipt classes reads. -/
structure Readers where
  loads : String → Except JsonError Json
  receipt : String → Except PyError (Reading ReceiptPayload)
  multiImageReceipt : String → Except PyError (Reading MultiImagePayload)

/-- Reading raises only `ValueError`s. What validators raise is no part of
it: these are in the repository, and modelled. -/
structure Readers.RaiseValueErrors (readers : Readers) : Prop where
  receipt : ∀ text e, readers.receipt text = .error e → e.IsValueError
  multiImageReceipt : ∀ text e, readers.multiImageReceipt text = .error e → e.IsValueError

/-- Validation of what was read. A field that was not read is only
reported when all others have been validated, and by then the validator of
the total has run. -/
def Reading.validate {Payload α : Type} (reading : Reading Payload)
    (fields : Payload → FieldsPayload) (modelValidate : Payload → Except PyError α) :
    Except PyError α := do
  checkTotal (fields reading.payload)
  match reading.misread with
  | some field => throw (.validationError field)
  | none => modelValidate reading.payload

/-- `Receipt.model_validate_json`. -/
def Receipt.modelValidateJson (readers : Readers) (text : String) : Except PyError Receipt := do
  let reading ← readers.receipt text
  reading.validate ReceiptPayload.toFieldsPayload Receipt.modelValidate

/-- `MultiImageReceipt.model_validate_json`. -/
def MultiImageReceipt.modelValidateJson (readers : Readers) (text : String) :
    Except PyError MultiImageReceipt := do
  let reading ← readers.multiImageReceipt text
  reading.validate MultiImagePayload.toFieldsPayload MultiImageReceipt.modelValidate

/-- `parse_llm_response`. With more than one photo the answer is read as
one in several photos and reconciled; what goes wrong there is fed back to
the model, or escapes. -/
def parseLlmResponse (ratio : String → String → ℚ) (readers : Readers) (response : String)
    (imageCount : ℤ) : Except ParseError Receipt := do
  let text := rawText response
  let payload ← loadPayload readers.loads text
  match unreadableMessage payload with
  | some message => throw (.unreadable message)
  | none =>
    if 1 < imageCount then
      feedBack (MultiImageReceipt.modelValidateJson readers text >>= fun m =>
        m.reconciled ratio imageCount)
    else feedBack (Receipt.modelValidateJson readers text)

/-- A receipt, the report of an unreadable image, or a `ValueError`. These
are what the loop around it catches, and anything else ends the
analysis. -/
def StaysInLoop : Except ParseError Receipt → Prop
  | .ok _ => True
  | .error (.unreadable _) => True
  | .error (.python e) => e.IsValueError

/-- The answer is read, and no report of an unreadable image. Only such an
answer can escape. -/
def Answers (readers : Readers) (response : String) : Prop :=
  ∃ payload, loadPayload readers.loads (rawText response) = .ok payload
    ∧ unreadableMessage payload = none

/-- `sanity_check_total` raises on these totals. -/
def FieldsPayload.TotalRaises (p : FieldsPayload) : Prop := ∃ e, checkTotal p = .error e

/-- Reconciling the answer raises: its rows are grouped by photo, its
candidates have the indices they should have, and a photo raises before
any is refused. The comparison goes photo by photo, so the order of the
two decides. -/
structure MultiImageReceipt.Escapes (ratio : String → String → ℚ) (m : MultiImageReceipt)
    (imageCount : ℤ) : Prop where
  grouped : m.Grouped imageCount
  indexed : m.Indexed
  raises : m.RaisesFirst ratio

/-- How an answer escapes that is no report of an unreadable image. There
are two ways for several photos and one for a single one. Each is put in
terms of what was read, so that it can be told from the text and the
number of photos whether one of them is the case. -/
inductive Escapes (ratio : String → String → ℚ) (readers : Readers) (text : String)
    (imageCount : ℤ) : Prop
  /-- The total of a receipt in one photo is too far from what it should
  be. -/
  | total (reading : Reading ReceiptPayload) (hcount : ¬ 1 < imageCount)
      (hread : readers.receipt text = .ok reading)
      (hraises : reading.payload.toFieldsPayload.TotalRaises)
  /-- So is that of a receipt in several photos. -/
  | multiImageTotal (reading : Reading MultiImagePayload) (hcount : 1 < imageCount)
      (hread : readers.multiImageReceipt text = .ok reading)
      (hraises : reading.payload.toFieldsPayload.TotalRaises)
  /-- It is a receipt in several photos, and reconciling these raises. -/
  | reconciling (m : MultiImageReceipt) (hcount : 1 < imageCount)
      (hvalidated : MultiImageReceipt.modelValidateJson readers text = .ok m)
      (hraises : m.Escapes ratio imageCount)

variable {ratio : String → String → ℚ} {readers : Readers} {response : String} {imageCount : ℤ}

theorem staysInLoop_feedBack {outcome : Except PyError Receipt} :
    StaysInLoop (feedBack outcome) ↔ ∀ e, outcome = .error e → e.IsValueError := by
  cases outcome with
  | ok r => exact iff_of_true trivial fun e h => absurd h (by simp)
  | error e =>
    cases e with
    | validationError field => exact iff_of_true trivial fun e h => Except.error.inj h ▸ trivial
    | valueError text => exact iff_of_true trivial fun e h => Except.error.inj h ▸ trivial
    | indexError => exact iff_of_false id fun h => h _ rfl
    | overflow => exact iff_of_false id fun h => h _ rfl
    | invalidOperation => exact iff_of_false id fun h => h _ rfl

/-- What escapes from reconciling. It is told from the rows that are to be
dropped, because nothing is raised once these are known. -/
theorem reconciled_escapes_iff {m : MultiImageReceipt} :
    (∃ e, m.reconciled ratio imageCount = .error e ∧ ¬ e.IsValueError)
      ↔ m.Escapes ratio imageCount := by
  have hmap : ∀ e, m.reconciled ratio imageCount = .error e
      ↔ m.removedRows ratio imageCount = .error e := by
    intro e
    rw [m.reconciled_eq_map ratio imageCount]
    cases m.removedRows ratio imageCount with
    | error e' => simp [Except.map]
    | ok removed => simp [Except.map]
  by_cases hgrouped : m.Grouped imageCount
  · constructor
    · rintro ⟨e, he, hnot⟩
      obtain ⟨hindexed, hraises⟩ :=
        (m.removedRows_escapes_iff hgrouped).mp ⟨e, hnot, (hmap e).mp he⟩
      exact ⟨hgrouped, hindexed, hraises⟩
    · rintro ⟨-, hindexed, hraises⟩
      obtain ⟨e, hnot, he⟩ := (m.removedRows_escapes_iff hgrouped).mpr ⟨hindexed, hraises⟩
      exact ⟨e, (hmap e).mpr he, hnot⟩
  · -- rows that are not grouped are refused at once
    have hrefused : ∃ text, m.removedRows ratio imageCount = .error (.valueError text) := by
      unfold MultiImageReceipt.removedRows
      split
      · exact ⟨_, rfl⟩
      · next hnot => exact absurd (MultiImageReceipt.grouped_iff.mpr hnot) hgrouped
    obtain ⟨text, htext⟩ := hrefused
    refine iff_of_false ?_ fun h => hgrouped h.grouped
    rintro ⟨e, he, hnot⟩
    obtain rfl := Except.error.inj (htext.symm.trans ((hmap e).mp he))
    exact hnot trivial

/-! ## What validation raises

Validation checks field after field, and each check raises a
`ValidationError` or nothing. The exception is the validator of the total,
which computes, and what it raises is not always one. -/

/-- Nothing but a `ValueError` is raised. -/
def RaisesValueErrors {α : Type} (x : Except PyError α) : Prop :=
  ∀ e, x = .error e → e.IsValueError

namespace RaisesValueErrors

variable {α β : Type}

omit [CaseFolding] in
theorem ok (a : α) : RaisesValueErrors (.ok a) := fun _ h => absurd h (by simp)

omit [CaseFolding] in
theorem error {e : PyError} (h : e.IsValueError) : RaisesValueErrors (.error e : Except PyError α) :=
  fun _ he => Except.error.inj he ▸ h

omit [CaseFolding] in
theorem bind {x : Except PyError α} {f : α → Except PyError β} (hx : RaisesValueErrors x)
    (hf : ∀ a, x = .ok a → RaisesValueErrors (f a)) : RaisesValueErrors (x >>= f) := by
  cases x with
  | error e => exact error (hx e rfl)
  | ok a => exact hf a rfl

omit [CaseFolding] in
theorem map {x : Except PyError α} (hx : RaisesValueErrors x) (f : α → β) :
    RaisesValueErrors (x.map f) := by
  cases x with
  | error e => exact error (hx e rfl)
  | ok a => exact ok (f a)

omit [CaseFolding] in
theorem mapM {f : α → Except PyError β} (hf : ∀ a, RaisesValueErrors (f a)) (l : List α) :
    RaisesValueErrors (l.mapM f) := by
  induction l with
  | nil => exact ok []
  | cons a l ih =>
    rw [List.mapM_cons]
    exact (hf a).bind fun b _ => ih.bind fun bs _ => ok (b :: bs)

end RaisesValueErrors

omit [CaseFolding] in
theorem raisesValueErrors_finiteDecimal (field : String) (d : PyDecimal) :
    RaisesValueErrors (finiteDecimal field d) := by
  cases d with
  | finite x => exact .ok x
  | inf negative => exact .error trivial
  | nan => exact .error trivial

omit [CaseFolding] in
theorem raisesValueErrors_nonnegDecimal (field : String) (d : PyDecimal) :
    RaisesValueErrors (nonnegDecimal field d) := by
  unfold nonnegDecimal
  split
  · split
    · exact .ok _
    · exact .error trivial
  · exact .error trivial

omit [CaseFolding] in
theorem raisesValueErrors_nonnegDecimal? (field : String) (o : Option PyDecimal) :
    RaisesValueErrors (nonnegDecimal? field o) := by
  cases o with
  | none => exact .ok _
  | some d => exact (raisesValueErrors_nonnegDecimal field d).map _

omit [CaseFolding] in
theorem raisesValueErrors_nonnegIndex (field : String) (n : ℤ) :
    RaisesValueErrors (nonnegIndex field n) := by
  unfold nonnegIndex
  split
  · exact .ok _
  · exact .error trivial

omit [CaseFolding] in
theorem TaxLine.raisesValueErrors (p : TaxLinePayload) :
    RaisesValueErrors (TaxLine.modelValidate p) :=
  (raisesValueErrors_nonnegDecimal _ _).bind fun _ _ => .ok _

theorem LineItem.raisesValueErrors (p : LineItemPayload) :
    RaisesValueErrors (LineItem.modelValidate p) := by
  unfold LineItem.modelValidate
  split
  · exact (raisesValueErrors_finiteDecimal _ _).bind fun _ _ =>
      (raisesValueErrors_finiteDecimal _ _).bind fun _ _ => .ok _
  · exact .error trivial

theorem SourceLineItem.raisesValueErrors (p : SourceLineItemPayload) :
    RaisesValueErrors (SourceLineItem.modelValidate p) :=
  (LineItem.raisesValueErrors _).bind fun _ _ =>
    (raisesValueErrors_nonnegIndex _ _).bind fun _ _ => .ok _

omit [CaseFolding] in
theorem DuplicateCandidate.raisesValueErrors (p : DuplicateCandidatePayload) :
    RaisesValueErrors (DuplicateCandidate.modelValidate p) :=
  (raisesValueErrors_nonnegIndex _ _).bind fun _ _ =>
    (raisesValueErrors_nonnegIndex _ _).bind fun _ _ => .ok _

omit [CaseFolding] in
/-- What `sanity_check_total` raises is no `ValueError`. Its operands are
finite, so it can only be an overflow. -/
theorem sanityCheckTotal_raises {v subtotal taxTotal discountTotal : ℚ} {e : PyError}
    (h : sanityCheckTotal v subtotal taxTotal discountTotal = .error e) : ¬ e.IsValueError := by
  unfold sanityCheckTotal at h
  rcases hdiscounted : Decimal.sub (.finite subtotal) (.finite discountTotal) with e' | discounted
  · rw [hdiscounted] at h
    exact Except.error.inj h ▸ Decimal.add_raises hdiscounted
  rw [hdiscounted] at h
  change (Decimal.add discounted (.finite taxTotal) >>= _) = _ at h
  rcases hexpected : Decimal.add discounted (.finite taxTotal) with e' | expected
  · rw [hexpected] at h
    exact Except.error.inj h ▸ Decimal.add_raises hexpected
  rw [hexpected] at h
  change (Decimal.sub (.finite v) expected >>= _) = _ at h
  rcases hdrift : Decimal.sub (.finite v) expected with e' | drift
  · rw [hdrift] at h
    exact Except.error.inj h ▸ Decimal.add_raises hdrift
  rw [hdrift] at h
  change (Decimal.abs drift >>= _) = _ at h
  rcases hdistance : Decimal.abs drift with e' | distance
  · rw [hdistance] at h
    exact Except.error.inj h ▸ Decimal.abs_raises hdistance
  rw [hdistance] at h
  change (Decimal.le distance (.finite (5 / 100)) >>= fun _ => _) = _ at h
  rcases hle : Decimal.le distance (.finite (5 / 100)) with e' | b
  · rw [hle] at h
    exact Except.error.inj h ▸ Decimal.le_raises hle
  · rw [hle] at h
    exact absurd h (by simp [Bind.bind, Except.bind, pure, Except.pure])

omit [CaseFolding] in
theorem checkTotal_raises {p : FieldsPayload} {e : PyError} (h : checkTotal p = .error e) :
    ¬ e.IsValueError := by
  unfold checkTotal at h
  split at h
  · exact sanityCheckTotal_raises h
  · exact absurd h (by simp)

omit [CaseFolding] in
/-- What is checked is the total of the receipt that comes out. Fields
that are not accepted never reach the check, so it may be said of the
accepted ones. -/
theorem checkTotal_eq {p : FieldsPayload} {subtotal total : ℚ} {taxTotal discountTotal : {x : ℚ // 0 ≤ x}}
    (hsubtotal : finiteDecimal "subtotal" p.subtotal = .ok subtotal)
    (hdiscount : nonnegDecimal "discount_total" p.discountTotal = .ok discountTotal)
    (htax : nonnegDecimal "tax_total" p.taxTotal = .ok taxTotal)
    (htotal : finiteDecimal "total" p.total = .ok total) :
    checkTotal p = sanityCheckTotal total subtotal taxTotal.1 discountTotal.1 := by
  have hfinite : ∀ {field : String} {d : PyDecimal} {x : ℚ}, finiteDecimal field d = .ok x →
      d = .finite x := by
    intro field d x h
    cases d with
    | finite y => exact congrArg _ (Except.ok.inj h)
    | inf negative => exact absurd h (by simp [finiteDecimal])
    | nan => exact absurd h (by simp [finiteDecimal])
  unfold checkTotal
  rw [hfinite hsubtotal, hfinite htotal, hdiscount, htax]
  rfl

/-- **Validation raises only `ValueError`s** where the check of the total
does not raise. All other validators report what they do not like, and
pydantic makes of it an error that the caller catches. -/
theorem Receipt.raisesValueErrors {p : ReceiptPayload}
    (hchecked : ¬ p.toFieldsPayload.TotalRaises) : RaisesValueErrors (Receipt.modelValidate p) := by
  unfold Receipt.modelValidate
  refine RaisesValueErrors.bind (fun e he => absurd ⟨e, he⟩ hchecked) fun _ _ => ?_
  refine (RaisesValueErrors.mapM LineItem.raisesValueErrors _).bind fun lineItems _ => ?_
  refine (RaisesValueErrors.mapM TaxLine.raisesValueErrors _).bind fun taxes _ => ?_
  refine (raisesValueErrors_finiteDecimal _ _).bind fun subtotal hsubtotal => ?_
  refine (raisesValueErrors_nonnegDecimal _ _).bind fun discountTotal hdiscount => ?_
  refine (raisesValueErrors_nonnegDecimal _ _).bind fun taxTotal htax => ?_
  refine (raisesValueErrors_nonnegDecimal? _ _).bind fun tip _ => ?_
  refine (raisesValueErrors_finiteDecimal _ _).bind fun total htotal => ?_
  split
  · split
    · split
      · exact .ok _
      · next e he =>
        -- the check of the receipt is the one that was made of its data
        exact absurd ⟨e, (checkTotal_eq hsubtotal hdiscount htax htotal).trans he⟩ hchecked
    · exact .error trivial
  · exact .error trivial
  · exact .error trivial

theorem MultiImageReceipt.raisesValueErrors {p : MultiImagePayload}
    (hchecked : ¬ p.toFieldsPayload.TotalRaises) :
    RaisesValueErrors (MultiImageReceipt.modelValidate p) := by
  unfold MultiImageReceipt.modelValidate
  refine (Receipt.raisesValueErrors hchecked).bind fun receipt _ => ?_
  refine (RaisesValueErrors.mapM SourceLineItem.raisesValueErrors _).bind fun lineItems _ => ?_
  refine (RaisesValueErrors.mapM DuplicateCandidate.raisesValueErrors _).bind fun _ _ => ?_
  exact .ok _

omit [CaseFolding] in
/-- **Only the check of the total escapes from validation.** It computes
with decimals under traps, and an overflow is an `ArithmeticError`, which
pydantic lets through. -/
theorem Reading.validate_raises_iff {Payload α : Type} {reading : Reading Payload}
    {fields : Payload → FieldsPayload} {modelValidate : Payload → Except PyError α}
    (hvalidate : ¬ (fields reading.payload).TotalRaises →
      RaisesValueErrors (modelValidate reading.payload)) :
    RaisesValueErrors (reading.validate fields modelValidate)
      ↔ ¬ (fields reading.payload).TotalRaises := by
  unfold Reading.validate
  constructor
  · rintro hraises ⟨e, he⟩
    rw [he] at hraises
    exact checkTotal_raises he (hraises e rfl)
  · intro hchecked
    refine RaisesValueErrors.bind (fun e he => absurd ⟨e, he⟩ hchecked) fun _ _ => ?_
    split
    · exact .error trivial
    · exact hvalidate hchecked

/-- `Receipt.model_validate_json` stays in the loop unless it reads totals
on which the check raises. -/
theorem Receipt.modelValidateJson_raises_iff (hreaders : readers.RaiseValueErrors) {text : String} :
    RaisesValueErrors (Receipt.modelValidateJson readers text)
      ↔ ∀ reading, readers.receipt text = .ok reading →
        ¬ reading.payload.toFieldsPayload.TotalRaises := by
  unfold Receipt.modelValidateJson
  cases hread : readers.receipt text with
  | error e => exact iff_of_true (.error (hreaders.receipt _ _ hread)) (by simp)
  | ok reading =>
    simp only [Except.ok.injEq, forall_eq']
    exact Reading.validate_raises_iff Receipt.raisesValueErrors

theorem MultiImageReceipt.modelValidateJson_raises_iff (hreaders : readers.RaiseValueErrors)
    {text : String} :
    RaisesValueErrors (MultiImageReceipt.modelValidateJson readers text)
      ↔ ∀ reading, readers.multiImageReceipt text = .ok reading →
        ¬ reading.payload.toFieldsPayload.TotalRaises := by
  unfold MultiImageReceipt.modelValidateJson
  cases hread : readers.multiImageReceipt text with
  | error e => exact iff_of_true (.error (hreaders.multiImageReceipt _ _ hread)) (by simp)
  | ok reading =>
    simp only [Except.ok.injEq, forall_eq']
    exact Reading.validate_raises_iff MultiImageReceipt.raisesValueErrors

/-! ## What escapes

The parts are put together in the order of the source. What is raised
before the reading stays in the loop, and what is raised after it is known
from validation and reconciliation. -/

/-- A receipt in several photos stays in the loop unless the check of its
total raises or, once it is valid, its reconciliation does. -/
theorem raisesValueErrors_reconciled_iff {text : String} :
    RaisesValueErrors (MultiImageReceipt.modelValidateJson readers text >>= fun m =>
        m.reconciled ratio imageCount)
      ↔ RaisesValueErrors (MultiImageReceipt.modelValidateJson readers text)
        ∧ ∀ m, MultiImageReceipt.modelValidateJson readers text = .ok m →
          ¬ m.Escapes ratio imageCount := by
  cases hvalidated : MultiImageReceipt.modelValidateJson readers text with
  | error e =>
    constructor
    · intro h
      exact ⟨fun e' he' => h e' (Except.error.inj he' ▸ rfl), by simp⟩
    · rintro ⟨h, -⟩ e' he'
      exact h e' (Except.error.inj he' ▸ rfl)
  | ok m =>
    have hescapes : RaisesValueErrors (m.reconciled ratio imageCount)
        ↔ ¬ m.Escapes ratio imageCount := by
      rw [← reconciled_escapes_iff]
      exact ⟨fun h ⟨e, he, hnot⟩ => hnot (h e he), fun h e he => by_contra fun hnot => h ⟨e, he, hnot⟩⟩
    show RaisesValueErrors (m.reconciled ratio imageCount) ↔ _
    rw [hescapes]
    constructor
    · intro h
      exact ⟨.ok m, fun m' hm' => Except.ok.inj hm' ▸ h⟩
    · rintro ⟨-, h⟩
      exact h m rfl

/-- What is done with an answer that is read and is no report. The number
of photos decides which of the two models reads it. -/
theorem parseLlmResponse_eq {ratio : String → String → ℚ} {readers : Readers} {response : String}
    {imageCount : ℤ} {payload : Option Json}
    (hpayload : loadPayload readers.loads (rawText response) = .ok payload)
    (hmessage : unreadableMessage payload = none) :
    parseLlmResponse ratio readers response imageCount
      = if 1 < imageCount then
          feedBack (MultiImageReceipt.modelValidateJson readers (rawText response) >>= fun m =>
            m.reconciled ratio imageCount)
        else feedBack (Receipt.modelValidateJson readers (rawText response)) := by
  unfold parseLlmResponse
  dsimp only
  rw [hpayload]
  simp only [bind, Except.bind, hmessage]

/-- **An answer stays in the repair loop** unless it is read, is no report
of an unreadable image, and either the check of its total raises or it is
a receipt in several photos whose reconciliation does. -/
theorem parseLlmResponse_staysInLoop_iff (ratio : String → String → ℚ) (readers : Readers)
    (hreaders : readers.RaiseValueErrors) (response : String) (imageCount : ℤ) :
    StaysInLoop (parseLlmResponse ratio readers response imageCount)
      ↔ ¬ (Answers readers response
        ∧ Escapes ratio readers (rawText response) imageCount) := by
  rcases hpayload : loadPayload readers.loads (rawText response) with e | payload
  · refine iff_of_true ?_ ?_
    · -- what `json.loads` raises beside a decoding error is a `ValueError`
      unfold parseLlmResponse
      dsimp only
      rw [hpayload]
      unfold loadPayload at hpayload
      split at hpayload
      · exact absurd hpayload (by simp)
      · exact absurd hpayload (by simp)
      · obtain rfl := Except.error.inj hpayload
        trivial
    · rintro ⟨⟨payload, hok, -⟩, -⟩
      exact absurd (hpayload.symm.trans hok) (by simp)
  · cases hmessage : unreadableMessage payload with
    | some message =>
      refine iff_of_true ?_ ?_
      · unfold parseLlmResponse
        dsimp only
        rw [hpayload]
        simp only [bind, Except.bind, hmessage]
        trivial
      · rintro ⟨⟨payload', hok, hnone⟩, -⟩
        obtain rfl := Except.ok.inj (hpayload.symm.trans hok)
        exact absurd (hmessage.symm.trans hnone) (by simp)
    | none =>
      have hanswers : Answers readers response := ⟨payload, hpayload, hmessage⟩
      rw [and_iff_right hanswers, parseLlmResponse_eq hpayload hmessage]
      split
      · next hcount =>
        rw [staysInLoop_feedBack]
        refine raisesValueErrors_reconciled_iff.trans ?_
        rw [MultiImageReceipt.modelValidateJson_raises_iff hreaders]
        constructor
        · rintro ⟨htotal, hreconciled⟩ hescapes
          cases hescapes with
          | total reading hnot => exact hnot hcount
          | multiImageTotal reading _ hread hraises => exact htotal reading hread hraises
          | reconciling m _ hvalidated hraises => exact hreconciled m hvalidated hraises
        · intro hnot
          exact ⟨fun reading hread hraises => hnot (.multiImageTotal reading hcount hread hraises),
            fun m hvalidated hraises => hnot (.reconciling m hcount hvalidated hraises)⟩
      · next hcount =>
        rw [staysInLoop_feedBack]
        refine (Receipt.modelValidateJson_raises_iff hreaders).trans ?_
        constructor
        · intro htotal hescapes
          cases hescapes with
          | total reading _ hread hraises => exact htotal reading hread hraises
          | multiImageTotal reading hseveral => exact hcount hseveral
          | reconciling m hseveral => exact hcount hseveral
        · intro hnot reading hread hraises
          exact hnot (.total reading hcount hread hraises)

end Answer

/-! ## An infinite quantity, and totals too far apart -/

section Infinite

open MultiImageReceipt

local instance : CaseFolding := asciiFolding

/-- Any amount of milk, as a photo shows it. -/
def endlessMilk (source : ℕ) : SourceLineItem where
  description := "Milk"
  spendingCategory := .milk
  quantity := .inf false
  unitPrice := 1
  totalPrice := 1
  tags := []
  quantity_pos := rfl
  tags_normal := rfl
  sourceImage := source

/-- Two photos of it, which the model takes for one row. -/
def endlessPhotos : MultiImageReceipt where
  toReceiptFields := emptyFields
  lineItems := [endlessMilk 0, endlessMilk 1]
  duplicateCandidates := [⟨0, 1⟩]

/-- The same as a model writes it. -/
def endlessAnswer : String :=
  "\x7b\"confidence\": 90, \"merchant_name\": \"Shop\", \"date\": \"2024-01-02\", "
    ++ "\"category\": \"grocery\", \"payment_method\": \"cash\", \"subtotal\": 0, \"total\": 0, "
    ++ "\"line_items\": ["
    ++ "\x7b\"description\": \"Milk\", \"spending_category\": \"milk\", \"quantity\": 1e999, "
    ++ "\"unit_price\": 1, \"total_price\": 1, \"source_image\": 0\x7d, "
    ++ "\x7b\"description\": \"Milk\", \"spending_category\": \"milk\", \"quantity\": 1e999, "
    ++ "\"unit_price\": 1, \"total_price\": 1, \"source_image\": 1\x7d], "
    ++ "\"duplicate_candidates\": [\x7b\"first_index\": 0, \"second_index\": 1\x7d]\x7d"

/-- A row of that answer. -/
def endlessRow (source : String) : Json :=
  .object [("description", .string "Milk"), ("spending_category", .string "milk"),
    ("quantity", .number "1e999"), ("unit_price", .number "1"), ("total_price", .number "1"),
    ("source_image", .number source)]

/-- What the readers make of that answer. They are what pydantic and
`json` would make of its text, written out, since neither is part of the
program. -/
def endlessReaders : Readers where
  loads _ := .ok (.object [("confidence", .number "90"), ("merchant_name", .string "Shop"),
    ("date", .string "2024-01-02"), ("category", .string "grocery"),
    ("payment_method", .string "cash"), ("subtotal", .number "0"), ("total", .number "0"),
    ("line_items", .array [endlessRow "0", endlessRow "1"]),
    ("duplicate_candidates",
      .array [.object [("first_index", .number "0"), ("second_index", .number "1")]])])
  receipt _ := .ok {
    payload := emptyFields.modelDump
      ([(endlessMilk 0).toLineItem, (endlessMilk 1).toLineItem].map LineItem.modelDump)
    misread := none }
  multiImageReceipt _ := .ok { payload := endlessPhotos.modelDump, misread := none }

theorem endlessReaders_raise : endlessReaders.RaiseValueErrors :=
  ⟨fun _ _ h => absurd h (by simp [endlessReaders]),
    fun _ _ h => absurd h (by simp [endlessReaders])⟩

theorem checkTotal_emptyFields (items : List LineItemPayload) :
    checkTotal (emptyFields.modelDump items).toFieldsPayload = .ok () := sanityCheckTotal_zero

theorem endlessAnswer_validated (text : String) :
    MultiImageReceipt.modelValidateJson endlessReaders text = .ok endlessPhotos := by
  show (checkTotal (emptyFields.modelDump []).toFieldsPayload >>= fun _ =>
    MultiImageReceipt.modelValidate endlessPhotos.modelDump) = _
  rw [checkTotal_emptyFields, MultiImageReceipt.modelValidate_modelDump]
  rfl

/-- **An answer leaves the repair loop**: the difference of two infinite
quantities is an invalid operation. JSON has no infinity, but Python's
reader of it has, and a quantity only has to be positive. -/
theorem endlessAnswer_escapes :
    parseLlmResponse exactRatio endlessReaders endlessAnswer 2
        = .error (.python .invalidOperation)
      ∧ ¬ StaysInLoop (parseLlmResponse exactRatio endlessReaders endlessAnswer 2) := by
  have hgrouped : endlessPhotos.Grouped 2 :=
    ⟨(grouped_twoPhotos 1 1).sorted, (grouped_twoPhotos 1 1).valid⟩
  have hreconciled : endlessPhotos.reconciled exactRatio 2 = .error .invalidOperation := by
    refine reconciled_twoRows hgrouped rfl rfl ?_
    have hname : ¬ (collapse (casefold "Milk") = "" ∨ collapse (casefold "Milk") = "") := by decide
    have hratio : ¬ exactRatio (collapse (casefold "Milk")) (collapse (casefold "Milk")) < 1 :=
      not_lt.mpr ((one_le_exactRatio_iff _ _).mpr rfl)
    show verifyDuplicate exactRatio (endlessMilk 0).toLineItem (endlessMilk 1).toLineItem = _
    unfold verifyDuplicate
    rw [if_neg (by norm_num)]
    exact (if_neg hname).trans (if_neg hratio)
  have hparse : parseLlmResponse exactRatio endlessReaders endlessAnswer 2
      = .error (.python .invalidOperation) := by
    show feedBack (MultiImageReceipt.modelValidateJson endlessReaders (rawText endlessAnswer) >>= fun m =>
      m.reconciled exactRatio 2) = _
    rw [endlessAnswer_validated]
    show feedBack (endlessPhotos.reconciled exactRatio 2) = _
    rw [hreconciled]
    rfl
  refine ⟨hparse, fun h => ?_⟩
  rw [hparse] at h
  exact h

/-- Totals that are too far apart, in one photo. -/
def farAnswer : String :=
  "\x7b\"confidence\": 90, \"merchant_name\": \"Shop\", \"date\": \"2024-01-02\", "
    ++ "\"category\": \"grocery\", \"payment_method\": \"cash\", \"line_items\": [], "
    ++ "\"subtotal\": \"-5E+999999\", \"discount_total\": \"5E+999999\", \"total\": 0\x7d"

/-- The fields of that answer. -/
def farPayload : ReceiptPayload :=
  { emptyFields.modelDump [] with
    subtotal := .finite (-(5 * 10 ^ Decimal.emax))
    discountTotal := .finite (5 * 10 ^ Decimal.emax) }

/-- What the readers make of it. Each field is read without an error, so
that the validator of the total has what it computes with. -/
def farReaders : Readers where
  loads _ := .ok (.object [("confidence", .number "90"), ("merchant_name", .string "Shop"),
    ("date", .string "2024-01-02"), ("category", .string "grocery"),
    ("payment_method", .string "cash"), ("line_items", .array []),
    ("subtotal", .string "-5E+999999"), ("discount_total", .string "5E+999999"),
    ("total", .number "0")])
  receipt _ := .ok { payload := farPayload, misread := none }
  multiImageReceipt _ := .error (.validationError "duplicate_candidates")

theorem farReaders_raise : farReaders.RaiseValueErrors :=
  ⟨fun _ _ h => absurd h (by simp [farReaders]), fun _ _ h => Except.error.inj h ▸ trivial⟩

/-- What is left of the subtotal is `-1E+1000000`. -/
theorem farPayload_raises : farPayload.toFieldsPayload.TotalRaises := by
  have hnonneg : (0 : ℚ) ≤ 5 * 10 ^ Decimal.emax :=
    mul_nonneg (by norm_num) (zpow_pos (by norm_num) _).le
  have hsub : Decimal.sub (.finite (-(5 * 10 ^ Decimal.emax))) (.finite (5 * 10 ^ Decimal.emax))
      = .error .overflow := by
    show Decimal.fix (-(5 * 10 ^ Decimal.emax) + -(5 * 10 ^ Decimal.emax)) = _
    rw [← neg_add]
    exact fix_overflows ((abs_neg _).trans abs_twice_five)
  refine ⟨.overflow, ?_⟩
  unfold checkTotal farPayload
  dsimp only [ReceiptFields.modelDump]
  rw [nonnegDecimal_finite _ hnonneg]
  show sanityCheckTotal _ (-(5 * 10 ^ Decimal.emax)) _ (5 * 10 ^ Decimal.emax) = _
  unfold sanityCheckTotal
  rw [hsub]
  rfl

/-- The endless answer stays in the loop when it is about one photo, and
the one whose totals are too far apart does not. -/
theorem endlessAnswer_stays :
    StaysInLoop (parseLlmResponse exactRatio endlessReaders endlessAnswer 1)
      ∧ ¬ StaysInLoop (parseLlmResponse exactRatio farReaders farAnswer 1) := by
  constructor
  · refine (parseLlmResponse_staysInLoop_iff exactRatio endlessReaders endlessReaders_raise
      endlessAnswer 1).mpr ?_
    rintro ⟨-, hescapes⟩
    cases hescapes with
    | total reading _ hread hraises =>
      obtain rfl := Except.ok.inj hread
      obtain ⟨e, he⟩ := hraises
      exact absurd ((checkTotal_emptyFields _).symm.trans he) (by simp)
    | multiImageTotal _ hseveral => exact absurd hseveral (lt_irrefl 1)
    | reconciling _ hseveral => exact absurd hseveral (lt_irrefl 1)
  · intro hstays
    refine (parseLlmResponse_staysInLoop_iff exactRatio farReaders farReaders_raise farAnswer
      1).mp hstays ⟨⟨_, rfl, rfl⟩, ?_⟩
    exact .total _ (lt_irrefl 1) rfl farPayload_raises

end Infinite

end VisionBill
