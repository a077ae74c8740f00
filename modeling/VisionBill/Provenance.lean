import VisionBill.Lib.Transition
import VisionBill.ReceiptEffects

/-!
# The history of line items

A receipt is stored by `persist_receipt` and then edited by
`update_receipt`, any number of times. Every edit deletes the line items
and inserts new ones, some of which continue an old one under its id.
Beside the database, a history records with what each id was first
inserted (`EditState.origin`), and the two results compare the rows with
it: the printed text of an item (`edited_keepsText`) and the provenance of
its category (`edited_provenance`).

## Why there is a history

The table has no memory of its own. A row is deleted and another one
inserted under the same identifier, so to say that something about a line
item stays one has to say what the item was. The identifiers carry that:
an item of an edit names the row that it continues by its id, or by its
place if the form is one from before there were ids, and a row that
continues none gets an identifier which no line item has. A history that
is kept beside the database for each identifier is therefore enough, and
no step of the program looks at it.

## What an edit decides

For each item there is the row that it continues, or none. From that pair
the loop of `update_receipt` finds the printed text, the category and its
source, and no other row has a part in it (`updateReceipt_rewrites`). With
that, what one edit does is a matter of one row, and what any number of
edits do is an induction on them.

The printed text is continued with a fallback: where it is empty, the
description of the old row is taken instead. An item that was stored
without a text and has been given a description since gets that one for
its printed text. Sources have no such gap: a category that the model or
the history has given keeps its source until a user decides, and from then
on it is the user's.
-/

namespace VisionBill

section Provenance

variable [CaseFolding]

/-! ## What an update continues

An item that names a row continues it, and so does one at the same place
if no item names any. What continues a row keeps its printed text and, if
the category is the same, the source of it. -/

/-- What the loop of `update_receipt` reads, for a receipt with an owner.
It is read once, before any row is deleted. -/
def Db.updateContext (db : Db) (receiptId : UUID) (receipt : ReceiptUpdate)
    (ownerId : Option UUID) : UpdateContext where
  ownerId := ownerId
  merchantKey := normalizeHistoryKey receipt.merchantName
  oldRows := db.listLineItems receiptId
  legacyItems := (receipt.lineItems.all fun item => item.id.isNone)
    && (db.listLineItems receiptId).length == receipt.lineItems.length

/-- The rows that the items of an update continue, item by item. An item
of a form without ids continues the row at its place. -/
def Continues (c : UpdateContext) (position : ℕ) (items : List LineItemUpdate)
    (olds : List (Option LineItemRecord)) : Prop :=
  List.Forall₂ (fun p old => c.old? p.2 p.1 = .ok old) (items.zipIdx position) olds

/-- A row that an item continues is one of the receipt. It is found by its
id among the rows of the receipt, or it is the one at the position. -/
theorem UpdateContext.mem_of_old? {c : UpdateContext} {position : ℕ} {item : LineItemUpdate}
    {old : LineItemRecord} (h : c.old? position item = .ok (some old)) : old ∈ c.oldRows := by
  unfold old? at h
  split at h
  · split at h
    · next hfind =>
      obtain rfl := Option.some.inj (Except.ok.inj h)
      exact List.mem_of_find?_eq_some hfind
    · exact absurd h (by simp)
  · split at h
    · obtain ⟨hfind, -⟩ := Option.filter_eq_some_iff.mp (Except.ok.inj h)
      exact List.mem_reverse.mp (List.mem_of_find?_eq_some hfind)
    · exact absurd (Except.ok.inj h) (by simp)

/-- A row as an update has written it for an item that continues an old
row, or none. -/
structure Rewrites (newId : UUID) (item : LineItemUpdate) (old : Option LineItemRecord)
    (row : LineItemRecord) : Prop where
  id_eq : row.id = (old.map LineItemRecord.id).getD newId
  original_eq : row.originalDescription = originalOf old item.toLineItem
  category_eq : row.spendingCategory = (updateDecision old item).category
  source_eq : row.categorySource = (updateDecision old item).source

namespace Db

/-- The loop of `update_receipt` decides about each item by the row that
it continues. The loop writes aliases on the way, which decide about
nothing that follows. -/
theorem decideItems_continues {db db' : Db} {c : UpdateContext} {usedIds : List UUID}
    {position : ℕ} {items : List LineItemUpdate} {decisions : List ItemCategoryDecision}
    (h : db.decideItems c usedIds position items = .ok (db', decisions)) :
    ∃ olds, Continues c position items olds
      ∧ decisions = List.zipWith updateDecision olds items := by
  induction items generalizing db usedIds position decisions with
  | nil =>
    obtain ⟨rfl, rfl⟩ := Prod.mk.inj (Except.ok.inj h)
    exact ⟨[], .nil, rfl⟩
  | cons item items ih =>
    obtain ⟨old, hold, h⟩ := bind_eq_ok.mp h
    dsimp only at h
    split at h
    · exact absurd h (by simp [throw, throwThe, MonadExceptOf.throw, bind, Except.bind])
    obtain ⟨db₁, -, h⟩ := bind_eq_ok.mp h
    obtain ⟨⟨db₂, rest⟩, hrest, h⟩ := bind_eq_ok.mp h
    obtain ⟨rfl, rfl⟩ := Prod.mk.inj (Except.ok.inj h)
    obtain ⟨olds, hcontinues, rfl⟩ := ih hrest
    exact ⟨old :: olds, .cons hold hcontinues, rfl⟩

/-- **What an update writes**, row by row: each item has a row, which
continues the old row of the item. The position of an item is part of it,
as items without an id are matched by their positions. -/
theorem updateReceipt_rewrites {db db' : Db} {fresh : ℕ → UUID} {receiptId : UUID}
    {receipt : ReceiptUpdate} {caller : Caller} {row : ReceiptRecord}
    (h : db.updateReceipt fresh receiptId receipt caller = .ok (some (db', row))) :
    ∃ ownerId, List.Forall₂ (fun p row => ∃ old,
        (db.updateContext receiptId receipt ownerId).old? p.2 p.1 = .ok old
          ∧ Rewrites (fresh p.2) p.1 old row)
      receipt.lineItems.zipIdx (db'.listLineItems receiptId) := by
  obtain ⟨values, hvalues, h₁⟩ := bind_eq_ok.mp h
  split at h₁
  · exact absurd (Except.ok.inj h₁) (by simp)
  · next old hold =>
    obtain ⟨⟨db₁, decisions⟩, hdecide, h₂⟩ := bind_eq_ok.mp h₁
    obtain ⟨db₂, hchildren, h₃⟩ := bind_eq_ok.mp h₂
    obtain ⟨rfl, -⟩ := Prod.mk.inj (Option.some.inj (Except.ok.inj h₃))
    obtain ⟨-, hdb₁, -⟩ := decideItems_spec hdecide
    -- the rows that are continued, the decisions and the new rows go together one by one
    obtain ⟨olds, hcontinues, rfl⟩ := decideItems_continues hdecide
    obtain ⟨rows, taxRows, hrows, -, hitems, htaxes, -⟩ := insertChildren_spec hchildren
    have hlist : db₂.listLineItems receiptId = rows :=
      ReplacesChildren.listLineItems ⟨hitems, htaxes⟩ hrows
    rw [hlist]
    have hlen : olds.length = receipt.lineItems.length := by
      rw [← hcontinues.length_eq, List.length_zipIdx]
    have hlen' : rows.length = receipt.lineItems.length := by
      rw [← hrows.length_eq, List.length_zipIdx, List.length_zip, List.length_map,
        List.length_zipWith, hlen, Nat.min_self, Nat.min_self]
    refine ⟨old.userId, List.forall₂_iff_get.mpr ⟨?_, fun i hi hi' => ?_⟩⟩
    · rw [List.length_zipIdx, hlen']
    · rw [List.length_zipIdx] at hi
      have hold := hcontinues.get (by rw [List.length_zipIdx]; exact hi) (hlen.symm ▸ hi)
      have hrow := hrows.get (by rw [hrows.length_eq]; exact hi') hi'
      simp only [List.get_eq_getElem, List.getElem_zipIdx, List.getElem_zip, List.getElem_map,
        List.getElem_zipWith, Nat.zero_add] at hold hrow ⊢
      have hinserts := lineItemRecord_spec hrow
      exact ⟨olds[i], hold, hinserts.id_eq, hinserts.original_eq, hinserts.category_eq,
        hinserts.source_eq⟩

/-- The history of a receipt knows only categories. An alias whose code is
that of no category, or that says unknown, is left out of it. -/
theorem historyForItems_known {db : Db} {userId : Option UUID} {merchantName : String}
    {descriptions : List String} {history : List (String × SpendingCategory)}
    (h : db.historyForItems userId merchantName descriptions = .ok history) :
    ∀ p ∈ history, p.2 ≠ .unknown := by
  unfold historyForItems at h
  split at h
  · obtain rfl := Except.ok.inj h
    exact fun _ hp => absurd hp List.not_mem_nil
  · dsimp only at h
    split at h
    · obtain rfl := Except.ok.inj h
      exact fun _ hp => absurd hp List.not_mem_nil
    · obtain ⟨merchantKey, -, h₁⟩ := bind_eq_ok.mp h
      obtain ⟨keys, -, h₂⟩ := bind_eq_ok.mp h₁
      obtain rfl := Except.ok.inj h₂
      intro p hp
      obtain ⟨a, -, ha⟩ := List.mem_filterMap.mp hp
      obtain ⟨category, hcategory, rfl⟩ := Option.map_eq_some_iff.mp ha
      exact of_decide_eq_true (Option.filter_eq_some_iff.mp hcategory).2

omit [CaseFolding] in
theorem mem_listLineItems {db : Db} {receiptId : UUID} {row : LineItemRecord} :
    row ∈ db.listLineItems receiptId ↔ row ∈ db.lineItems.rows ∧ row.receiptId = receiptId := by
  unfold listLineItems
  rw [mem_orderBy, List.mem_filter, decide_eq_true_eq]

omit [CaseFolding] in
theorem nodup_listLineItems (db : Db) (receiptId : UUID) :
    ((db.listLineItems receiptId).map LineItemRecord.id).Nodup := by
  unfold listLineItems
  rw [((perm_orderBy _ _).map LineItemRecord.id).nodup_iff]
  exact (db.lineItems.filter _).nodup

end Db

/-! ## Edit histories

A history is a run of edits of one receipt, each with the rows of the one
before it. Beside the rows it is remembered where each has come from,
which the program does not store. -/

/-- With what the row of a line item was first inserted: the description
of the item, and the category that was decided for it. -/
structure Origin where
  description : String
  category : SpendingCategory
  deriving DecidableEq

/-- The origins of rows that have just been inserted for some items. -/
def origins (rows : List LineItemRecord) (items : List LineItem) (id : UUID) : Option Origin :=
  ((rows.zip items).find? (fun p => p.1.id = id)).map fun p =>
    ⟨p.2.description, p.1.spendingCategory⟩

/-- The database, and the origins of the line items of a receipt. The
origins are no part of what is stored; they only record it. -/
structure EditState where
  db : Db
  origin : UUID → Option Origin

/-- A successful call of `update_receipt`, with whatever caller and
body. -/
structure Edit where
  caller : Caller
  receipt : ReceiptUpdate
  fresh : ℕ → UUID

namespace EditState

/-- The server makes ids that no line item has. This is all that is
assumed of the identifiers that it makes. -/
def Admits (s : EditState) (e : Edit) : Prop :=
  ∀ row ∈ s.db.lineItems.rows, ∀ i < e.receipt.lineItems.length, e.fresh i ≠ row.id

instance (s : EditState) (e : Edit) : Decidable (s.Admits e) :=
  inferInstanceAs (Decidable (∀ _ ∈ _, ∀ _ < _, _))

/-- The state after an edit; an id keeps its origin as long as it stays.
An id that goes and comes back is new. -/
def edited (s : EditState) (receiptId : UUID) (items : List LineItem) (db : Db) : EditState where
  db := db
  origin := fun id =>
    if id ∈ (s.db.listLineItems receiptId).map LineItemRecord.id then s.origin id
    else origins (db.listLineItems receiptId) items id

/-- One edit of a receipt. An edit that is refused is no step, as it
leaves everything as it was. -/
def step (receiptId : UUID) (s : EditState) (e : Edit) : Option EditState :=
  if s.Admits e then
    match s.db.updateReceipt e.fresh receiptId e.receipt e.caller with
    | .ok (some (db, _)) =>
      some (s.edited receiptId (e.receipt.lineItems.map LineItemUpdate.toLineItem) db)
    | _ => none
  else none

/-- A receipt that `persist_receipt` has just stored, in whatever
database. Runs start there, and what its line items are is taken down as
their origins. The receipt may be new, or written over another one of the
same image. -/
def Persisted (receiptId : UUID) (s : EditState) : Prop :=
  ∃ (db db' : Db) (now : Timestamp) (fresh : ℕ → UUID) (receipt : Receipt)
    (imageId : Option UUID) (status : ReceiptStatus) (verified : Bool) (userId : Option UUID)
    (row : ReceiptRecord),
    db.persistReceipt now fresh receipt imageId status verified userId = .ok (db', row)
      ∧ row.id = receiptId
      ∧ s = ⟨db', origins (db'.listLineItems receiptId) receipt.lineItems⟩

variable {receiptId : UUID} {s s' : EditState} {e : Edit}

/-- The origin of a row that has just been inserted. Ids are distinct, so
the row at a place is found at that place. -/
theorem origins_eq {rows : List LineItemRecord} {items : List LineItem}
    (hnodup : (rows.map LineItemRecord.id).Nodup) {i : ℕ} (hi : i < rows.length)
    (hi' : i < items.length) :
    origins rows items rows[i].id = some ⟨items[i].description, rows[i].spendingCategory⟩ := by
  induction rows generalizing items i with
  | nil => exact absurd hi (Nat.not_lt_zero i)
  | cons row rows ih =>
    cases items with
    | nil => exact absurd hi' (Nat.not_lt_zero i)
    | cons item items =>
      rw [List.map_cons, List.nodup_cons] at hnodup
      unfold origins
      rw [List.zip_cons_cons, List.find?_cons]
      cases i with
      | zero =>
        rw [show decide ((row, item).1.id = (row :: rows)[0].id) = true from decide_eq_true rfl]
        rfl
      | succ i =>
        have hlt := Nat.lt_of_succ_lt_succ hi
        have hne : row.id ≠ rows[i].id := fun heq =>
          hnodup.1 (heq ▸ List.mem_map_of_mem (List.getElem_mem hlt))
        rw [show decide ((row, item).1.id = (row :: rows)[i + 1].id) = false from
          decide_eq_false hne]
        exact ih hnodup.2 hlt (Nat.lt_of_succ_lt_succ hi')

/-- **What an edit does to a line item**: it continues an old one and
keeps its origin, or it is new. Both results are read off from this. -/
theorem step_rewrites (h : step receiptId s e = some s') :
    ∀ row ∈ s'.db.listLineItems receiptId, ∃ p ∈ e.receipt.lineItems.zipIdx, ∃ old,
      (s.db.updateContext receiptId e.receipt none).old? p.2 p.1 = .ok old
        ∧ Rewrites (e.fresh p.2) p.1 old row
        ∧ (old = none → ∀ r ∈ s.db.listLineItems receiptId, r.id ≠ row.id)
        ∧ s'.origin row.id = match old with
          | some old => s.origin old.id
          | none => some ⟨p.1.description, row.spendingCategory⟩ := by
  unfold step at h
  split at h
  swap
  · exact absurd h (by simp)
  next hadmits =>
  split at h
  swap
  · exact absurd h (by simp)
  next db row hupdate =>
  obtain rfl := Option.some.inj h
  obtain ⟨ownerId, hrewrites⟩ := Db.updateReceipt_rewrites hupdate
  intro row hrow
  change row ∈ db.listLineItems receiptId at hrow
  obtain ⟨i, hi, rfl⟩ := List.mem_iff_getElem.mp hrow
  have hlen := hrewrites.length_eq
  rw [List.length_zipIdx] at hlen
  have hi' : i < e.receipt.lineItems.length := hlen ▸ hi
  obtain ⟨old, hold, hrow⟩ := hrewrites.get (by rw [List.length_zipIdx]; exact hi') hi
  simp only [List.get_eq_getElem, List.getElem_zipIdx, Nat.zero_add] at hold hrow
  refine ⟨(e.receipt.lineItems[i], i), List.mk_mem_zipIdx_iff_getElem?.mpr
    (List.getElem?_eq_getElem hi'), old, hold, hrow, ?_⟩
  show _ ∧ (if _ then _ else _) = _
  -- an id that is continued was there; one that is made is new, by what an edit admits
  cases old with
  | some old =>
    have hid : ((db.listLineItems receiptId)[i]).id = old.id := hrow.id_eq
    have hmem : old ∈ s.db.listLineItems receiptId := UpdateContext.mem_of_old? hold
    rw [hid, if_pos (List.mem_map_of_mem hmem)]
    exact ⟨fun h => absurd h (by simp), rfl⟩
  | none =>
    have hid : ((db.listLineItems receiptId)[i]).id = e.fresh i := hrow.id_eq
    have hnew : ∀ r ∈ s.db.listLineItems receiptId, r.id ≠ e.fresh i := fun r hr heq =>
      hadmits r (Db.mem_listLineItems.mp hr).1 i hi' heq.symm
    refine ⟨fun _ => hid ▸ hnew, ?_⟩
    rw [if_neg, origins_eq (db.nodup_listLineItems receiptId) hi
      (by rw [List.length_map]; exact hi'), List.getElem_map]
    rw [hid]
    intro hmem
    obtain ⟨r, hr, heq⟩ := List.mem_map.mp hmem
    exact hnew r hr heq

/-- What a row that has just been persisted is like. Its category was
decided by the history of the user or by the model, and its source says
which. -/
theorem Persisted.decided (h : Persisted receiptId s) :
    ∃ history : List (String × SpendingCategory), (∀ p ∈ history, p.2 ≠ .unknown)
      ∧ ∀ row ∈ s.db.listLineItems receiptId, ∃ item : LineItem,
        row.originalDescription = item.description
          ∧ row.spendingCategory = (Db.persistDecision history item).category
          ∧ row.categorySource = (Db.persistDecision history item).source
          ∧ s.origin row.id = some ⟨item.description, row.spendingCategory⟩ := by
  obtain ⟨db, db', now, fresh, receipt, imageId, status, verified, userId, row, hpersist, rfl,
    rfl⟩ := h
  obtain ⟨values, history, rows, taxRows, heffect⟩ := Db.persistReceipt_spec hpersist
  refine ⟨history, Db.historyForItems_known heffect.history_eq, fun r hr => ?_⟩
  have hlist := heffect.replaces.listLineItems heffect.stores
  change r ∈ db'.listLineItems row.id at hr
  rw [hlist] at hr
  obtain ⟨i, hi, rfl⟩ := List.mem_iff_getElem.mp hr
  have hdecided := heffect.stores.decided
  have hlen := hdecided.length_eq
  rw [List.length_zip, List.length_map, Nat.min_self] at hlen
  have hi' : i < receipt.lineItems.length := hlen ▸ hi
  have hrow := hdecided.get (by rw [List.length_zip, List.length_map, Nat.min_self]; exact hi') hi
  simp only [List.get_eq_getElem, List.getElem_zip, List.getElem_map] at hrow
  obtain ⟨hcategory, hsource, horiginal⟩ := hrow
  refine ⟨receipt.lineItems[i], ?_, hcategory, hsource, ?_⟩
  · rw [horiginal]
    unfold Db.persistDecision
    split <;> rfl
  · show origins (db'.listLineItems row.id) receipt.lineItems _ = _
    rw [hlist]
    exact origins_eq (hlist ▸ db'.nodup_listLineItems row.id) hi hi'

/-! ## The printed text -/

/-- No item with an empty printed text is continued under another
description. It is a condition on the state before an edit, and on its
body. -/
def KeepsText (receiptId : UUID) (s : EditState) (e : Edit) : Prop :=
  ∀ row ∈ s.db.listLineItems receiptId, row.originalDescription = "" → row.description ≠ "" →
    ∀ p ∈ e.receipt.lineItems.zipIdx,
      (s.db.updateContext receiptId e.receipt none).old? p.2 p.1 ≠ .ok (some row)

/-- The printed texts are those with which the items were first inserted.
It follows an item by its id, through all edits that continue it. An item
that an edit has added has its origin in that edit. -/
def TextsKept (receiptId : UUID) (s : EditState) : Prop :=
  ∀ row ∈ s.db.listLineItems receiptId,
    (s.origin row.id).map Origin.description = some row.originalDescription

/-- One edit keeps the printed texts. An item that is new has been
inserted with its own description, and one that is continued with the text
of the old row. -/
theorem TextsKept.step (hkept : TextsKept receiptId s) (hkeeps : KeepsText receiptId s e)
    (h : step receiptId s e = some s') : TextsKept receiptId s' := by
  intro row hrow
  obtain ⟨p, hp, old, hold, hrewrites, -, horigin⟩ := step_rewrites h row hrow
  rw [horigin, hrewrites.original_eq]
  cases old with
  | none => rfl
  | some old =>
    have hmem : old ∈ s.db.listLineItems receiptId := UpdateContext.mem_of_old? hold
    refine (hkept old hmem).trans (congrArg some ?_)
    -- an empty text counts as none, and the description takes its place
    unfold originalOf
    dsimp only
    split
    · next hempty =>
      by_contra hne
      exact hkeeps old hmem hempty (fun hdesc => hne (hempty.trans hdesc.symm)) p hp hold
    · rfl

end EditState

/-- **The printed text of a line item stays**, as long as no edit
continues an item whose printed text is empty and whose description is
not. The condition is on the rows before an edit, and it is what the
fallback of the source turns on. -/
theorem edited_keepsText {receiptId : UUID} {s₀ s : EditState}
    (hpersisted : EditState.Persisted receiptId s₀)
    (run : Transition.Run (EditState.step receiptId) (EditState.KeepsText receiptId) s₀ s) :
    EditState.TextsKept receiptId s := by
  refine run.invariant ?_ fun s e s' hkept hkeeps hstep => hkept.step hkeeps hstep
  obtain ⟨history, -, hrows⟩ := hpersisted.decided
  intro row hrow
  obtain ⟨item, horiginal, -, -, horigin⟩ := hrows row hrow
  rw [horigin, horiginal]
  rfl

/-! ## The provenance of a category

The source of a category is right if it says what has happened: it came
with the answer, from the history, or somebody has chosen it. Each edit is
looked at item by item. -/

/-- What the source of a category says about it: one that the model or the
history has given is still the one with which the item was inserted, and
one of unknown source is unknown. -/
structure Truthful (origin : Option Origin) (row : LineItemRecord) : Prop where
  assigned : row.categorySource = .llm ∨ row.categorySource = .history →
    row.spendingCategory ≠ .unknown ∧ origin.map Origin.category = some row.spendingCategory
  unknown : row.categorySource = .unknown → row.spendingCategory = .unknown

/-- What may become of the category of a row that keeps its id: both it
and its source stay, or the source is the user, who stays the source. So
no edit turns a category back into one that the model or the history has
chosen. -/
structure Provenance (row row' : LineItemRecord) : Prop where
  kept_or_user : (row'.spendingCategory = row.spendingCategory
    ∧ row'.categorySource = row.categorySource) ∨ row'.categorySource = .user
  user_stays : row.categorySource = .user → row'.categorySource = .user

/-- A decision about an old row keeps its category, or the user has
decided. To remember a category is to decide as well, even if it is the
one that was there. -/
theorem updateDecision_some (old : LineItemRecord) (item : LineItemUpdate) :
    ((updateDecision (some old) item).category = old.spendingCategory
        ∧ (updateDecision (some old) item).source = old.categorySource)
      ∨ (updateDecision (some old) item).source = .user := by
  unfold updateDecision
  by_cases hchanged : item.explicitCategory = true ∧ item.spendingCategory ≠ old.spendingCategory
  · right
    simp [hchanged]
  · by_cases hremember : item.rememberCategory = true
    · right
      simp [hremember]
    · left
      simp only [Option.elim_some, Option.isNone_some, Bool.false_eq_true, or_false, false_and,
        if_false]
      exact ⟨if_neg hchanged, if_neg (not_or.mpr ⟨hchanged, hremember⟩)⟩

/-- A decision about a new row is the user's, or it is unknown. An edit
asks neither the model nor the history. -/
theorem updateDecision_none (item : LineItemUpdate) :
    (updateDecision none item).source = .user
      ∨ ((updateDecision none item).source = .unknown
        ∧ (updateDecision none item).category = .unknown) := by
  unfold updateDecision
  by_cases hexplicit : item.explicitCategory = true
  · by_cases hcategory : item.spendingCategory = .unknown
    · by_cases hremember : item.rememberCategory = true
      · left
        simp [hremember]
      · right
        simp [hcategory, hremember]
    · left
      simp [hexplicit, hcategory]
  · have hunknown := item.category_default (by simpa using hexplicit)
    by_cases hremember : item.rememberCategory = true
    · left
      simp [hremember]
    · right
      simp [hexplicit, hunknown, hremember]

namespace EditState

variable {receiptId : UUID} {s s' : EditState} {e : Edit}

/-- The sources of the categories are true. -/
def SourcesTrue (receiptId : UUID) (s : EditState) : Prop :=
  ∀ row ∈ s.db.listLineItems receiptId, Truthful (s.origin row.id) row

/-- What one edit does to a row that keeps its id. A row with the id of an
old one continues it, since new ids are those of no row. -/
theorem step_provenance (h : step receiptId s e = some s') :
    ∀ row ∈ s.db.listLineItems receiptId, ∀ row' ∈ s'.db.listLineItems receiptId,
      row'.id = row.id → Provenance row row' := by
  intro row hrow row' hrow' hid
  obtain ⟨p, -, old, hold, hrewrites, hnew, -⟩ := step_rewrites h row' hrow'
  cases old with
  | none => exact absurd hid.symm (hnew rfl row hrow)
  | some old =>
    have hmem : old ∈ s.db.listLineItems receiptId := UpdateContext.mem_of_old? hold
    obtain rfl : old = row := Table.eq_of_key_eq s.db.lineItems (Db.mem_listLineItems.mp hmem).1
      (Db.mem_listLineItems.mp hrow).1 (hrewrites.id_eq.symm.trans hid)
    have hdecided := updateDecision_some old p.1
    rw [← hrewrites.category_eq, ← hrewrites.source_eq] at hdecided
    refine ⟨hdecided, fun huser => ?_⟩
    rcases hdecided with ⟨-, hsource⟩ | hsource
    · exact hsource.trans huser
    · exact hsource

/-- One edit keeps the sources true. A row that continues another one has
its source, or the user's; a new row is the user's or nobody's. -/
theorem SourcesTrue.step (htrue : SourcesTrue receiptId s) (h : step receiptId s e = some s') :
    SourcesTrue receiptId s' := by
  intro row hrow
  obtain ⟨p, -, old, hold, hrewrites, -, horigin⟩ := step_rewrites h row hrow
  rw [horigin]
  have huser : row.categorySource = .user → ∀ origin, Truthful origin row := fun hsource origin =>
    ⟨fun h => by simp [hsource] at h, fun h => by simp [hsource] at h⟩
  cases old with
  | none =>
    rcases updateDecision_none p.1 with hsource | ⟨hsource, hcategory⟩
    · exact huser (hrewrites.source_eq.trans hsource) _
    · rw [← hrewrites.source_eq] at hsource
      rw [← hrewrites.category_eq] at hcategory
      exact ⟨fun h => by simp [hsource] at h, fun _ => hcategory⟩
  | some old =>
    have hmem : old ∈ s.db.listLineItems receiptId := UpdateContext.mem_of_old? hold
    have hold' := htrue old hmem
    rcases updateDecision_some old p.1 with ⟨hcategory, hsource⟩ | hsource
    · rw [← hrewrites.category_eq] at hcategory
      rw [← hrewrites.source_eq] at hsource
      exact ⟨by rw [hcategory, hsource]; exact hold'.assigned,
        by rw [hcategory, hsource]; exact hold'.unknown⟩
    · exact huser (hrewrites.source_eq.trans hsource) _

/-- A receipt that has just been persisted has true sources. Either the
history had the category, or it is the one that the model gave. -/
theorem Persisted.sourcesTrue (h : Persisted receiptId s) : SourcesTrue receiptId s := by
  obtain ⟨history, hknown, hrows⟩ := h.decided
  intro row hrow
  obtain ⟨item, -, hcategory, hsource, horigin⟩ := hrows row hrow
  rw [horigin]
  unfold Db.persistDecision at hcategory hsource
  split at hsource
  · next category hlookup =>
    rw [hlookup] at hcategory
    refine ⟨fun _ => ⟨?_, rfl⟩, fun h => by simp [hsource] at h⟩
    obtain ⟨l₁, l₂, hhistory, -⟩ := List.lookup_eq_some_iff.mp hlookup
    rw [hcategory]
    exact hknown (_, category) (hhistory ▸ List.mem_append_right l₁ List.mem_cons_self)
  · next hlookup =>
    rw [hlookup] at hcategory
    change row.spendingCategory = item.spendingCategory at hcategory
    change row.categorySource = if _ then _ else _ at hsource
    split at hsource
    · next hne => exact ⟨fun _ => ⟨hcategory ▸ hne, rfl⟩, fun h => by simp [hsource] at h⟩
    · next heq =>
      exact ⟨fun h => by simp [hsource] at h, fun _ => hcategory.trans (not_not.mp heq)⟩

end EditState

/-- **Categories say where they come from**: in every state that edits
reach, the source of a category is true, and every edit keeps category and
source of a row or makes them the user's. -/
theorem edited_provenance {receiptId : UUID} {s₀ s : EditState}
    (hpersisted : EditState.Persisted receiptId s₀)
    (run : Transition.Reachable (EditState.step receiptId) s₀ s) :
    (∀ row ∈ s.db.listLineItems receiptId, Truthful (s.origin row.id) row)
      ∧ ∀ e s', EditState.step receiptId s e = some s' →
        ∀ row ∈ s.db.listLineItems receiptId, ∀ row' ∈ s'.db.listLineItems receiptId,
          row'.id = row.id → Provenance row row' :=
  ⟨run.invariant hpersisted.sourcesTrue fun _ _ _ htrue _ hstep => htrue.step hstep,
    fun _ _ hstep => EditState.step_provenance hstep⟩

end Provenance

/-! ## A receipt with one item -/

section OneLine

local instance asciiFoldingOfLine : CaseFolding := asciiFolding

/-- A line item that costs nothing. -/
def freeItem (description : String) (category : SpendingCategory) : LineItem where
  description := description
  spendingCategory := category
  quantity := .ofInt 1
  unitPrice := 0
  totalPrice := 0
  tags := []
  quantity_pos := isPos_one
  tags_normal := rfl

/-- An edit of that item which names it by its id. -/
def freeUpdate (id : UUID) (description : String) : LineItemUpdate :=
  { freeItem description .unknown with
    id := some id
    rememberCategory := false
    explicitCategory := false
    category_default := fun _ => rfl }

/-- A PUT of the owner with the item. -/
def freeEdit (description : String) : Edit where
  caller := ⟨1, false⟩
  receipt := { emptyFields with
    lineItems := [freeUpdate 2 description]
    collectionIds := none }
  fresh := fun n => n + 10

/-- The receipt with the item, persisted into an empty database. It is the
state in which a run of edits begins. -/
def storedFree (description : String) (category : SpendingCategory) : Option EditState :=
  let receipt : Receipt := { emptyFields with lineItems := [freeItem description category] }
  match Db.empty.persistReceipt 0 (fun n => n + 1) receipt none .unverified false (some 1) with
  | .ok (db, row) =>
    if row.id = 1 then some ⟨db, origins (db.listLineItems row.id) receipt.lineItems⟩ else none
  | .error _ => none

theorem persisted_storedFree {description : String} {category : SpendingCategory} {s : EditState}
    (h : storedFree description category = some s) : EditState.Persisted 1 s := by
  unfold storedFree at h
  dsimp only at h
  split at h
  · next db row hpersist =>
    split at h
    · next hid =>
      refine ⟨_, db, _, _, _, _, _, _, _, row, hpersist, hid, ?_⟩
      rw [← Option.some.inj h, hid]
    · exact absurd h (by simp)
  · exact absurd h (by simp)

/-- The item after some edits, and what can be checked of it. -/
theorem exists_of_edits {guard : EditState → Edit → Prop} [∀ s e, Decidable (guard s e)]
    {p : EditState → Prop} [DecidablePred p] (description : String) (category : SpendingCategory)
    (edits : List Edit)
    (h : ((storedFree description category).any fun s₀ =>
      (Transition.exec (EditState.step 1) guard s₀ edits).any fun s => p s) = true) :
    ∃ s₀ s, EditState.Persisted 1 s₀ ∧ Transition.Run (EditState.step 1) guard s₀ s ∧ p s := by
  obtain ⟨s₀, hs₀, hexec⟩ := (Option.any_eq_true _ _).mp h
  obtain ⟨s, run, hp⟩ := Transition.Run.of_exec edits hexec
  exact ⟨s₀, s, persisted_storedFree hs₀, run, hp⟩

instance (s : EditState) : DecidablePred (EditState.KeepsText 1 s) := fun e => by
  unfold EditState.KeepsText
  infer_instance

/-- Milk stays milk when it is called bread. -/
theorem milk_keepsText :
    ∃ s₀ s, EditState.Persisted 1 s₀
      ∧ Transition.Run (EditState.step 1) (EditState.KeepsText 1) s₀ s
      ∧ (∃ row ∈ s.db.listLineItems 1, row.description = "Bread")
      ∧ EditState.TextsKept 1 s := by
  obtain ⟨s₀, s, hpersisted, run, hrow⟩ : ∃ s₀ s, EditState.Persisted 1 s₀
      ∧ Transition.Run (EditState.step 1) (EditState.KeepsText 1) s₀ s
      ∧ ∃ row ∈ s.db.listLineItems 1, row.description = "Bread" :=
    exists_of_edits "Milk" .unknown [freeEdit "Bread"] (by decide +kernel)
  exact ⟨s₀, s, hpersisted, run, hrow, edited_keepsText hpersisted run⟩

/-- **An empty printed text is replaced**: the item is called milk, and
saved once more. `or` takes the empty text for an absent one, so the new
description becomes what was printed. -/
theorem blank_losesText :
    ∃ s₀ s, EditState.Persisted 1 s₀ ∧ Transition.Reachable (EditState.step 1) s₀ s
      ∧ ¬ EditState.TextsKept 1 s := by
  obtain ⟨s₀, s, hpersisted, run, row, hrow, horiginal, horigin⟩ :
      ∃ s₀ s, EditState.Persisted 1 s₀ ∧ Transition.Reachable (EditState.step 1) s₀ s
        ∧ ∃ row ∈ s.db.listLineItems 1, row.originalDescription = "Milk"
          ∧ s.origin row.id = some ⟨"", .unknown⟩ :=
    exists_of_edits "" .unknown [freeEdit "Milk", freeEdit "Milk"] (by decide +kernel)
  refine ⟨s₀, s, hpersisted, run, fun hkept => ?_⟩
  have hkept := hkept row hrow
  rw [horigin, horiginal] at hkept
  exact absurd (Option.some.inj hkept) (by decide)

/-- The category that the model gave stays, and its source. -/
theorem milk_provenance :
    ∃ s₀ s, EditState.Persisted 1 s₀ ∧ Transition.Reachable (EditState.step 1) s₀ s
      ∧ ∃ row ∈ s.db.listLineItems 1, row.categorySource = .llm
        ∧ Truthful (s.origin row.id) row := by
  obtain ⟨s₀, s, hpersisted, run, row, hrow, hsource⟩ :
      ∃ s₀ s, EditState.Persisted 1 s₀ ∧ Transition.Reachable (EditState.step 1) s₀ s
        ∧ ∃ row ∈ s.db.listLineItems 1, row.categorySource = .llm :=
    exists_of_edits "Milk" .milk [freeEdit "Bread"] (by decide +kernel)
  exact ⟨s₀, s, hpersisted, run, row, hrow, hsource, (edited_provenance hpersisted run).1 row hrow⟩

end OneLine

end VisionBill
