import VisionBill.Writers
import Mathlib.Data.List.ReduceOption

/-!
# Saving line items

An update of a receipt deletes its line items and inserts those of the
request. An item may name an old one by its id, which it keeps; and when
no item names one and there are as many as before, an item continues the
old one at its position if that has the same description. The loop that
decides this raises on an id that is not one of the receipt, and on an id
that it has met before, when it may have written aliases already; they are
rolled back.

## What a request is refused for

There are three reasons, and all of them can be told before anything is
written: a time that cannot be read, an id that is no line item of the
receipt, and an id that is named twice (`Db.Refuses`). The code finds the
third one late. It keeps the ids that it has met, those of rows which were
continued by their position among them, so it is to be shown that it
raises for no other reason: the rows that the items continue have
different ids if the request names no id twice (`nodup_continued`), since
an item continues a row by its position only where no item names any.

## Errors of two kinds

A `ValueError` is what the program itself raises, and the route answers
it. Other errors come from the statements: a text may be too long for its
column, a number may not fit. The result speaks of requests for which no
statement fails (`updateReceipt_savesItems`), and for these the outcome is
decided by the three reasons. Most lemmas here therefore say of a part
that it raises nothing of its own (`NoValueError`).

## What is saved

The rows are the items, in their order, as the columns hold them; each
item has the id that it names; no id is given to two rows; an item that
names none gets a new id or that of the row it continues; and rows that
nothing continues are gone (`SavesItems`).
-/

namespace VisionBill

section Saving

variable [CaseFolding]

/-! ## What a request is refused for

There are three reasons, each of which is a `ValueError`: a time that is
none, an item that names a row of another receipt, and two items that name
the same row. -/

/-- A text of a time that Python cannot read. An empty text stands for no
time, and is not refused. -/
def ReceiptUpdate.HasBadTime (receipt : ReceiptUpdate) : Prop :=
  ∃ s ∈ receipt.time, s ≠ "" ∧ Time.fromisoformat s = none

/-- An item names an id that no line item of the receipt has. -/
def Db.NamesForeignItem (db : Db) (receiptId : UUID) (receipt : ReceiptUpdate) : Prop :=
  ∃ item ∈ receipt.lineItems, ∃ id ∈ item.id,
    ∀ row ∈ db.lineItems.rows, row.receiptId = receiptId → row.id ≠ id

/-- Two items name one id. -/
def ReceiptUpdate.NamesItemTwice (receipt : ReceiptUpdate) : Prop :=
  ¬ (receipt.lineItems.filterMap LineItemUpdate.id).Nodup

/-- What `update_receipt` refuses a request for. All three can be told
from the request and the rows that are there, before anything is
written. -/
def Db.Refuses (db : Db) (receiptId : UUID) (receipt : ReceiptUpdate) : Prop :=
  receipt.HasBadTime ∨ db.NamesForeignItem receiptId receipt ∨ receipt.NamesItemTwice

instance : DecidablePred ReceiptUpdate.HasBadTime := fun receipt =>
  inferInstanceAs (Decidable (∃ s ∈ receipt.time, _))

instance (db : Db) (receiptId : UUID) : DecidablePred (db.Refuses receiptId) := fun receipt =>
  inferInstanceAs (Decidable (_ ∨ (∃ item ∈ receipt.lineItems, ∃ id ∈ item.id, _) ∨ ¬ _))

/-- What is not raised by the program itself. Statements may still
fail. -/
def NoValueError {α : Type} (x : Except DbError α) : Prop :=
  ∀ e, x = .error e → ¬ e.IsValueError

namespace NoValueError

variable {α β : Type} {x : Except DbError α} {f : α → Except DbError β}

omit [CaseFolding] in
theorem ok (a : α) : NoValueError (.ok a : Except DbError α) := fun _ h => absurd h (by simp)

omit [CaseFolding] in
theorem error {e : DbError} (h : ¬ e.IsValueError) : NoValueError (.error e : Except DbError α) :=
  fun _ heq => Except.error.inj heq ▸ h

omit [CaseFolding] in
/-- One step after another: what raises nothing of its own may be put
together. -/
theorem bind (hx : NoValueError x) (hf : ∀ a, x = .ok a → NoValueError (f a)) :
    NoValueError (x >>= f) := by
  intro e he
  cases hxa : x with
  | error e' =>
    rw [hxa] at he
    exact Except.error.inj he ▸ hx e' hxa
  | ok a =>
    rw [hxa] at he
    exact hf a hxa e he

omit [CaseFolding] in
theorem map {g : α → β} (hx : NoValueError x) : NoValueError (x.map g) := by
  intro e he
  cases hxa : x with
  | error e' =>
    rw [hxa] at he
    exact Except.error.inj he ▸ hx e' hxa
  | ok a =>
    rw [hxa] at he
    exact absurd he (by simp [Except.map])

omit [CaseFolding] in
theorem mapM {g : α → Except DbError β} (hg : ∀ a, NoValueError (g a)) (l : List α) :
    NoValueError (l.mapM g) := by
  induction l with
  | nil => exact ok []
  | cons a l ih =>
    rw [List.mapM_cons]
    exact (hg a).bind fun b _ => ih.bind fun bs _ => ok (b :: bs)

end NoValueError

/-! ## What the columns refuse

A value that does not fit raises an exception of another class. So a
`ValueError` is known to have one of the three reasons. -/

omit [CaseFolding] in
theorem noValueError_text (s : String) : NoValueError (text s) := by
  unfold text
  split
  · exact .error (by decide)
  · exact .ok s

omit [CaseFolding] in
theorem noValueError_varchar (n : ℕ) (s : String) : NoValueError (varchar n s) := by
  unfold varchar
  refine (noValueError_text s).bind fun s _ => ?_
  split
  · exact .ok _
  · exact .error (by decide)

omit [CaseFolding] in
theorem noValueError_nullable {α β : Type} {column : α → Except DbError β}
    (hcolumn : ∀ a, NoValueError (column a)) (a : Option α) : NoValueError (nullable column a) := by
  cases a with
  | none => exact .ok none
  | some a => exact (hcolumn a).map

omit [CaseFolding] in
theorem noValueError_floatColumn (p s : ℕ) (x : ℚ) : NoValueError (floatColumn p s x) := by
  unfold floatColumn
  split
  · unfold numericColumn
    dsimp only
    split
    · exact .ok _
    · exact .error (by decide)
  · exact .error (by decide)

omit [CaseFolding] in
theorem noValueError_quantityColumn (x : PyFloat) : NoValueError (quantityColumn x) := by
  unfold quantityColumn
  split
  · exact noValueError_floatColumn _ _ _
  · exact .error (by decide)

omit [CaseFolding] in
theorem noValueError_rateColumn (x : PyFloat) : NoValueError (rateColumn x) := by
  unfold rateColumn
  split
  · exact (noValueError_floatColumn _ _ _).map
  · exact .ok _
  · exact .error (by decide)

omit [CaseFolding] in
/-- The time is read before anything is sent, and nothing else of a
receipt is refused by the program. -/
theorem values_raises {r : ReceiptFields} {e : DbError} (h : r.values = .error e)
    (he : e.IsValueError) : ∃ s ∈ r.time, s ≠ "" ∧ Time.fromisoformat s = none := by
  -- once the time is read, only columns can refuse a value
  have htime : ∀ {t}, receiptTimeValue r.time = .ok t → NoValueError r.values := by
    intro t ht
    unfold ReceiptFields.values
    rw [bind_of_ok ht]
    refine (noValueError_varchar _ _).bind fun _ _ => (noValueError_nullable noValueError_text _).bind
      fun _ _ => (noValueError_nullable (noValueError_varchar _) _).bind fun _ _ =>
      (noValueError_varchar _ _).bind fun _ _ => (noValueError_varchar _ _).bind fun _ _ =>
      (noValueError_floatColumn _ _ _).bind fun _ _ => (noValueError_floatColumn _ _ _).bind
      fun _ _ => (noValueError_floatColumn _ _ _).bind fun _ _ =>
      (noValueError_nullable (noValueError_floatColumn _ _) _).bind fun _ _ =>
      (noValueError_floatColumn _ _ _).bind fun _ _ => (noValueError_varchar _ _).bind
      fun _ _ => .ok _
  cases hr : r.time with
  | none =>
    have hnone : receiptTimeValue r.time = .ok none := by
      rw [hr]
      rfl
    exact absurd he (htime hnone e h)
  | some s =>
    by_cases hempty : s = ""
    · have hnone : receiptTimeValue r.time = .ok none := by
        rw [hr, receiptTimeValue, if_pos hempty]
      exact absurd he (htime hnone e h)
    · cases hiso : Time.fromisoformat s with
      | none => exact ⟨s, rfl, hempty, hiso⟩
      | some t =>
        have hsome : receiptTimeValue r.time = .ok (some t) := by
          rw [hr, receiptTimeValue, if_neg hempty, hiso]
        exact absurd he (htime hsome e h)

omit [CaseFolding] in
/-- A time that cannot be read is refused, before any statement is
sent. -/
theorem values_of_badTime {r : ReceiptFields} {s : String} (hs : s ∈ r.time) (hne : s ≠ "")
    (hiso : Time.fromisoformat s = none) : r.values = .error (.isoformat s) := by
  have htime : receiptTimeValue r.time = .error (.isoformat s) := by
    rw [Option.mem_def.mp hs, receiptTimeValue, if_neg hne, hiso]
  unfold ReceiptFields.values
  rw [htime]
  rfl

/-! ## What is saved -/

/-- The row of an item: what the item says, as the columns hold it. Id and
category are left out, which are decided by the old row as well. -/
structure ItemStored (receiptId : UUID) (position : ℕ) (item : LineItem) (row : LineItemRecord) :
    Prop where
  receiptId_eq : row.receiptId = receiptId
  position_eq : row.position = position
  description : varchar 255 item.description = .ok row.description
  quantity : quantityColumn item.quantity = .ok row.quantity
  unitPrice : amountColumn item.unitPrice = .ok row.unitPrice
  totalPrice : amountColumn item.totalPrice = .ok row.totalPrice
  tags_eq : row.tags = item.tags

/-- The line items of a receipt, after an update of those in `db` by a
request. They are compared with the body, item by item, and with the rows
before: what an item says is stored, and what it does not say is taken
from the row that it continues. -/
structure SavesItems (db : Db) (fresh : ℕ → UUID) (receiptId : UUID) (receipt : ReceiptUpdate)
    (db' : Db) : Prop where
  /-- The rows are the items, in their order. -/
  holds : List.Forall₂ (fun p row => ItemStored receiptId p.2 p.1.toLineItem row)
    receipt.lineItems.zipIdx (db'.listLineItems receiptId)
  /-- An item keeps the id that it names. -/
  keeps : List.Forall₂ (fun item row => ∀ id ∈ item.id, row.id = id) receipt.lineItems
    (db'.listLineItems receiptId)
  /-- No id is given to two rows. -/
  once : ((db'.listLineItems receiptId).map LineItemRecord.id).Nodup
  /-- An item that names no id gets a new one, or that of the row at its
  position. -/
  inherits : List.Forall₂ (fun p row => p.1.id = none → row.id ≠ fresh p.2 →
      (∀ item ∈ receipt.lineItems, item.id = none)
        ∧ (db.listLineItems receiptId).length = receipt.lineItems.length
        ∧ ∃ old ∈ db.listLineItems receiptId, old.id = row.id ∧ old.position = p.2
          ∧ old.description = p.1.description)
    receipt.lineItems.zipIdx (db'.listLineItems receiptId)
  /-- Old rows whose id no item has are gone. -/
  gone : ∀ old ∈ db.listLineItems receiptId,
    (∀ row ∈ db'.listLineItems receiptId, row.id ≠ old.id) → db'.lineItems.get? old.id = none

/-! ## What the insertions refuse -/

theorem noValueError_lineItemRecord (newId receiptId : UUID) (index : ℕ) (item : LineItem)
    (decision : ItemCategoryDecision) :
    NoValueError (lineItemRecord newId receiptId index item decision) :=
  (noValueError_varchar _ _).bind fun _ _ => (noValueError_quantityColumn _).bind fun _ _ =>
    (noValueError_floatColumn _ _ _).bind fun _ _ => (noValueError_floatColumn _ _ _).bind fun _ _ =>
    (NoValueError.mapM noValueError_text _).bind fun _ _ => (noValueError_text _).bind fun _ _ =>
    .ok _

omit [CaseFolding] in
theorem noValueError_taxRecord (newId receiptId : UUID) (tax : TaxLine) :
    NoValueError (taxRecord newId receiptId tax) :=
  (noValueError_varchar _ _).bind fun _ _ =>
    (noValueError_nullable noValueError_rateColumn _).bind fun _ _ =>
    (noValueError_floatColumn _ _ _).bind fun _ _ => .ok _

namespace Db

omit [CaseFolding] in
theorem noValueError_requireReceipt (db : Db) (receiptId : UUID) :
    NoValueError (db.requireReceipt receiptId) := by
  unfold requireReceipt
  split
  · exact .ok ()
  · exact .error (by decide)

theorem noValueError_insertLineItems (db : Db) (fresh : ℕ → UUID) (receiptId : UUID) (index : ℕ)
    (l : List (LineItem × ItemCategoryDecision)) :
    NoValueError (db.insertLineItems fresh receiptId index l) := by
  induction l generalizing db index with
  | nil => exact .ok db
  | cons p l ih =>
    refine (noValueError_lineItemRecord _ _ _ _ _).bind fun row _ =>
      (noValueError_requireReceipt db receiptId).bind fun _ _ => ?_
    cases db.lineItems.insert row with
    | some lineItems => exact ih _ _
    | none => exact .error (by decide)

omit [CaseFolding] in
theorem noValueError_insertTaxes (db : Db) (fresh : ℕ → UUID) (receiptId : UUID) (index : ℕ)
    (l : List TaxLine) : NoValueError (db.insertTaxes fresh receiptId index l) := by
  induction l generalizing db index with
  | nil => exact .ok db
  | cons tax l ih =>
    refine (noValueError_taxRecord _ _ _).bind fun row _ =>
      (noValueError_requireReceipt db receiptId).bind fun _ _ => ?_
    cases db.taxes.insert row with
    | some taxes => exact ih _ _
    | none => exact .error (by decide)

omit [CaseFolding] in
theorem noValueError_remember (db : Db) (ownerId : UUID) (merchantKey : String)
    (category : SpendingCategory) (keys : List String) :
    NoValueError (db.remember ownerId merchantKey category keys) := by
  induction keys generalizing db with
  | nil => exact .ok db
  | cons descriptionKey keys ih =>
    unfold remember
    split
    · exact ih db
    · exact (noValueError_text _).bind fun _ _ => (noValueError_text _).bind fun _ _ => ih _

theorem noValueError_rememberItem (db : Db) (c : UpdateContext) (decision : ItemCategoryDecision)
    (item : LineItemUpdate) : NoValueError (db.rememberItem c decision item) := by
  unfold rememberItem
  split
  · split
    · exact noValueError_remember _ _ _ _ _
    · exact .ok db
  · exact .ok db

end Db

/-! ## The rows that the items continue

Each item continues at most one row, and no row is continued twice. The
induction is on the items, and carries the rows that were continued so
far. -/

namespace UpdateContext

variable {c : UpdateContext} {position : ℕ} {item : LineItemUpdate} {old : Option LineItemRecord}

/-- The row that an item continues: the one with its id, or the one at its
position. -/
theorem old?_spec (h : c.old? position item = .ok old) :
    (∀ id ∈ item.id, ∃ row ∈ old, row.id = id)
      ∧ (item.id = none → ∀ row ∈ old, c.legacyItems = true ∧ row.position = position
        ∧ row.description = item.description) := by
  unfold old? at h
  split at h
  · next id hid =>
    refine ⟨fun id' hid' => ?_, fun hnone => absurd (hid.symm.trans hnone) (by simp)⟩
    obtain rfl := Option.some.inj (hid.symm.trans hid')
    split at h
    · next row hfind =>
      exact ⟨row, (Except.ok.inj h).symm, by simpa using List.find?_some hfind⟩
    · exact absurd h (by simp)
  · next hid =>
    refine ⟨fun id hid' => absurd (hid.symm.trans hid') (by simp), fun _ row hrow => ?_⟩
    split at h
    · next hlegacy =>
      rw [← Except.ok.inj h] at hrow
      obtain ⟨hfind, hdescription⟩ := Option.filter_eq_some_iff.mp hrow
      exact ⟨hlegacy, by simpa using List.find?_some hfind, of_decide_eq_true hdescription⟩
    · rw [← Except.ok.inj h] at hrow
      exact absurd hrow (Option.not_mem_none row)

/-- An id of a row is found. So the loop goes on. -/
theorem old?_isOk (h : ∀ id ∈ item.id, ∃ row ∈ c.oldRows, row.id = id) :
    ∃ old, c.old? position item = .ok old := by
  unfold old?
  split
  · next id hid =>
    obtain ⟨row, hrow, rfl⟩ := h id hid
    cases hfind : c.oldRows.find? (fun row' => row'.id = row.id) with
    | none => exact absurd (decide_eq_true rfl) (List.find?_eq_none.mp hfind row hrow)
    | some old => exact ⟨some old, rfl⟩
  · split
    · exact ⟨_, rfl⟩
    · exact ⟨none, rfl⟩

end UpdateContext

section Continued

variable {c : UpdateContext} {position : ℕ} {items : List LineItemUpdate}
  {olds : List (Option LineItemRecord)}

/-- Every named id is one of the ids that are continued. So where no id is
continued twice, none was named twice. -/
theorem named_sublist (h : Continues c position items olds) :
    (items.filterMap LineItemUpdate.id).Sublist (olds.reduceOption.map LineItemRecord.id) := by
  induction items generalizing position olds with
  | nil =>
    rw [List.forall₂_nil_left_iff.mp h]
    exact List.Sublist.refl _
  | cons item items ih =>
    obtain ⟨old, olds', hold, hrest, rfl⟩ := List.forall₂_cons_left_iff.mp h
    have hsub := ih hrest
    cases hid : item.id with
    | none =>
      rw [List.filterMap_cons_none hid]
      cases old with
      | none => exact hsub
      | some row => exact hsub.cons row.id
    | some id =>
      obtain ⟨row, hrow, rfl⟩ := (UpdateContext.old?_spec hold).1 id hid
      rw [List.filterMap_cons_some hid, Option.mem_def.mp hrow]
      exact hsub.cons_cons row.id

/-- Where an item continues no row but the one that it names, no id is
continued but those. So an id that is met twice is named twice. -/
theorem continued_eq_named (hlegacy : c.legacyItems = false) (h : Continues c position items olds) :
    olds.reduceOption.map LineItemRecord.id = items.filterMap LineItemUpdate.id := by
  induction items generalizing position olds with
  | nil =>
    rw [List.forall₂_nil_left_iff.mp h]
    rfl
  | cons item items ih =>
    obtain ⟨old, olds', hold, hrest, rfl⟩ := List.forall₂_cons_left_iff.mp h
    obtain ⟨hnamed, hplaced⟩ := UpdateContext.old?_spec hold
    cases hid : item.id with
    | none =>
      have hnone : old = none := Option.eq_none_iff_forall_not_mem.mpr fun row hrow =>
        Bool.false_ne_true (hlegacy.symm.trans (hplaced hid row hrow).1)
      rw [hnone, List.filterMap_cons_none hid, List.reduceOption_cons_of_none]
      exact ih hrest
    | some id =>
      obtain ⟨row, hrow, rfl⟩ := hnamed id hid
      rw [List.filterMap_cons_some hid, Option.mem_def.mp hrow]
      exact congrArg (row.id :: ·) (ih hrest)

/-- Where items continue the rows at their positions, each position is
continued once. So no id is met twice. -/
theorem positions_sublist (hids : ∀ item ∈ items, item.id = none)
    (h : Continues c position items olds) :
    (olds.reduceOption.map LineItemRecord.position).Sublist
      (List.range' position items.length) := by
  induction items generalizing position olds with
  | nil =>
    rw [List.forall₂_nil_left_iff.mp h]
    exact List.Sublist.refl _
  | cons item items ih =>
    obtain ⟨old, olds', hold, hrest, rfl⟩ := List.forall₂_cons_left_iff.mp h
    have hsub := ih (fun item' hitem' => hids item' (List.mem_cons_of_mem item hitem')) hrest
    rw [List.length_cons, List.range'_succ]
    cases old with
    | none => exact hsub.cons position
    | some row =>
      obtain ⟨-, hrow, -⟩ :=
        (UpdateContext.old?_spec hold).2 (hids item List.mem_cons_self) row rfl
      rw [List.reduceOption_cons_of_some, List.map_cons, hrow]
      exact hsub.cons_cons position

/-- A row that is continued is one of the receipt. -/
theorem mem_oldRows_of_continued (h : Continues c position items olds) :
    ∀ row ∈ olds.reduceOption, row ∈ c.oldRows := by
  intro row hrow
  rw [List.reduceOption_mem_iff] at hrow
  obtain ⟨i, hi, hget⟩ := List.mem_iff_getElem.mp hrow
  have hlen := h.length_eq
  have hold := h.get (by rw [hlen]; exact hi) hi
  rw [List.get_eq_getElem, List.get_eq_getElem, hget] at hold
  exact UpdateContext.mem_of_old? hold

/-- **No row is continued twice**, if no id is named twice. Items are
either matched by what they name or all of them by position, never
both. -/
theorem nodup_continued (hold : (c.oldRows.map LineItemRecord.id).Nodup)
    (hlegacy : c.legacyItems = true → ∀ item ∈ items, item.id = none)
    (hnamed : (items.filterMap LineItemUpdate.id).Nodup) (h : Continues c position items olds) :
    (olds.reduceOption.map LineItemRecord.id).Nodup := by
  cases hmode : c.legacyItems with
  | false =>
    rw [continued_eq_named hmode h]
    exact hnamed
  | true =>
    have hpositions := (List.nodup_range' 1).sublist (positions_sublist (hlegacy hmode) h)
    refine (List.Nodup.of_map _ hpositions).map_on fun row hrow row' hrow' heq => ?_
    exact List.inj_on_of_nodup_map hold (mem_oldRows_of_continued h row hrow)
      (mem_oldRows_of_continued h row' hrow') heq

/-- **The loop raises nothing of its own** where the rows that are
continued are distinct and have not been met before. The ids it has used
are its accumulator, and so they are generalised in the induction. -/
theorem decideItems_raises {db : Db} {usedIds : List UUID} (h : Continues c position items olds)
    (hnodup : (olds.reduceOption.map LineItemRecord.id).Nodup)
    (hnew : ∀ id ∈ olds.reduceOption.map LineItemRecord.id, id ∉ usedIds) :
    NoValueError (db.decideItems c usedIds position items) := by
  induction items generalizing db usedIds position olds with
  | nil => exact .ok _
  | cons item items ih =>
    obtain ⟨old, olds', hold, hrest, rfl⟩ := List.forall₂_cons_left_iff.mp h
    refine NoValueError.bind (fun e he => absurd (hold.symm.trans he) (by simp)) fun old₁ hold₁ => ?_
    obtain rfl := Except.ok.inj (hold.symm.trans hold₁)
    have hfree : ¬ ∃ row ∈ old, row.id ∈ usedIds := by
      rintro ⟨row, hrow, hmem⟩
      rw [Option.mem_def.mp hrow, List.reduceOption_cons_of_some] at hnew
      exact hnew row.id List.mem_cons_self hmem
    have hnodup' : (olds'.reduceOption.map LineItemRecord.id).Nodup
        ∧ ∀ id ∈ olds'.reduceOption.map LineItemRecord.id,
          id ∉ (old.map LineItemRecord.id).toList ++ usedIds := by
      cases old with
      | none => exact ⟨hnodup, hnew⟩
      | some row =>
        rw [List.reduceOption_cons_of_some, List.map_cons, List.nodup_cons] at hnodup
        refine ⟨hnodup.2, fun id hid hmem => ?_⟩
        rcases List.mem_cons.mp hmem with rfl | hmem
        · exact hnodup.1 hid
        · exact hnew id (List.mem_cons_of_mem _ hid) hmem
    dsimp only
    rw [if_neg hfree]
    refine (db.noValueError_rememberItem _ _ _).bind fun db₁ _ => ?_
    exact (ih hrest hnodup'.1 hnodup'.2).bind fun _ _ => .ok _

/-- And where it returns, they were: an id that is met twice has raised.
The ids used so far are generalised, since the loop compares with
these. -/
theorem decideItems_distinct {db db' : Db} {usedIds : List UUID}
    {decisions : List ItemCategoryDecision}
    (h : db.decideItems c usedIds position items = .ok (db', decisions)) :
    ∃ olds, Continues c position items olds
      ∧ (olds.reduceOption.map LineItemRecord.id).Nodup
      ∧ ∀ id ∈ olds.reduceOption.map LineItemRecord.id, id ∉ usedIds := by
  induction items generalizing db db' usedIds position decisions with
  | nil => exact ⟨[], .nil, List.nodup_nil, fun id hid => absurd hid List.not_mem_nil⟩
  | cons item items ih =>
    obtain ⟨old, hold, h⟩ := bind_eq_ok.mp h
    dsimp only at h
    split at h
    · exact absurd h (by simp [throw, throwThe, MonadExceptOf.throw, bind, Except.bind])
    next hfree =>
    obtain ⟨db₁, -, h⟩ := bind_eq_ok.mp h
    obtain ⟨⟨db₂, rest⟩, hrest, -⟩ := bind_eq_ok.mp h
    obtain ⟨olds, hcontinues, hnodup, hnew⟩ := ih hrest
    refine ⟨old :: olds, .cons hold hcontinues, ?_⟩
    cases old with
    | none => exact ⟨hnodup, hnew⟩
    | some row =>
      rw [List.reduceOption_cons_of_some, List.map_cons, List.nodup_cons]
      refine ⟨⟨fun hmem => hnew row.id hmem List.mem_cons_self, hnodup⟩, fun id hid hused => ?_⟩
      rcases List.mem_cons.mp hid with rfl | hid
      · exact hfree ⟨row, rfl, hused⟩
      · exact hnew id hid (List.mem_append_right _ hused)

end Continued

namespace Db

variable {db db' : Db} {fresh : ℕ → UUID} {receiptId : UUID} {receipt : ReceiptUpdate}
  {caller : Caller} {old row : ReceiptRecord}

/-- When rows are continued by their position. -/
theorem legacyItems_updateContext {ownerId : Option UUID}
    (h : (db.updateContext receiptId receipt ownerId).legacyItems = true) :
    (∀ item ∈ receipt.lineItems, item.id = none)
      ∧ (db.listLineItems receiptId).length = receipt.lineItems.length := by
  obtain ⟨hids, hcount⟩ := (Bool.and_eq_true _ _).mp h
  refine ⟨fun item hitem => ?_, beq_iff_eq.mp hcount⟩
  exact Option.isNone_iff_eq_none.mp (List.all_eq_true.mp hids item hitem)

/-- The items name rows of the receipt. -/
theorem exists_continues (ownerId : Option UUID) (h : ¬ db.NamesForeignItem receiptId receipt) :
    ∃ olds, Continues (db.updateContext receiptId receipt ownerId) 0 receipt.lineItems olds := by
  have hall : ∀ p ∈ receipt.lineItems.zipIdx, ∃ old,
      (db.updateContext receiptId receipt ownerId).old? p.2 p.1 = .ok old := by
    rintro ⟨item, position⟩ hp
    refine UpdateContext.old?_isOk fun id hid => ?_
    by_contra hforeign
    refine h ⟨item, List.fst_mem_of_mem_zipIdx hp, id, hid, fun row hrow hreceipt heq => ?_⟩
    exact hforeign ⟨row, mem_listLineItems.mpr ⟨hrow, hreceipt⟩, heq⟩
  obtain ⟨olds, holds⟩ := mapM_isOk hall
  exact ⟨olds, mapM_eq_ok_iff.mp holds⟩

/-- **An update raises nothing of its own** but for what it refuses. What
is left are errors of the database, which no check of the request can
exclude. -/
theorem updateReceipt_raises (h : ¬ db.Refuses receiptId receipt) :
    NoValueError (db.updateReceipt fresh receiptId receipt caller) := by
  obtain ⟨htime, h⟩ := not_or.mp h
  obtain ⟨hforeign, htwice⟩ := not_or.mp h
  refine NoValueError.bind (fun e he hvalue => htime (values_raises he hvalue)) fun values _ => ?_
  cases db.receiptFor? caller receiptId with
  | none => exact .ok none
  | some old =>
    obtain ⟨olds, holds⟩ := exists_continues old.userId hforeign
    have hnodup := nodup_continued (db.nodup_listLineItems receiptId)
      (fun hlegacy => (legacyItems_updateContext hlegacy).1) (not_not.mp htwice) holds
    refine (decideItems_raises holds hnodup fun _ _ => List.not_mem_nil).bind fun out _ => ?_
    refine NoValueError.bind ?_ fun _ _ => .ok _
    exact (noValueError_insertLineItems _ _ _ _ _).bind fun _ _ => noValueError_insertTaxes _ _ _ _ _

/-- **What it stores it does not refuse.** A request with one of the three
reasons never commits. -/
theorem updateReceipt_accepts
    (h : db.updateReceipt fresh receiptId receipt caller = .ok (some (db', row))) :
    ¬ db.Refuses receiptId receipt := by
  obtain ⟨values, hvalues, h₁⟩ := bind_eq_ok.mp h
  split at h₁
  · exact absurd (Except.ok.inj h₁) (by simp)
  next old hold =>
  obtain ⟨⟨db₁, decisions⟩, hdecide, -⟩ := bind_eq_ok.mp h₁
  obtain ⟨olds, hcontinues, hnodup, -⟩ := decideItems_distinct hdecide
  rintro (⟨s, hs, hne, hiso⟩ | ⟨item, hitem, id, hid, hforeign⟩ | htwice)
  · exact absurd (hvalues.symm.trans (values_of_badTime hs hne hiso)) (by simp)
  · obtain ⟨i, hi, rfl⟩ := List.mem_iff_getElem.mp hitem
    have hlen := hcontinues.length_eq
    rw [List.length_zipIdx] at hlen
    have hold := hcontinues.get (by rw [List.length_zipIdx]; exact hi) (hlen ▸ hi)
    simp only [List.get_eq_getElem, List.getElem_zipIdx] at hold
    obtain ⟨row, hrow, hrowId⟩ := (UpdateContext.old?_spec hold).1 id hid
    rw [Option.mem_def.mp hrow] at hold
    obtain ⟨hmem, hreceipt⟩ := mem_listLineItems.mp (UpdateContext.mem_of_old? hold)
    exact hforeign row hmem hreceipt hrowId
  · exact htwice (hnodup.sublist (named_sublist hcontinues))

/-! ## What an update stores -/

/-- What the row of a line item holds. -/
theorem itemStored_of_lineItemRecord {newId : UUID} {index : ℕ} {item : LineItem}
    {decision : ItemCategoryDecision} {row : LineItemRecord}
    (h : lineItemRecord newId receiptId index item decision = .ok row) :
    ItemStored receiptId index item row := by
  have hinserts := lineItemRecord_spec h
  exact ⟨hinserts.receiptId_eq, hinserts.position_eq, hinserts.description, hinserts.quantity,
    hinserts.unitPrice, hinserts.totalPrice, hinserts.tags_eq⟩

/-- **What an update stores** are the items of the request, with the ids
of the rows that they continue. Together with the refusals it is the whole
contract of a save. -/
theorem updateReceipt_saves
    (h : db.updateReceipt fresh receiptId receipt caller = .ok (some (db', row))) :
    SavesItems db fresh receiptId receipt db' := by
  obtain ⟨old, values, decisions, rows, taxRows, -, heffect⟩ := updateReceipt_spec h
  obtain ⟨ownerId, hrewrites⟩ := updateReceipt_rewrites h
  have hlist := heffect.replaces.listLineItems heffect.stores
  refine ⟨?_, ?_, db'.nodup_listLineItems receiptId, ?_, fun oldRow hold hgone => ?_⟩
  · have hlen := hrewrites.length_eq
    rw [List.length_zipIdx] at hlen
    rw [hlist] at hlen ⊢
    refine List.forall₂_iff_get.mpr ⟨by rw [List.length_zipIdx, hlen], fun i hi hi' => ?_⟩
    rw [List.length_zipIdx] at hi
    have hrow := heffect.stores.get (by rw [heffect.stores.length_eq]; exact hi') hi'
    simp only [List.get_eq_getElem, List.getElem_zipIdx, List.getElem_zip, List.getElem_map,
      Nat.zero_add] at hrow ⊢
    exact itemStored_of_lineItemRecord hrow
  · have hkeeps : List.Forall₂ (fun p row' => ∀ id ∈ p.1.id, row'.id = id)
        receipt.lineItems.zipIdx (db'.listLineItems receiptId) := by
      refine hrewrites.imp fun p row' hrow id hid => ?_
      obtain ⟨continued, hcontinued, hrow⟩ := hrow
      obtain ⟨oldRow, hold, rfl⟩ := (UpdateContext.old?_spec hcontinued).1 id hid
      rw [hrow.id_eq, Option.mem_def.mp hold]
      rfl
    rw [← List.zipIdx_map_fst 0 receipt.lineItems, List.forall₂_map_left_iff]
    exact hkeeps
  · refine hrewrites.imp fun p row' hrow hid hfresh => ?_
    obtain ⟨continued, hcontinued, hrow⟩ := hrow
    cases continued with
    | none => exact absurd hrow.id_eq hfresh
    | some oldRow =>
      obtain ⟨hlegacy, hposition, hdescription⟩ :=
        (UpdateContext.old?_spec hcontinued).2 hid oldRow rfl
      obtain ⟨hids, hcount⟩ := legacyItems_updateContext hlegacy
      exact ⟨hids, hcount, oldRow, UpdateContext.mem_of_old? hcontinued, hrow.id_eq.symm, hposition,
        hdescription⟩
  · -- an old row that nothing continues is not among the new ones, and those of other
    -- receipts have other ids
    obtain ⟨hmem, hreceipt⟩ := mem_listLineItems.mp hold
    refine Table.get?_eq_none_iff.mpr fun row' hrow' heq => ?_
    by_cases hown : row'.receiptId = receiptId
    · exact hgone row' (mem_listLineItems.mpr ⟨hrow', hown⟩) heq
    · rw [heffect.replaces.lineItems, ← hlist] at hrow'
      rcases List.mem_append.mp hrow' with hother | hmine
      · have hsame := Table.eq_of_key_eq db.lineItems (List.mem_filter.mp hother).1 hmem heq
        exact hown (hsame ▸ hreceipt)
      · exact hown (mem_listLineItems.mp hmine).2

end Db

/-! ## The transaction

An exception rolls everything back. So there are two cases, and in one of
them nothing has happened. -/

open ReceiptStatement

variable {db db' : Db} {fresh : ℕ → UUID} {receiptId : UUID} {receipt : ReceiptUpdate}
  {caller : Caller} {old row : ReceiptRecord}

/-- An update that commits: the transaction leaves what the operation
does. -/
theorem transact_of_saved
    (h : db.updateReceipt fresh receiptId receipt caller = .ok (some (db', row))) :
    sql.transact (Transaction.updateReceipt fresh receiptId receipt caller) db
      = (db', .ok (some row)) := by
  refine Statements.transact_of_ok ?_
  rw [alone_updateReceipt, h]
  rfl

/-- An update that is rolled back. Nothing is left of the aliases it has
written. -/
theorem transact_of_raised {e : DbError}
    (h : db.updateReceipt fresh receiptId receipt caller = .error e) :
    sql.transact (Transaction.updateReceipt fresh receiptId receipt caller) db = (db, .error e) := by
  refine Statements.transact_of_error ?_
  rw [alone_updateReceipt, h]
  rfl

/-- A receipt that the caller may see is found. -/
theorem updateReceipt_ne_none (hold : db.receiptFor? caller receiptId = some old) :
    db.updateReceipt fresh receiptId receipt caller ≠ .ok none := by
  intro h
  obtain ⟨values, -, h₁⟩ := bind_eq_ok.mp h
  rw [hold] at h₁
  obtain ⟨out, -, h₂⟩ := bind_eq_ok.mp h₁
  obtain ⟨db₁, -, h₃⟩ := bind_eq_ok.mp h₂
  exact absurd (Except.ok.inj h₃) (by simp)

/-- **Saving line items keeps their identity**: where no statement fails,
an update raises a `ValueError` and leaves everything as it is, if it
refuses the request, and stores the items otherwise. -/
theorem updateReceipt_savesItems (hold : db.receiptFor? caller receiptId = some old)
    (hstatements : ∀ e, (sql.transact
      (Transaction.updateReceipt fresh receiptId receipt caller) db).2 = .error e →
        e.IsValueError) :
    (db.Refuses receiptId receipt ∧ ∃ e, e.IsValueError
        ∧ sql.transact (Transaction.updateReceipt fresh receiptId receipt caller) db
          = (db, .error e))
      ∨ (¬ db.Refuses receiptId receipt ∧ ∃ db' row,
        sql.transact (Transaction.updateReceipt fresh receiptId receipt caller) db
          = (db', .ok (some row))
        ∧ SavesItems db fresh receiptId receipt db') := by
  cases hresult : db.updateReceipt fresh receiptId receipt caller with
  | error e =>
    have htransact := transact_of_raised hresult
    have hvalue := hstatements e (by rw [htransact])
    refine .inl ⟨?_, e, hvalue, htransact⟩
    by_contra hrefuses
    exact Db.updateReceipt_raises hrefuses e hresult hvalue
  | ok out =>
    cases out with
    | none => exact absurd hresult (updateReceipt_ne_none hold)
    | some out =>
      exact .inr ⟨Db.updateReceipt_accepts hresult, out.1, out.2, transact_of_saved hresult,
        Db.updateReceipt_saves hresult⟩

end Saving

/-! ## A receipt with two items -/

section TwoItems

local instance asciiFoldingOfSaved : CaseFolding := asciiFolding

open ReceiptStatement

/-- The row of an item that costs nothing. -/
def freeRow (id : UUID) (position : ℕ) (description : String) : LineItemRecord where
  id := id
  receiptId := 1
  description := description
  originalDescription := description
  spendingCategory := .unknown
  categorySource := .unknown
  quantity := 1
  unitPrice := 0
  totalPrice := 0
  tags := []
  position := position

/-- A receipt with milk and bread. -/
def milkAndBread : Db :=
  { oneReceipt with
    lineItems := ⟨[freeRow 2 0 "Milk", freeRow 3 1 "Bread"], by decide⟩ }

/-- A request with some items, which costs nothing. -/
def freeRequest (time : Option String) (lineItems : List LineItemUpdate) : ReceiptUpdate :=
  { emptyFields with
    time := time
    lineItems := lineItems
    collectionIds := none }

/-- The answer to a request of the owner. -/
def saveFree (receipt : ReceiptUpdate) : Db × Except DbError (Option ReceiptRecord) :=
  sql.transact (Transaction.updateReceipt (fun n => n + 10) 1 receipt ⟨1, false⟩) milkAndBread

theorem exists_saved {receipt : ReceiptUpdate}
    (h : Returns (milkAndBread.updateReceipt (fun n => n + 10) 1 receipt ⟨1, false⟩)
      fun _ => True) :
    ∃ db row, saveFree receipt = (db, .ok (some row)) := by
  obtain ⟨out, hout, -⟩ := exists_of_returns h
  exact ⟨out.1, out.2, transact_of_saved hout⟩

/-- The bread is kept, under its id, and the milk is gone. The request
names one of the two rows, and no other item. -/
theorem bread_saved :
    ∃ db row, saveFree (freeRequest none [freeUpdate 3 "Bread"]) = (db, .ok (some row))
      ∧ SavesItems milkAndBread (fun n => n + 10) 1 (freeRequest none [freeUpdate 3 "Bread"]) db := by
  obtain ⟨db, row, hsaved⟩ : ∃ db row,
      saveFree (freeRequest none [freeUpdate 3 "Bread"]) = (db, .ok (some row)) :=
    exists_saved (by decide +kernel)
  have hstatements : ∀ e, (saveFree (freeRequest none [freeUpdate 3 "Bread"])).2 = .error e →
      e.IsValueError := by
    rw [hsaved]
    exact fun e h => absurd h (by simp)
  have hold : milkAndBread.receiptFor? ⟨1, false⟩ 1 = some (emptyRow 1 1) := by decide +kernel
  rcases updateReceipt_savesItems hold hstatements with ⟨hrefuses, -⟩ | ⟨-, h⟩
  · exact absurd hrefuses (by decide +kernel)
  · exact h

/-- **An empty text of a time** is no ISO time, and the request is not
refused. The code asks whether the text is empty before it parses it, and
then stores no time. -/
theorem emptyTime_saved :
    (∃ s ∈ (freeRequest (some "") []).time, Time.fromisoformat s = none)
      ∧ ∃ db row, saveFree (freeRequest (some "") []) = (db, .ok (some row)) :=
  ⟨⟨"", rfl, by decide⟩, exists_saved (by decide +kernel)⟩

end TwoItems

end VisionBill
