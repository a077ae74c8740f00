import VisionBill.History

/-!
# What the receipt operations do

One lemma for each operation says all that it has done when it returns:
which rows it has written, and that the other tables are as they were. The
results about receipts cite these and never look at the operations again.

## Effects

What an operation has done is a structure with the states before and after
it, and with what it has computed on the way: the values of the columns,
the rows of the children, the decisions about their categories. These are
not part of what the operation returns, but they exist whenever it
returns, and statements about what is stored are read off them.
`UpdateEffect` and `PersistEffect` are the two large ones, and both
contain `ReplacesChildren`, since both replace the children of a receipt.

What is *not* written is part of an effect as well. A table that is the
same before and after is said to be so field by field, and a receipt that
is not the one concerned has the children that it had
(`listLineItems_of_ne`, `taxesOf_of_ne`).

## Values

The columns of a receipt are filled from its fields
(`ReceiptFields.values_spec`). Texts are stored as they are, amounts as
their columns return them, and a time as it is parsed; so the first are
equalities and the others are not.
-/

namespace VisionBill

variable [CaseFolding]

/-! ## The columns of a receipt -/

/-- What is stored of a header. Texts may lose trailing spaces that do not
fit, and the time is stored as one. -/
structure HeaderStored (r : ReceiptFields) (v : ReceiptValues) : Prop where
  confidence : v.confidence = r.confidence
  merchantName : varchar 255 r.merchantName = .ok v.merchantName
  merchantAddress : v.merchantAddress = r.merchantAddress
  receiptNumber : nullable (varchar 100) r.receiptNumber = .ok v.receiptNumber
  date : v.date = r.date
  time : receiptTimeValue r.time = .ok v.time
  currency : varchar 10 r.currency = .ok v.currency
  category : v.category = r.category.text
  paymentMethod : v.paymentMethod = r.paymentMethod.text

/-- What is stored of the totals. Each is rounded to cents, and none is
computed from the line items. -/
structure TotalsStored (r : ReceiptFields) (v : ReceiptValues) : Prop where
  subtotal : amountColumn r.subtotal = .ok v.subtotal
  discountTotal : amountColumn r.discountTotal = .ok v.discountTotal
  taxTotal : amountColumn r.taxTotal = .ok v.taxTotal
  tip : nullable amountColumn r.tip = .ok v.tip
  total : amountColumn r.total = .ok v.total

omit [CaseFolding] in
/-- A short text is stored as it is. -/
theorem eq_of_varchar {n : ℕ} {s s' : String} (h : varchar n s = .ok s')
    (hlen : s.toList.length ≤ n) : s' = s :=
  (eq_of_varchar_iff h).mpr hlen

omit [CaseFolding] in
/-- What the values of a receipt are. The columns are filled one after the
other, and a value that does not fit its column raises, so each has taken
its field. -/
theorem ReceiptFields.values_spec {r : ReceiptFields} {v : ReceiptValues}
    (h : r.values = .ok v) : HeaderStored r v ∧ TotalsStored r v := by
  unfold ReceiptFields.values at h
  obtain ⟨time, htime, h⟩ := bind_eq_ok.mp h
  obtain ⟨merchantName, hname, h⟩ := bind_eq_ok.mp h
  obtain ⟨merchantAddress, haddress, h⟩ := bind_eq_ok.mp h
  obtain ⟨receiptNumber, hnumber, h⟩ := bind_eq_ok.mp h
  obtain ⟨currency, hcurrency, h⟩ := bind_eq_ok.mp h
  obtain ⟨category, hcategory, h⟩ := bind_eq_ok.mp h
  obtain ⟨subtotal, hsubtotal, h⟩ := bind_eq_ok.mp h
  obtain ⟨discountTotal, hdiscount, h⟩ := bind_eq_ok.mp h
  obtain ⟨taxTotal, htax, h⟩ := bind_eq_ok.mp h
  obtain ⟨tip, htip, h⟩ := bind_eq_ok.mp h
  obtain ⟨total, htotal, h⟩ := bind_eq_ok.mp h
  obtain ⟨paymentMethod, hpayment, h⟩ := bind_eq_ok.mp h
  obtain rfl := Except.ok.inj h
  have hcategory' : r.category.text.toList.length ≤ 50 := by cases r.category <;> decide
  have hpayment' : r.paymentMethod.text.toList.length ≤ 50 := by cases r.paymentMethod <;> decide
  exact ⟨⟨rfl, hname, eq_of_nullable_text haddress, hnumber, rfl, htime, hcurrency,
    eq_of_varchar hcategory hcategory', eq_of_varchar hpayment hpayment'⟩,
    ⟨hsubtotal, hdiscount, htax, htip, htotal⟩⟩

/-! ## The children of a receipt

An operation replaces the children of one receipt and leaves all others as
they are. This is said once, and followed by what the two lists of the
receipt are then. -/

/-- The children of a receipt are these line items and taxes, and those of
other receipts are as before. -/
structure ReplacesChildren (db db' : Db) (receiptId : UUID) (rows : List LineItemRecord)
    (taxRows : List TaxRecord) : Prop where
  lineItems : db'.lineItems.rows
    = db.lineItems.rows.filter (fun row => row.receiptId ≠ receiptId) ++ rows
  taxes : db'.taxes.rows = db.taxes.rows.filter (fun row => row.receiptId ≠ receiptId) ++ taxRows

/-- The taxes of a receipt. -/
def Db.taxesOf (db : Db) (receiptId : UUID) : List TaxRecord :=
  db.taxes.rows.filter (fun row => row.receiptId = receiptId)

omit [CaseFolding] in
/-- Stored taxes belong to their receipt. -/
theorem StoresTaxes.receiptId {fresh : ℕ → UUID} {receiptId : UUID} {index : ℕ} {l : List TaxLine}
    {rows : List TaxRecord} (h : StoresTaxes fresh receiptId index l rows) :
    ∀ row ∈ rows, row.receiptId = receiptId := by
  intro row hrow
  obtain ⟨i, hi, rfl⟩ := List.mem_iff_getElem.mp hrow
  exact (taxRecord_spec (h.get (by rw [h.length_eq]; exact hi) hi)).receiptId_eq

omit [CaseFolding] in
/-- Rows that were replaced under one key are as before under another one.
Line items and taxes of other receipts are safe by this. -/
theorem filter_replaced {ρ : Type} (key : ρ → UUID) {receiptId other : UUID}
    (hne : other ≠ receiptId) {l rows : List ρ} (hrows : ∀ row ∈ rows, key row = receiptId) :
    (l.filter (fun row => key row ≠ receiptId) ++ rows).filter (fun row => key row = other)
      = l.filter fun row => key row = other := by
  have hnone : rows.filter (fun row => key row = other) = [] := by
    refine List.filter_eq_nil_iff.mpr fun row hrow => ?_
    rw [hrows row hrow]
    simpa using Ne.symm hne
  rw [List.filter_append, hnone, List.append_nil, List.filter_filter]
  refine List.filter_congr fun row _ => ?_
  by_cases hother : key row = other
  · simp [hother, hne]
  · simp [hother]

namespace ReplacesChildren

variable {db db' : Db} {receiptId : UUID} {rows : List LineItemRecord} {taxRows : List TaxRecord}
  {fresh : ℕ → UUID} {index : ℕ}

/-- The line items that a listing returns. -/
theorem listLineItems (h : ReplacesChildren db db' receiptId rows taxRows)
    {l : List (LineItem × ItemCategoryDecision)} (hrows : StoresItems fresh receiptId index l rows) :
    db'.listLineItems receiptId = rows :=
  Db.listLineItems_eq h.lineItems (fun _ hrow => by simpa using (List.mem_filter.mp hrow).2)
    hrows.receiptId hrows.sorted

omit [CaseFolding] in
/-- The taxes that a listing returns. -/
theorem taxesOf (h : ReplacesChildren db db' receiptId rows taxRows) {l : List TaxLine}
    (hrows : StoresTaxes fresh receiptId index l taxRows) : db'.taxesOf receiptId = taxRows := by
  unfold Db.taxesOf
  rw [h.taxes, List.filter_append, List.filter_eq_nil_iff.mpr, List.filter_eq_self.mpr]
  · exact List.nil_append taxRows
  · intro row hrow
    exact decide_eq_true (hrows.receiptId row hrow)
  · intro row hrow
    simpa using (List.mem_filter.mp hrow).2

/-- The line items of another receipt. -/
theorem listLineItems_of_ne (h : ReplacesChildren db db' receiptId rows taxRows)
    {l : List (LineItem × ItemCategoryDecision)} (hrows : StoresItems fresh receiptId index l rows)
    {other : UUID} (hne : other ≠ receiptId) :
    db'.listLineItems other = db.listLineItems other := by
  unfold Db.listLineItems
  rw [h.lineItems, filter_replaced LineItemRecord.receiptId hne hrows.receiptId]

omit [CaseFolding] in
/-- The taxes of another receipt. -/
theorem taxesOf_of_ne (h : ReplacesChildren db db' receiptId rows taxRows) {l : List TaxLine}
    (hrows : StoresTaxes fresh receiptId index l taxRows) {other : UUID} (hne : other ≠ receiptId) :
    db'.taxesOf other = db.taxesOf other := by
  unfold Db.taxesOf
  rw [h.taxes, filter_replaced TaxRecord.receiptId hne hrows.receiptId]

end ReplacesChildren

/-! ## `update_receipt`

What a successful update does, in one structure: the row, the children,
and the aliases. Each result about updates starts from it, and none of
them opens the function. -/

/-- What `update_receipt` has done when it returns a row. The caller owns
the row or may see everything, the aliases are those of the loop, and what
is not mentioned is as before. -/
structure UpdateEffect (db : Db) (fresh : ℕ → UUID) (receiptId : UUID) (receipt : ReceiptUpdate)
    (db' : Db) (old row : ReceiptRecord) (values : ReceiptValues)
    (decisions : List ItemCategoryDecision) (rows : List LineItemRecord)
    (taxRows : List TaxRecord) : Prop where
  values_eq : receipt.values = .ok values
  row_eq : row = { old with toReceiptValues := values }
  decided : decisions.length = receipt.lineItems.length
  stores : StoresItems fresh receiptId 0
    ((receipt.lineItems.map LineItemUpdate.toLineItem).zip decisions) rows
  storesTaxes : StoresTaxes fresh receiptId receipt.lineItems.length receipt.taxes taxRows
  replaces : ReplacesChildren db db' receiptId rows taxRows
  aliases : ∀ k, db'.alias? k =
    if k.Writable old.userId (normalizeHistoryKey receipt.merchantName) then
      decidedAlias (db.alias? k) (lastRemembered k.descriptionKey
        ((decisions.map ItemCategoryDecision.labels).zip receipt.lineItems))
    else db.alias? k
  sendable : ∀ k : AliasKey, k.Writable old.userId (normalizeHistoryKey receipt.merchantName) →
    lastRemembered k.descriptionKey
      ((decisions.map ItemCategoryDecision.labels).zip receipt.lineItems) ≠ none → k.Sendable
  frame : db' = { db with
    receipts := db.receipts.update receiptId
      (fun r => { r with toReceiptValues := values }) fun _ => rfl
    lineItems := db'.lineItems
    taxes := db'.taxes
    aliases := db'.aliases }

/-- The category that an update decides for a description key, read off
the line items that are stored. So what was remembered can be told from
the database alone, without the decisions. -/
def Db.decidedCategory (db : Db) (receiptId : UUID) (items : List LineItemUpdate)
    (descriptionKey : String) : Option SpendingCategory :=
  lastRemembered descriptionKey (((db.listLineItems receiptId).map LineItemRecord.labels).zip items)

/-- The stored rows carry the labels of the decisions, so what an update
has decided about a key can be read off them. -/
theorem UpdateEffect.decidedCategory_eq {db db' : Db} {fresh : ℕ → UUID} {receiptId : UUID}
    {receipt : ReceiptUpdate} {old row : ReceiptRecord} {values : ReceiptValues}
    {decisions : List ItemCategoryDecision} {rows : List LineItemRecord}
    {taxRows : List TaxRecord}
    (h : UpdateEffect db fresh receiptId receipt db' old row values decisions rows taxRows)
    (descriptionKey : String) :
    db'.decidedCategory receiptId receipt.lineItems descriptionKey
      = lastRemembered descriptionKey
          ((decisions.map ItemCategoryDecision.labels).zip receipt.lineItems) := by
  have hlen : decisions.length = (receipt.lineItems.map LineItemUpdate.toLineItem).length := by
    rw [List.length_map, h.decided]
  have hlabels : rows.map LineItemRecord.labels = decisions.map ItemCategoryDecision.labels := by
    have hsame : List.Forall₂ (· = ·)
        ((((receipt.lineItems.map LineItemUpdate.toLineItem).zip decisions).map Prod.snd).map
          ItemCategoryDecision.labels) (rows.map LineItemRecord.labels) := by
      rw [List.map_map, List.forall₂_map_left_iff, List.forall₂_map_right_iff]
      exact h.stores.decided.imp fun p row ⟨hcategory, _, horiginal⟩ =>
        Prod.ext horiginal.symm hcategory.symm
    rw [List.forall₂_eq_eq_eq, List.map_snd_zip hlen.le] at hsame
    exact hsame.symm
  unfold Db.decidedCategory
  rw [h.replaces.listLineItems h.stores, hlabels]

namespace Db

/-- **What `update_receipt` does**, in every state in which it returns a
row. The effect is a structure with a field for each table, so that a
later proof takes the field that it needs and never unfolds the
function. -/
theorem updateReceipt_spec {db db' : Db} {fresh : ℕ → UUID} {receiptId : UUID}
    {receipt : ReceiptUpdate} {caller : Caller} {row : ReceiptRecord}
    (h : db.updateReceipt fresh receiptId receipt caller = .ok (some (db', row))) :
    ∃ old values decisions rows taxRows, db.receiptFor? caller receiptId = some old
      ∧ UpdateEffect db fresh receiptId receipt db' old row values decisions rows taxRows := by
  obtain ⟨values, hvalues, h₁⟩ := bind_eq_ok.mp h
  split at h₁
  · exact absurd (Except.ok.inj h₁) (by simp)
  · next old hold =>
    obtain ⟨⟨db₁, decisions⟩, hdecide, h₂⟩ := bind_eq_ok.mp h₁
    obtain ⟨db₂, hchildren, h₃⟩ := bind_eq_ok.mp h₂
    obtain ⟨rfl, rfl⟩ := Prod.mk.inj (Option.some.inj (Except.ok.inj h₃))
    obtain ⟨hlen, hdb₁, halias, hsend⟩ := decideItems_spec hdecide
    obtain ⟨rows, taxRows, hrows, htaxRows, hitems, htaxes, hdb₂⟩ := insertChildren_spec hchildren
    rw [List.length_map] at htaxRows
    refine ⟨old, values, decisions, rows, taxRows, hold, hvalues, rfl, hlen, hrows, htaxRows,
      ⟨?_, ?_⟩, fun k => ?_, hsend, ?_⟩
    · rw [hitems, hdb₁]
    · rw [htaxes, hdb₁]
    · have hsame : db₂.alias? k = db₁.alias? k := by
        rw [hdb₂]
        rfl
      rw [hsame]
      exact halias k
    · rw [hdb₂, hdb₁]

/-! ## `persist_receipt`

The same for the other function, with its two cases: the row is new, or it
was there. -/

end Db

/-- What `persist_receipt` has done when it returns. The receipt is the
one of the image, if there is one, with its identifier and the time of its
creation. -/
structure PersistEffect (db : Db) (now : Timestamp) (fresh : ℕ → UUID) (receipt : Receipt)
    (imageId : Option UUID) (status : ReceiptStatus) (verified : Bool) (userId : Option UUID)
    (db' : Db) (row : ReceiptRecord) (values : ReceiptValues)
    (history : List (String × SpendingCategory)) (rows : List LineItemRecord)
    (taxRows : List TaxRecord) : Prop where
  values_eq : receipt.values = .ok values
  history_eq : db.historyForItems userId receipt.merchantName
    (receipt.lineItems.map LineItem.description) = .ok history
  writes : ∃ db₁, db.writeReceipt now (fresh 0) values imageId status verified userId
    = .ok (db₁, row) ∧ db' = { db₁ with lineItems := db'.lineItems, taxes := db'.taxes }
  stores : StoresItems (fun n => fresh (n + 1)) row.id 0
    (receipt.lineItems.zip (receipt.lineItems.map (Db.persistDecision history))) rows
  storesTaxes : StoresTaxes (fun n => fresh (n + 1)) row.id receipt.lineItems.length
    receipt.taxes taxRows
  replaces : ReplacesChildren db db' row.id rows taxRows

namespace Db

/-- What writing the row of a receipt does: it rewrites the row of the
image, or inserts one. -/
inductive WriteEffect (db : Db) (now : Timestamp) (newId : UUID) (values : ReceiptValues)
    (imageId : Option UUID) (status : ReceiptStatus) (verified : Bool) (userId : Option UUID)
    (db' : Db) (row : ReceiptRecord) : Prop
  | updated (i : UUID) (old : ReceiptRecord) (himage : imageId = some i)
      (hold : db.receiptOfImage? i = some old)
      (hrow : row = rewritten values status verified userId old)
      (hdb : db' = { db with
        receipts := db.receipts.update old.id (rewritten values status verified userId)
          fun _ => rfl })
  | inserted (hnone : ∀ i ∈ imageId, db.receiptOfImage? i = none)
      (hfree : ∀ i ∈ imageId, ∀ r ∈ db.receipts.rows, r.imageId ≠ some i)
      (hexists : ∀ i ∈ imageId, (db.images.get? i).isSome)
      (hrow : row = {
        toReceiptValues := values
        id := newId
        status := status
        verified := verified
        imageId := imageId
        userId := userId
        createdAt := now })
      (hinsert : db.receipts.insert row = some db'.receipts)
      (hdb : db' = { db with receipts := db'.receipts })

omit [CaseFolding] in
theorem writeReceipt_spec {db db' : Db} {now : Timestamp} {newId : UUID} {values : ReceiptValues}
    {imageId : Option UUID} {status : ReceiptStatus} {verified : Bool} {userId : Option UUID}
    {row : ReceiptRecord}
    (h : db.writeReceipt now newId values imageId status verified userId = .ok (db', row)) :
    WriteEffect db now newId values imageId status verified userId db' row := by
  unfold writeReceipt at h
  split at h
  · next old hold =>
    -- the image has a receipt, which is rewritten
    obtain ⟨i, himage, hold⟩ := Option.bind_eq_some_iff.mp hold
    obtain ⟨rfl, rfl⟩ := Prod.mk.inj (Except.ok.inj h)
    exact .updated i old himage hold rfl rfl
  · next hnone =>
    -- it has none, and the new row passes the index, the foreign key and the primary key
    have hnone : ∀ i ∈ imageId, db.receiptOfImage? i = none := fun i hi => by
      rw [Option.mem_def] at hi
      rw [hi] at hnone
      exact hnone
    obtain ⟨db₁, hinsert, heq⟩ := map_eq_ok h
    obtain ⟨rfl, rfl⟩ := Prod.mk.inj heq
    unfold insertReceipt at hinsert
    split at hinsert
    · exact absurd hinsert (by simp)
    · next hunique =>
      split at hinsert
      · exact absurd hinsert (by simp)
      · next hfk =>
        split at hinsert
        · next receipts hreceipts =>
          obtain rfl := Except.ok.inj hinsert
          refine .inserted hnone ?_ ?_ rfl hreceipts rfl
          · intro i hi r hr heq
            exact hunique ⟨r, hr, by rw [heq]; rfl, heq.trans hi.symm⟩
          · intro i hi
            by_contra hno
            exact hfk ⟨i, hi, by simpa using hno⟩
        · exact absurd hinsert (by simp)

/-- **What `persist_receipt` does**, in every state in which it returns.
Like the effect of an update it is stated once and used by all modules
above. -/
theorem persistReceipt_spec {db db' : Db} {now : Timestamp} {fresh : ℕ → UUID} {receipt : Receipt}
    {imageId : Option UUID} {status : ReceiptStatus} {verified : Bool} {userId : Option UUID}
    {row : ReceiptRecord}
    (h : db.persistReceipt now fresh receipt imageId status verified userId = .ok (db', row)) :
    ∃ values history rows taxRows, PersistEffect db now fresh receipt imageId status verified
      userId db' row values history rows taxRows := by
  obtain ⟨values, hvalues, h₁⟩ := bind_eq_ok.mp h
  obtain ⟨⟨db₁, row₁⟩, hwrite, h₂⟩ := bind_eq_ok.mp h₁
  obtain ⟨history, hhistory, h₃⟩ := bind_eq_ok.mp h₂
  obtain ⟨db₂, hchildren, h₄⟩ := bind_eq_ok.mp h₃
  obtain ⟨rfl, rfl⟩ := Prod.mk.inj (Except.ok.inj h₄)
  obtain ⟨rows, taxRows, hrows, htaxRows, hitems, htaxes, hdb₂⟩ := insertChildren_spec hchildren
  have hsame : db₁ = { db with receipts := db₁.receipts } := by
    cases writeReceipt_spec hwrite with
    | updated i old himage hold hrow hdb => rw [hdb]
    | inserted hnone hfree hexists hrow hinsert hdb => exact hdb
  refine ⟨values, history, rows, taxRows, hvalues, ?_, ⟨db₁, hwrite, hdb₂⟩, hrows, htaxRows,
    ⟨?_, ?_⟩⟩
  · rw [hsame] at hhistory
    exact hhistory
  · rw [hitems, hsame]
  · rw [htaxes, hsame]

end Db

/-! ## Receipt rows

What each of the operations does to the table of receipts: one row is
written, with its values or its status, or it is removed. -/

/-- The row of a receipt is rewritten, if there is one, and no other row
of a receipt or an image is. This is how results that only care for one
column look at an operation. -/
structure WritesReceipt (db : Db) (receiptId : UUID) (f : ReceiptRecord → ReceiptRecord)
    (db' : Db) : Prop where
  get : ∀ r, db'.receipts.get? r = if r = receiptId then (db.receipts.get? receiptId).map f
    else db.receipts.get? r
  images : db'.images = db.images

omit [CaseFolding] in
theorem Db.receiptOfImage?_spec {db : Db} {imageId : UUID} {row : ReceiptRecord}
    (h : db.receiptOfImage? imageId = some row) :
    db.receipts.get? row.id = some row ∧ row.imageId = some imageId := by
  have hmem := List.mem_of_mem_head? (Option.mem_def.mpr h)
  rw [mem_orderBy, List.mem_filter] at hmem
  exact ⟨Table.get?_eq_some_iff.mpr ⟨hmem.1, rfl⟩, of_decide_eq_true hmem.2⟩

omit [CaseFolding] in
theorem writesReceipt_update {db db' : Db} {receiptId : UUID} {f : ReceiptRecord → ReceiptRecord}
    (hf : ∀ r, (f r).id = r.id) (h : db'.receipts = db.receipts.update receiptId f hf)
    (himages : db'.images = db.images) : WritesReceipt db receiptId f db' :=
  ⟨fun r => by rw [h, Table.get?_update], himages⟩

theorem UpdateEffect.writesReceipt {db db' : Db} {fresh : ℕ → UUID} {receiptId : UUID}
    {receipt : ReceiptUpdate} {old row : ReceiptRecord} {values : ReceiptValues}
    {decisions : List ItemCategoryDecision} {rows : List LineItemRecord}
    {taxRows : List TaxRecord}
    (h : UpdateEffect db fresh receiptId receipt db' old row values decisions rows taxRows) :
    WritesReceipt db receiptId (fun r => { r with toReceiptValues := values }) db' := by
  rw [h.frame]
  exact writesReceipt_update (fun _ => rfl) rfl rfl

omit [CaseFolding] in
theorem Db.verifyReceipt_spec {db db' : Db} {receiptId : UUID} {caller : Caller}
    {row : ReceiptRecord} (h : db.verifyReceipt receiptId caller = some (db', row)) :
    WritesReceipt db receiptId (fun r => { r with status := .verified, verified := true }) db' := by
  obtain ⟨old, -, heq⟩ := Option.map_eq_some_iff.mp h
  rw [← (Prod.mk.inj heq).1]
  exact writesReceipt_update (fun _ => rfl) rfl rfl

omit [CaseFolding] in
/-- What `delete_receipt` does: the row and its children are gone, and
images that named the receipt name none. -/
theorem Db.deleteReceipt_spec {db db' : Db} {benchmarked : Bool} {receiptId : UUID}
    {caller : Caller} {row : ReceiptRecord}
    (h : db.deleteReceipt benchmarked receiptId caller = .ok (some (db', row))) :
    db.receiptFor? caller receiptId = some row
      ∧ (∀ r, db'.receipts.get? r = if r = receiptId then none else db.receipts.get? r)
      ∧ ∀ i, db'.images.get? i = (db.images.get? i).map
        (fun i => { i with receiptId := i.receiptId.filter (· ≠ receiptId) }) := by
  unfold Db.deleteReceipt at h
  split at h
  · exact absurd (Except.ok.inj h) (by simp)
  · next old hold =>
    split at h
    · exact absurd h (by simp)
    · obtain ⟨rfl, rfl⟩ := Prod.mk.inj (Option.some.inj (Except.ok.inj h))
      refine ⟨hold, Table.get?_filter_ne db.receipts receiptId, fun i => ?_⟩
      rw [Table.get?_modify]

omit [CaseFolding] in
/-- The links of a deleted receipt go with it, and collections stay. The
foreign key of the links does the first. -/
theorem Db.deleteReceipt_frame {db db' : Db} {benchmarked : Bool} {receiptId : UUID}
    {caller : Caller} {row : ReceiptRecord}
    (h : db.deleteReceipt benchmarked receiptId caller = .ok (some (db', row))) :
    db'.links = db.links.filter (fun l => l.receiptId ≠ receiptId)
      ∧ db'.collections = db.collections := by
  unfold Db.deleteReceipt at h
  split at h
  · exact absurd (Except.ok.inj h) (by simp)
  · split at h
    · exact absurd h (by simp)
    · obtain ⟨rfl, -⟩ := Prod.mk.inj (Option.some.inj (Except.ok.inj h))
      exact ⟨rfl, rfl⟩

/-- What `persist_receipt` does to the rows of receipts and images. It
rewrites the receipt of the image if there is one, and inserts a row
otherwise. -/
theorem Db.persistReceipt_rows {db db' : Db} {now : Timestamp} {fresh : ℕ → UUID}
    {receipt : Receipt} {imageId : Option UUID} {status : ReceiptStatus} {verified : Bool}
    {userId : Option UUID} {row : ReceiptRecord}
    (h : db.persistReceipt now fresh receipt imageId status verified userId = .ok (db', row)) :
    ∃ values, (∃ i old, imageId = some i ∧ db.receiptOfImage? i = some old
        ∧ row = rewritten values status verified userId old
        ∧ WritesReceipt db old.id (rewritten values status verified userId) db')
      ∨ (row.id = fresh 0 ∧ row.imageId = imageId
        ∧ (∀ i ∈ imageId, ∀ r ∈ db.receipts.rows, r.imageId ≠ some i)
        ∧ (∀ i ∈ imageId, db.images.get? i ≠ none)
        ∧ (∀ r, db'.receipts.get? r = if r = fresh 0 then some row else db.receipts.get? r)
        ∧ db'.images = db.images) := by
  obtain ⟨values, history, rows, taxRows, heffect⟩ := persistReceipt_spec h
  obtain ⟨db₁, hwrite, hdb⟩ := heffect.writes
  have hreceipts : db'.receipts = db₁.receipts := by rw [hdb]
  have himages : db'.images = db₁.images := by rw [hdb]
  refine ⟨values, ?_⟩
  cases writeReceipt_spec hwrite with
  | updated i old himage hold hrow hdb₁ =>
    refine .inl ⟨i, old, himage, hold, hrow, ?_⟩
    rw [hdb₁] at hreceipts himages
    exact writesReceipt_update (fun _ => rfl) hreceipts himages
  | inserted hnone hfree hexists hrow hinsert hdb₁ =>
    have hid : row.id = fresh 0 := by rw [hrow]
    refine .inr ⟨hid, by rw [hrow], hfree, fun i hi => ?_, fun r => ?_, ?_⟩
    · exact Option.isSome_iff_ne_none.mp (hexists i hi)
    · rw [hreceipts, Table.get?_insert hinsert, hid]
      exact if_congr eq_comm rfl rfl
    · rw [himages, hdb₁]

/-- `persist_receipt` writes to no image. -/
theorem Db.images_persistReceipt {db db' : Db} {now : Timestamp} {fresh : ℕ → UUID}
    {receipt : Receipt} {imageId : Option UUID} {status : ReceiptStatus} {verified : Bool}
    {userId : Option UUID} {row : ReceiptRecord}
    (h : db.persistReceipt now fresh receipt imageId status verified userId = .ok (db', row)) :
    db'.images = db.images := by
  obtain ⟨values, ⟨i, old, -, -, -, hwrites⟩ | ⟨-, -, -, -, -, himages⟩⟩ := Db.persistReceipt_rows h
  · exact hwrites.images
  · exact himages

end VisionBill
