import VisionBill.Queries
import VisionBill.ReceiptEffects

/-!
# Reading a receipt back

What `get_receipt_with_details` returns for a receipt that has just been
saved. It ought to be what was saved, in its order, with amounts rounded
to the two decimals of their columns and quantities and rates to the four
of theirs, half away from zero, as `NUMERIC` rounds.

## Where it is not

* Line items are read in the order of their positions, which is the order
  in which they were saved. Taxes have no position and are read in the
  order of ids that the server has made up.
* A text that exceeds its column by spaces is read without them.
* What is rounded is not the number that was saved but the double nearest
  to it: `_insert_children` passes `float(...)`. `1.555` is no double, the
  nearest one is less, and it is stored as `1.55`.

`saved_readsBack` says exactly when all comes back. Its condition
`ComesBack` speaks of the receipt and of the ids that its taxes are given,
and compares the taxes in the order of those ids with the order in which
they were saved.
-/

namespace VisionBill

section ReadBack

variable [CaseFolding]

/-! ## What comes back

The specification does not mention how the program converts numbers: a
number that comes back is the number that was saved, rounded half away
from zero to the digits of its column. -/

/-- **A number and what it is when it comes back**: rounded to `s`
decimals, half away from zero. -/
def Rounds (s : ℕ) (x y : ℚ) : Prop := y = Rounding.halfAway (1 / 10 ^ s) x

/-- The same for a float, which is taken for the number that its `repr`
prints, the one that a user has typed. -/
def RoundsFloat (s : ℕ) : PyFloat → ℚ → Prop
  | .finite x _, y => Rounds s x y
  | _, _ => False

/-- A tax rate and what comes back for it. A rate may be missing, and it
may be a `NaN`, which the column holds as well. -/
inductive RoundsRate : Option PyFloat → Option PyDecimal → Prop
  | none : RoundsRate none none
  | nan : RoundsRate (some .nan) (some .nan)
  | finite {x y : ℚ} {grid : ∃ n : ℤ, x = n * floatUnit} (h : Rounds 4 x y) :
    RoundsRate (some (.finite x grid)) (some (.finite y))

/-- A line item that is read back as it was saved. Texts are the same, and
numbers are rounded to the digits of their columns, half away from
zero. -/
structure ReadsItem (item : LineItem) (row : LineItemRecord) : Prop where
  description : row.description = item.description
  quantity : RoundsFloat 4 item.quantity row.quantity
  unitPrice : Rounds 2 item.unitPrice row.unitPrice
  totalPrice : Rounds 2 item.totalPrice row.totalPrice
  tags : row.tags = item.tags

/-- A tax that is read back as it was saved. It has no identifier by which
it could be found, so only its place tells which it is. -/
structure ReadsTax (tax : TaxLine) (row : TaxRecord) : Prop where
  name : row.name = tax.name
  rate : RoundsRate tax.rate row.rate
  amount : Rounds 2 tax.amount row.amount

/-- Line items and taxes come back in their order. There are as many as
were saved, so nothing is lost and nothing was there before. -/
structure ReadsBack (lineItems : List LineItem) (taxes : List TaxLine)
    (details : ReceiptWithDetails) : Prop where
  lineItems : List.Forall₂ ReadsItem lineItems details.lineItems
  taxes : List.Forall₂ ReadsTax taxes details.taxes

/-! ## What is stored

A number goes through a float before it is rounded, and that may change
how it is rounded. Whether it does is a property of the number alone. -/

/-- **What is stored of `x'` is `x` rounded** to `s` decimals: the double
nearest to `x'` rounds as `x` does. Of one number this says that nothing
is lost by sending it as a double; of two taxes that change places it says
that one is stored as the other ought to be. -/
def StoresAs (s : ℕ) (x' x : ℚ) : Prop :=
  ∃ r ∈ float x', Rounding.halfAway (1 / 10 ^ s) r = Rounding.halfAway (1 / 10 ^ s) x

instance (s : ℕ) (x' x : ℚ) : Decidable (StoresAs s x' x) :=
  inferInstanceAs (Decidable (∃ r ∈ float x', _))

/-- The same for a quantity that is stored, which is finite. -/
def PyFloat.KeepsRounding (s : ℕ) : PyFloat → Prop
  | .finite x _ => StoresAs s x x
  | _ => True

/-- The same for two rates. -/
def StoresRate : Option PyFloat → Option PyFloat → Prop
  | none, none => True
  | some .nan, some .nan => True
  | some (.finite x' _), some (.finite x _) => StoresAs 4 x' x
  | _, _ => False

instance (s : ℕ) : DecidablePred (PyFloat.KeepsRounding s) := fun q => by
  cases q <;> unfold PyFloat.KeepsRounding <;> infer_instance

instance (rate' rate : Option PyFloat) : Decidable (StoresRate rate' rate) := by
  unfold StoresRate
  split <;> infer_instance

example : ¬ StoresAs 2 (1555 / 1000) (1555 / 1000) := by decide +kernel

omit [CaseFolding] in
/-- What a column holds is right if and only if the double is. The column
rounds the double correctly, so only the step to the double can go
wrong. -/
theorem rounds_iff {p s : ℕ} {x' x y : ℚ} (h : floatColumn p s x' = .ok y) :
    Rounds s x y ↔ StoresAs s x' x := by
  unfold floatColumn at h
  split at h
  · next r hr =>
    unfold numericColumn at h
    dsimp only at h
    split at h
    · obtain rfl := Except.ok.inj h
      refine ⟨fun hrounds => ⟨r, hr, hrounds⟩, ?_⟩
      rintro ⟨r', hr', hsame⟩
      obtain rfl := Option.some.inj (hr.symm.trans hr')
      exact hsame
    · exact absurd h (by simp)
  · exact absurd h (by simp)

omit [CaseFolding] in
theorem roundsRate_iff {rate' rate : Option PyFloat} {y : Option PyDecimal}
    (h : nullable rateColumn rate' = .ok y) : RoundsRate rate y ↔ StoresRate rate' rate := by
  cases rate' with
  | none =>
    obtain rfl := Except.ok.inj h
    constructor
    · rintro ⟨⟩
      trivial
    · intro hstores
      cases rate with
      | none => exact .none
      | some q => exact hstores.elim
  | some q' =>
    obtain ⟨y, hy, rfl⟩ := map_eq_ok h
    cases q' with
    | inf negative => exact absurd hy (by simp [rateColumn])
    | nan =>
      obtain rfl := Except.ok.inj hy
      constructor
      · rintro ⟨⟩
        trivial
      · intro hstores
        rcases rate with _ | _ | _ | _
        all_goals first | exact hstores.elim | exact .nan
    | finite x' grid' =>
      obtain ⟨z, hz, rfl⟩ := map_eq_ok hy
      constructor
      · rintro (_ | _ | hrounds)
        exact (rounds_iff hz).mp hrounds
      · intro hstores
        rcases rate with _ | ⟨x, grid⟩ | _ | _
        · exact hstores.elim
        · exact .finite ((rounds_iff hz).mpr hstores)
        · exact hstores.elim
        · exact hstores.elim

omit [CaseFolding] in
theorem roundsFloat_iff {q : PyFloat} {y : ℚ} (h : quantityColumn q = .ok y) :
    RoundsFloat 4 q y ↔ q.KeepsRounding 4 := by
  cases q with
  | finite x grid => exact rounds_iff h
  | inf negative => exact absurd h (by simp [quantityColumn])
  | nan => exact absurd h (by simp [quantityColumn])

/-- **A line item that is kept**: its description fits its column, and
sending its numbers as doubles does not change how they are rounded. It is
a condition on the item alone, which a form could check before it sends
it. -/
structure LineItem.IsKept (item : LineItem) : Prop where
  description : item.description.toList.length ≤ 255
  quantity : item.quantity.KeepsRounding 4
  unitPrice : StoresAs 2 item.unitPrice item.unitPrice
  totalPrice : StoresAs 2 item.totalPrice item.totalPrice

/-- A stored line item is read as it was saved if and only if it is
kept. -/
theorem readsItem_iff {newId receiptId : UUID} {index : ℕ} {item : LineItem}
    {decision : ItemCategoryDecision} {row : LineItemRecord}
    (h : lineItemRecord newId receiptId index item decision = .ok row) :
    ReadsItem item row ↔ item.IsKept := by
  have hinserts := lineItemRecord_spec h
  have hdescription := eq_of_varchar_iff hinserts.description
  have hquantity := roundsFloat_iff hinserts.quantity
  have hunitPrice := rounds_iff (x := item.unitPrice) hinserts.unitPrice
  have htotalPrice := rounds_iff (x := item.totalPrice) hinserts.totalPrice
  constructor
  · rintro ⟨hd, hq, hu, ht, -⟩
    exact ⟨hdescription.mp hd, hquantity.mp hq, hunitPrice.mp hu, htotalPrice.mp ht⟩
  · rintro ⟨hd, hq, hu, ht⟩
    exact ⟨hdescription.mpr hd, hquantity.mpr hq, hunitPrice.mpr hu, htotalPrice.mpr ht,
      hinserts.tags_eq⟩

/-- **A tax is stored as another one ought to be**: its name is cut to the
other name, and its rate and its amount round as those of the other one
do. -/
structure TaxLine.StoredAs (tax' tax : TaxLine) : Prop where
  name : varchar 100 tax'.name = .ok tax.name
  rate : StoresRate tax'.rate tax.rate
  amount : StoresAs 2 tax'.amount tax.amount

instance (tax' tax : TaxLine) : Decidable (tax'.StoredAs tax) :=
  decidable_of_iff (_ ∧ _ ∧ _) ⟨fun ⟨h₁, h₂, h₃⟩ => ⟨h₁, h₂, h₃⟩, fun ⟨h₁, h₂, h₃⟩ => ⟨h₁, h₂, h₃⟩⟩

omit [CaseFolding] in
/-- A tax is read from the row of another one if and only if that one is
stored as it ought to be. -/
theorem readsTax_iff {newId receiptId : UUID} {tax' tax : TaxLine} {row : TaxRecord}
    (h : taxRecord newId receiptId tax' = .ok row) : ReadsTax tax row ↔ tax'.StoredAs tax := by
  obtain ⟨-, -, hname, hrate, hamount⟩ := taxRecord_spec h
  have hrateIff : RoundsRate tax.rate row.rate ↔ StoresRate tax'.rate tax.rate :=
    roundsRate_iff hrate
  have hamountIff := rounds_iff (x := tax.amount) hamount
  constructor
  · rintro ⟨hn, hr, ha⟩
    exact ⟨hname.trans (congrArg _ hn), hrateIff.mp hr, hamountIff.mp ha⟩
  · rintro ⟨hn, hr, ha⟩
    exact ⟨Except.ok.inj (hname.symm.trans hn), hrateIff.mpr hr, hamountIff.mpr ha⟩

/-! ## The order of the taxes

They are read in the order of their identifiers, which are random. So the
taxes that come back are those that were saved, in an order that the
identifiers decide. -/

/-- The taxes in the order of the ids that they are given. -/
def taxesById (taxes : List TaxLine) (ids : ℕ → UUID) : List TaxLine :=
  (orderBy (fun p q => ids p.2 ≤ ids q.2) taxes.zipIdx).map Prod.fst

/-- **Everything comes back**: every line item is kept, and in the order
of their ids the taxes are stored as those ought to be that were saved in
their places. If the ids increase, this says of every tax that its name
fits and that its numbers are rounded as they ought to be. -/
structure ComesBack (lineItems : List LineItem) (taxes : List TaxLine) (ids : ℕ → UUID) : Prop where
  lineItems : ∀ item ∈ lineItems, item.IsKept
  taxes : List.Forall₂ TaxLine.StoredAs (taxesById taxes ids) taxes

omit [CaseFolding] in
/-- Rows that were made of the elements of a list, sorted by their keys,
are those of the elements sorted by the keys. -/
theorem forall₂_orderBy {α ρ : Type} {R : α → ρ → Prop} (key : ρ → UUID) (ids : ℕ → UUID)
    {l : List α} {rows : List ρ}
    (h : List.Forall₂ (fun p row => R p.1 row ∧ key row = ids p.2) l.zipIdx rows) :
    List.Forall₂ R ((orderBy (fun p q => ids p.2 ≤ ids q.2) l.zipIdx).map Prod.fst)
      (orderBy (fun a b => key a ≤ key b) rows) := by
  have hlen : l.zipIdx.length = rows.length := h.length_eq
  have hmem : ∀ z ∈ l.zipIdx.zip rows, R z.1.1 z.2 ∧ key z.2 = ids z.1.2 := fun z hz =>
    (List.forall₂_iff_zip.mp h).2 hz
  -- both lists are sorted as one list of pairs is
  have hrows : orderBy (fun a b => key a ≤ key b) rows
      = ((l.zipIdx.zip rows).insertionSort fun a b => key a.2 ≤ key b.2).map Prod.snd := by
    rw [List.map_insertionSort _ (fun a b => key a ≤ key b) Prod.snd _ fun _ _ _ _ => Iff.rfl,
      List.map_snd_zip hlen.ge]
    rfl
  have hl : orderBy (fun p q => ids p.2 ≤ ids q.2) l.zipIdx
      = ((l.zipIdx.zip rows).insertionSort fun a b => key a.2 ≤ key b.2).map Prod.fst := by
    rw [List.map_insertionSort _ (fun p q => ids p.2 ≤ ids q.2) Prod.fst _ fun a ha b hb => by
        rw [(hmem a ha).2, (hmem b hb).2],
      List.map_fst_zip hlen.le]
    rfl
  rw [hrows, hl, List.map_map, List.forall₂_map_left_iff, List.forall₂_map_right_iff,
    List.forall₂_same]
  intro z hz
  exact (hmem z ((List.mem_insertionSort _).mp hz)).1

omit [CaseFolding] in
/-- The taxes that are listed are those that are stored, by their ids.
They have no position of their own, and so the order of the body is only
as good as that of the ids. -/
theorem listTaxes_forall₂ {db : Db} {fresh : ℕ → UUID} {receiptId : UUID} {index : ℕ}
    {taxes : List TaxLine} {rows : List TaxRecord}
    (h : StoresTaxes fresh receiptId index taxes rows) (hrows : db.taxesOf receiptId = rows) :
    List.Forall₂ (fun tax row => ∃ id, taxRecord id receiptId tax = .ok row)
      (taxesById taxes fun i => fresh (index + i)) (db.listTaxes receiptId) := by
  unfold Db.listTaxes
  rw [show db.taxes.rows.filter (fun row => row.receiptId = receiptId) = rows from hrows]
  have hlen := h.length_eq
  rw [List.length_zipIdx] at hlen
  refine forall₂_orderBy TaxRecord.id (fun i => fresh (index + i))
    (List.forall₂_iff_get.mpr ⟨?_, fun i hi hi' => ?_⟩)
  · rw [List.length_zipIdx, hlen]
  · have hrow := h.get (by rw [List.length_zipIdx, hlen]; exact hi') hi'
    simp only [List.get_eq_getElem, List.getElem_zipIdx, Nat.zero_add] at hrow ⊢
    exact ⟨⟨_, hrow⟩, (taxRecord_spec hrow).id_eq⟩

/-! ## Saving

Two functions save a receipt, and they insert its children in the same
way. What they have in common is a relation, and the theorem is about
that. -/

/-- A receipt is saved by one of the two operations, with ids for its
taxes. The ids matter, as the taxes are read in their order. They are
drawn after those of the line items, and by `persist_receipt` after that
of the receipt as well. -/
inductive Saves (db db' : Db) (row : ReceiptRecord) :
    List LineItem → List TaxLine → (ℕ → UUID) → Prop
  | persisted {now : Timestamp} {fresh : ℕ → UUID} {receipt : Receipt} {imageId : Option UUID}
      {status : ReceiptStatus} {verified : Bool} {userId : Option UUID}
      (h : db.persistReceipt now fresh receipt imageId status verified userId = .ok (db', row)) :
      Saves db db' row receipt.lineItems receipt.taxes
        fun i => fresh (receipt.lineItems.length + i + 1)
  | updated {fresh : ℕ → UUID} {receiptId : UUID} {receipt : ReceiptUpdate} {caller : Caller}
      (h : db.updateReceipt fresh receiptId receipt caller = .ok (some (db', row))) :
      Saves db db' row (receipt.lineItems.map LineItemUpdate.toLineItem) receipt.taxes
        fun i => fresh (receipt.lineItems.length + i)

/-- What has been stored for a saved receipt. Whether it was persisted or
updated makes no difference any more from here on. -/
theorem Saves.stores {db db' : Db} {row : ReceiptRecord} {lineItems : List LineItem}
    {taxes : List TaxLine} {ids : ℕ → UUID} (h : Saves db db' row lineItems taxes ids) :
    ∃ fresh decisions rows taxRows index,
      decisions.length = lineItems.length
        ∧ StoresItems fresh row.id 0 (lineItems.zip decisions) rows
        ∧ StoresTaxes fresh row.id index taxes taxRows
        ∧ (fun i => fresh (index + i)) = ids
        ∧ ReplacesChildren db db' row.id rows taxRows
        ∧ db'.receipts.get? row.id = some row := by
  -- a receipt that is persisted and one that is updated are stored alike
  cases h with
  | @persisted now fresh receipt imageId status verified userId h =>
    obtain ⟨values, history, rows, taxRows, heffect⟩ := Db.persistReceipt_spec h
    refine ⟨_, _, rows, taxRows, _, List.length_map _, heffect.stores, heffect.storesTaxes, rfl,
      heffect.replaces, ?_⟩
    obtain ⟨values', ⟨i, old, -, hold, hrow, hwrite⟩ | ⟨hid, -, -, -, hget, -⟩⟩ :=
      Db.persistReceipt_rows h
    · have hid : row.id = old.id := by rw [hrow]; rfl
      rw [hid, hwrite.get, if_pos rfl, (Db.receiptOfImage?_spec hold).1, hrow]
      rfl
    · rw [hget, if_pos hid]
  | @updated fresh receiptId receipt caller h =>
    obtain ⟨old, values, decisions, rows, taxRows, hold, heffect⟩ := Db.updateReceipt_spec h
    have hget : db.receipts.get? receiptId = some old := (Option.filter_eq_some_iff.mp hold).1
    have hid : row.id = receiptId := by
      rw [heffect.row_eq]
      exact (Table.get?_eq_some_iff.mp hget).2
    rw [hid]
    refine ⟨fresh, decisions, rows, taxRows, receipt.lineItems.length, ?_, heffect.stores,
      heffect.storesTaxes, rfl, heffect.replaces, ?_⟩
    · rw [heffect.decided, List.length_map]
    · rw [heffect.writesReceipt.get, if_pos rfl, hget, heffect.row_eq]
      rfl

/-- The line items are read back in their order if and only if they are
kept. -/
theorem readsItems_iff {fresh : ℕ → UUID} {receiptId : UUID} {lineItems : List LineItem}
    {decisions : List ItemCategoryDecision} {rows : List LineItemRecord}
    (hlen : decisions.length = lineItems.length)
    (h : StoresItems fresh receiptId 0 (lineItems.zip decisions) rows) :
    List.Forall₂ ReadsItem lineItems rows ↔ ∀ item ∈ lineItems, item.IsKept := by
  have hlen' := h.length_eq
  rw [List.length_zipIdx, List.length_zip, hlen, Nat.min_self] at hlen'
  have hrow : ∀ i (hi : i < lineItems.length) (hi' : i < rows.length),
      ReadsItem lineItems[i] rows[i] ↔ lineItems[i].IsKept := by
    intro i hi hi'
    have hget := h.get (by rw [h.length_eq]; exact hi') hi'
    simp only [List.get_eq_getElem, List.getElem_zipIdx, List.getElem_zip] at hget
    exact readsItem_iff hget
  rw [List.forall₂_iff_get]
  constructor
  · rintro ⟨-, hreads⟩ item hitem
    obtain ⟨i, hi, rfl⟩ := List.mem_iff_getElem.mp hitem
    exact (hrow i hi (hlen' ▸ hi)).mp (hreads i hi (hlen' ▸ hi))
  · intro hkept
    exact ⟨hlen', fun i hi hi' => (hrow i hi hi').mpr (hkept _ (List.getElem_mem hi))⟩

omit [CaseFolding] in
/-- The taxes are read back in their order if and only if those that are
listed in their places are stored as they ought to be. -/
theorem readsTaxes_iff {receiptId : UUID} {taxes sorted : List TaxLine} {listed : List TaxRecord}
    (hlisted : List.Forall₂ (fun tax row => ∃ id, taxRecord id receiptId tax = .ok row) sorted
      listed) :
    List.Forall₂ ReadsTax taxes listed ↔ List.Forall₂ TaxLine.StoredAs sorted taxes := by
  have hlen := hlisted.length_eq
  have hrow : ∀ i (hi : i < taxes.length) (hi' : i < sorted.length) (hi'' : i < listed.length),
      ReadsTax taxes[i] listed[i] ↔ sorted[i].StoredAs taxes[i] := by
    intro i hi hi' hi''
    obtain ⟨id, hget⟩ := hlisted.get hi' hi''
    exact readsTax_iff hget
  rw [List.forall₂_iff_get, List.forall₂_iff_get]
  constructor
  · rintro ⟨hsame, hreads⟩
    refine ⟨hlen.trans hsame.symm, fun i hi hi' => ?_⟩
    exact (hrow i hi' hi (hlen ▸ hi)).mp (hreads i hi' (hlen ▸ hi))
  · rintro ⟨hsame, hstored⟩
    refine ⟨hsame.symm.trans hlen, fun i hi hi' => ?_⟩
    exact (hrow i hi (hsame ▸ hi) hi').mpr (hstored i (hsame ▸ hi) hi)

/-- **A saved receipt is read back**: whoever may see it gets its line
items and taxes in their order, rounded, exactly if the line items are
kept and the ids of the taxes come in an order that shows no
difference. -/
theorem saved_readsBack {db db' : Db} {row : ReceiptRecord} {lineItems : List LineItem}
    {taxes : List TaxLine} {ids : ℕ → UUID} (h : Saves db db' row lineItems taxes ids)
    {caller : Caller} (hcaller : caller.Scope row.userId) :
    ∃ details, db'.getReceiptWithDetails caller row.id = some details
      ∧ (ReadsBack lineItems taxes details ↔ ComesBack lineItems taxes ids) := by
  obtain ⟨fresh, decisions, rows, taxRows, index, hlen, hstores, hstoresTaxes, rfl, hreplaces,
    hget⟩ := h.stores
  have hfor : db'.receiptFor? caller row.id = some row :=
    Option.filter_eq_some_iff.mpr ⟨hget, decide_eq_true hcaller⟩
  refine ⟨_, by unfold Db.getReceiptWithDetails; rw [hfor]; rfl, ?_⟩
  have hitems : db'.listLineItems row.id = rows := hreplaces.listLineItems hstores
  have htaxes := listTaxes_forall₂ hstoresTaxes (hreplaces.taxesOf hstoresTaxes)
  constructor
  · rintro ⟨hreads, hreadsTaxes⟩
    exact ⟨(readsItems_iff hlen hstores).mp (hitems ▸ hreads), (readsTaxes_iff htaxes).mp hreadsTaxes⟩
  · rintro ⟨hkept, hstored⟩
    exact ⟨hitems.symm ▸ (readsItems_iff hlen hstores).mpr hkept, (readsTaxes_iff htaxes).mpr hstored⟩

end ReadBack

/-! ## Two taxes -/

section TwoTaxes

local instance asciiFoldingOfTaxes : CaseFolding := asciiFolding

/-- Something that was ordered. The amounts are given as they stand on the
bill, and the category is the one of a restaurant. -/
def ordered (description : String) (quantity : ℤ) (unitPrice totalPrice : ℚ)
    (hquantity : (PyFloat.ofInt quantity).IsPos) : LineItemUpdate where
  description := description
  spendingCategory := .restaurant
  quantity := .ofInt quantity
  unitPrice := unitPrice
  totalPrice := totalPrice
  tags := ["food"]
  quantity_pos := hquantity
  tags_normal := by decide +kernel
  id := none
  rememberCategory := false
  explicitCategory := true
  category_default := nofun

/-- A PUT body with two line items and two taxes. -/
def taxBody : ReceiptUpdate :=
  { emptyFields with
    subtotal := 63 / 5
    taxTotal := 129 / 50
    total := 759 / 50
    taxTotal_nonneg := by norm_num
    total_checked := by decide +kernel
    taxes := [⟨"VAT", some (.ofInt 19), 239 / 100, by norm_num⟩,
      ⟨"GST", some (.ofInt 7), 19 / 100, by norm_num⟩]
    lineItems := [ordered "Soup" 2 (9 / 2) 9 isPos_two, ordered "Tea" 1 (18 / 5) (18 / 5) isPos_one]
    collectionIds := none }

/-- What a user has ordered is saved. -/
theorem saves_taxBody {fresh : ℕ → UUID} {db' : Db} {row : ReceiptRecord}
    (h : oneReceipt.updateReceipt fresh 1 taxBody ⟨1, false⟩ = .ok (some (db', row))) :
    Saves oneReceipt db' row (taxBody.lineItems.map LineItemUpdate.toLineItem) taxBody.taxes
      fun i => fresh (2 + i) := Saves.updated h

/-- **Two line items and two taxes come back** as they were saved if the
ids of the taxes increase: no amount loses anything as a double. Taxes are
read in the order of their ids, which is the order in which they were sent
only then. -/
theorem taxBody_readsBack :
    ∃ db' row details, Saves oneReceipt db' row
        (taxBody.lineItems.map LineItemUpdate.toLineItem) taxBody.taxes (fun i => 5 + (2 + i))
      ∧ db'.getReceiptWithDetails ⟨1, false⟩ row.id = some details
      ∧ ReadsBack (taxBody.lineItems.map LineItemUpdate.toLineItem) taxBody.taxes details := by
  obtain ⟨⟨db', row⟩, h, hrow⟩ := exists_of_returns
    (x := oneReceipt.updateReceipt (fun i => 5 + i) 1 taxBody ⟨1, false⟩)
    (p := fun r => (⟨1, false⟩ : Caller).Scope r.2.userId) (by decide +kernel)
  have hsaves := saves_taxBody h
  obtain ⟨details, hdetails, hreads⟩ := saved_readsBack hsaves hrow
  refine ⟨db', row, details, hsaves, hdetails, hreads.mpr ⟨?_, by decide +kernel⟩⟩
  intro item hitem
  constructor <;> revert item <;> decide +kernel

/-- **Two taxes change places** when their ids decrease. Nothing else
differs from the run before: the same receipt is saved, with the same
amounts. -/
theorem taxBody_swapped :
    ∃ db' row details, Saves oneReceipt db' row
        (taxBody.lineItems.map LineItemUpdate.toLineItem) taxBody.taxes (fun i => 9 - (2 + i))
      ∧ db'.getReceiptWithDetails ⟨1, false⟩ row.id = some details
      ∧ ¬ ReadsBack (taxBody.lineItems.map LineItemUpdate.toLineItem) taxBody.taxes details := by
  obtain ⟨⟨db', row⟩, h, details, hdetails, hnames⟩ := exists_of_returns
    (x := oneReceipt.updateReceipt (fun i => 9 - i) 1 taxBody ⟨1, false⟩)
    (p := fun r => ∃ details ∈ r.1.getReceiptWithDetails ⟨1, false⟩ r.2.id,
      details.taxes.map TaxRecord.name = ["GST", "VAT"]) (by decide +kernel)
  refine ⟨db', row, details, saves_taxBody h, hdetails, fun hreads => ?_⟩
  have hforall := hreads.taxes
  have hnames' : details.taxes.map TaxRecord.name = taxBody.taxes.map TaxLine.name := by
    refine List.forall₂_eq_eq_eq ▸ ?_
    exact List.forall₂_map_left_iff.mpr (List.forall₂_map_right_iff.mpr
      (hforall.flip.imp fun _ _ htax => htax.name))
  exact absurd (hnames.symm.trans hnames') (by decide)

end TwoTaxes

end VisionBill
