import VisionBill.ReceiptEffects

/-!
# What is remembered is recalled

A category that `update_receipt` learned is suggested, and taken over by
`persist_receipt`, for the same user and for texts with the same keys, as
long as the alias is not written again. What `persist_receipt` takes from
the history of an item is in every state what would be suggested for it.

## Two programs, one history

Between learning and recalling there is any number of steps of other
programs, for other users and other receipts. What matters of these is
only whether they write the alias, and `update_receipt` is the one
operation that does. So the statement is about a state in which the alias
is still what it was, without saying how that state came about.

The keys are computed by the same function on both sides, from texts that
need not be equal: white space and case do not matter. A merchant or a
description that is blank has no key, and then nothing is remembered,
whatever the request asks for (`oneReceipt_blankMerchant`); that is what
the guards in all three functions are for.

## One receipt

The last item of a request that remembers a key decides about it. If it
does not know the category the alias is removed, and nothing is suggested
after that. The example is a bottle of milk whose category is confirmed.
-/

namespace VisionBill

section Recall

variable [CaseFolding]

namespace Db

/-- Only a category from the history has the history as its source. -/
theorem persistDecision_source (history : List (String × SpendingCategory)) (item : LineItem) :
    (if (persistDecision history item).source = .history
      then some (persistDecision history item).category else none)
      = history.lookup (normalizeHistoryKey item.description) := by
  unfold persistDecision
  split
  · next category h => exact (if_pos rfl).trans h.symm
  · next h =>
    rw [h, if_neg]
    show ¬ (if item.spendingCategory ≠ .unknown then CategorySource.llm else .unknown) = .history
    split <;> simp

/-- **Persisting recalls what is suggested**: a stored item has its
category from the history exactly if one would be suggested for it, and
then that one. So a person who looks at a suggestion sees what would have
been stored. -/
theorem persistReceipt_recalls {db db' : Db} {now : Timestamp} {fresh : ℕ → UUID}
    {receipt : Receipt} {imageId : Option UUID} {status : ReceiptStatus} {verified : Bool}
    {userId : UUID} {row : ReceiptRecord}
    (h : db.persistReceipt now fresh receipt imageId status verified (some userId)
      = .ok (db', row)) :
    List.Forall₂ (fun item stored =>
        db.getCategorySuggestion userId receipt.merchantName item.description
          = .ok (if stored.categorySource = .history then some stored.spendingCategory else none))
      receipt.lineItems (db'.listLineItems row.id) := by
  obtain ⟨values, history, rows, taxRows, effect⟩ := persistReceipt_spec h
  have hdecided := effect.stores.decided
  rw [← List.map_prod_left_eq_zip, List.forall₂_map_left_iff, List.forall₂_iff_get] at hdecided
  rw [effect.replaces.listLineItems effect.stores, List.forall₂_iff_get]
  refine ⟨hdecided.1, fun i hi hi' => ?_⟩
  obtain ⟨hcategory, hsource, -⟩ := hdecided.2 i hi hi'
  rw [hcategory, hsource, persistDecision_source]
  exact lookup_historyForItems effect.history_eq (List.mem_map_of_mem (List.get_mem _ ⟨i, hi⟩))

/-- What is suggested is the alias, where it is a category that is known.
The code is read back to the category that it was written for. -/
theorem getCategorySuggestion_of_alias {db : Db} {userId : UUID} {merchantName description : String}
    {category : SpendingCategory}
    (hm : normalizeHistoryKey merchantName ≠ "") (hd : normalizeHistoryKey description ≠ "")
    (hsend : AliasKey.Sendable
      ⟨userId, normalizeHistoryKey merchantName, normalizeHistoryKey description⟩)
    (halias : db.alias? ⟨userId, normalizeHistoryKey merchantName, normalizeHistoryKey description⟩
      = some category.code) (hknown : category ≠ .unknown) :
    db.getCategorySuggestion userId merchantName description = .ok (some category) := by
  have hcategory : historyCategory category.code = some category := by
    unfold historyCategory
    rw [SpendingCategory.ofCode_code]
    exact Option.filter_some_pos (decide_eq_true hknown)
  unfold getCategorySuggestion
  dsimp only
  rw [if_neg (not_or.mpr ⟨hm, hd⟩), hsend.1, hsend.2]
  show Except.ok ((db.alias? _).bind historyCategory) = _
  rw [halias, Option.bind_some, hcategory]

end Db

/-- **A remembered category is recalled, for its owner only.** The aliases
of other users, and those of other merchants, are what they were
before. -/
theorem Db.updateReceipt_recalled {db db' : Db} {fresh : ℕ → UUID} {receiptId : UUID}
    {receipt : ReceiptUpdate} {caller : Caller} {row : ReceiptRecord} {userId : UUID}
    (h : db.updateReceipt fresh receiptId receipt caller = .ok (some (db', row)))
    (howner : row.userId = some userId) :
    -- the last item that asks decides, and blank keys are never written
    (∀ merchantKey descriptionKey, db'.alias? ⟨userId, merchantKey, descriptionKey⟩ =
      if merchantKey = normalizeHistoryKey receipt.merchantName ∧ merchantKey ≠ ""
          ∧ descriptionKey ≠ "" then
        decidedAlias (db.alias? ⟨userId, merchantKey, descriptionKey⟩)
          (db'.decidedCategory receiptId receipt.lineItems descriptionKey)
      else db.alias? ⟨userId, merchantKey, descriptionKey⟩)
    ∧ (db'.listLineItems receiptId).length = receipt.lineItems.length
    -- other users keep their aliases
    ∧ (∀ key : AliasKey, key.userId ≠ userId → db'.alias? key = db.alias? key)
    -- until the key is written again, the category is suggested and taken over
    ∧ (∀ (later : Db) (merchantName description : String) (category : SpendingCategory),
      normalizeHistoryKey merchantName = normalizeHistoryKey receipt.merchantName →
      strip merchantName ≠ "" → strip description ≠ "" →
      db'.decidedCategory receiptId receipt.lineItems (normalizeHistoryKey description)
        = some category → category ≠ .unknown →
      later.alias? ⟨userId, normalizeHistoryKey merchantName, normalizeHistoryKey description⟩
        = db'.alias? ⟨userId, normalizeHistoryKey merchantName, normalizeHistoryKey description⟩ →
      later.getCategorySuggestion userId merchantName description = .ok (some category)
      ∧ ∀ (now : Timestamp) (fresh' : ℕ → UUID) (receipt' : Receipt) (imageId : Option UUID)
        (status : ReceiptStatus) (verified : Bool) (later' : Db) (row' : ReceiptRecord),
        receipt'.merchantName = merchantName →
        later.persistReceipt now fresh' receipt' imageId status verified (some userId)
          = .ok (later', row') →
        List.Forall₂ (fun item stored =>
            normalizeHistoryKey item.description = normalizeHistoryKey description →
            stored.spendingCategory = category ∧ stored.categorySource = .history)
          receipt'.lineItems (later'.listLineItems row'.id))
    -- in every state, persisting takes what would be suggested
    ∧ (∀ (db db' : Db) (now : Timestamp) (fresh : ℕ → UUID) (receipt : Receipt)
      (imageId : Option UUID) (status : ReceiptStatus) (verified : Bool) (userId : UUID)
      (row : ReceiptRecord),
      db.persistReceipt now fresh receipt imageId status verified (some userId) = .ok (db', row) →
      List.Forall₂ (fun item stored =>
          db.getCategorySuggestion userId receipt.merchantName item.description
            = .ok (if stored.categorySource = .history then some stored.spendingCategory else none))
        receipt.lineItems (db'.listLineItems row.id)) := by
  obtain ⟨old, values, decisions, rows, taxRows, hold, effect⟩ := updateReceipt_spec h
  have hlist := effect.replaces.listLineItems effect.stores
  have hlen : decisions.length = (receipt.lineItems.map LineItemUpdate.toLineItem).length := by
    rw [List.length_map, effect.decided]
  have hold_owner : old.userId = some userId := by
    rw [effect.row_eq] at howner
    exact howner
  have hwritable : ∀ merchantKey descriptionKey,
      AliasKey.Writable ⟨userId, merchantKey, descriptionKey⟩ old.userId
          (normalizeHistoryKey receipt.merchantName)
        ↔ merchantKey = normalizeHistoryKey receipt.merchantName ∧ merchantKey ≠ ""
          ∧ descriptionKey ≠ "" := by
    intro merchantKey descriptionKey
    unfold AliasKey.Writable
    rw [hold_owner]
    constructor
    · rintro ⟨-, rfl, hm, hd⟩
      exact ⟨rfl, hm, hd⟩
    · rintro ⟨rfl, hm, hd⟩
      exact ⟨rfl, rfl, hm, hd⟩
  have halias : ∀ merchantKey descriptionKey, db'.alias? ⟨userId, merchantKey, descriptionKey⟩ =
      if merchantKey = normalizeHistoryKey receipt.merchantName ∧ merchantKey ≠ ""
          ∧ descriptionKey ≠ "" then
        decidedAlias (db.alias? ⟨userId, merchantKey, descriptionKey⟩)
          (db'.decidedCategory receiptId receipt.lineItems descriptionKey)
      else db.alias? ⟨userId, merchantKey, descriptionKey⟩ := by
    intro merchantKey descriptionKey
    rw [effect.aliases, effect.decidedCategory_eq]
    exact if_congr (hwritable merchantKey descriptionKey) rfl rfl
  refine ⟨halias, ?_, fun key hkey => ?_, ?_, fun _ _ _ _ _ _ _ _ _ _ => persistReceipt_recalls⟩
  · rw [hlist, effect.stores.decided.length_eq.symm, List.length_zip, hlen, min_self,
      List.length_map]
  · rw [effect.aliases, if_neg]
    rintro ⟨huser, -⟩
    exact hkey (Option.some.inj (huser.symm.trans hold_owner))
  · intro later merchantName description category hmerchant hm hd hdecided hknown hlater
    have hm' : normalizeHistoryKey merchantName ≠ "" :=
      fun h => hm (normalizeHistoryKey_eq_empty_iff.mp h)
    have hd' : normalizeHistoryKey description ≠ "" :=
      fun h => hd (normalizeHistoryKey_eq_empty_iff.mp h)
    have hsend : AliasKey.Sendable
        ⟨userId, normalizeHistoryKey merchantName, normalizeHistoryKey description⟩ := by
      refine effect.sendable _ ((hwritable _ _).mpr ⟨hmerchant, hm', hd'⟩) ?_
      rw [← effect.decidedCategory_eq, hdecided]
      exact Option.some_ne_none category
    rw [halias, if_pos ⟨hmerchant, hm', hd'⟩, hdecided] at hlater
    have hcode : later.alias?
        ⟨userId, normalizeHistoryKey merchantName, normalizeHistoryKey description⟩
        = some category.code := hlater.trans (if_neg hknown)
    have hsuggest : later.getCategorySuggestion userId merchantName description
        = .ok (some category) :=
      getCategorySuggestion_of_alias hm' hd' hsend hcode hknown
    refine ⟨hsuggest, ?_⟩
    rintro now fresh' receipt' imageId status verified later' row' rfl hpersist
    refine (persistReceipt_recalls hpersist).imp fun item stored hstored hitem => ?_
    -- a suggestion depends on the keys only
    have hsame : later.getCategorySuggestion userId receipt'.merchantName item.description
        = .ok (some category) := by
      unfold getCategorySuggestion at hsuggest ⊢
      rw [hitem]
      exact hsuggest
    have hrow := Except.ok.inj (hstored.symm.trans hsame)
    split at hrow
    · next hsource => exact ⟨Option.some.inj hrow, hsource⟩
    · exact absurd hrow (by simp)

end Recall

/-! ## One item -/

section OneItem

local instance asciiFoldingOfItem : CaseFolding := asciiFolding

/-- A bottle of milk whose category is confirmed for the future. -/
def milkUpdate : LineItemUpdate where
  description := "Milk"
  spendingCategory := .milk
  quantity := .ofInt 1
  unitPrice := 0
  totalPrice := 0
  tags := []
  quantity_pos := isPos_one
  tags_normal := rfl
  id := none
  rememberCategory := true
  explicitCategory := true
  category_default := by decide

/-- A PUT body with the bottle. -/
def milkBody (merchantName : String) : ReceiptUpdate where
  toReceiptFields := { emptyFields with merchantName := merchantName }
  lineItems := [milkUpdate]
  collectionIds := none

/-- A remembered bottle of milk is recalled. The merchant and the
description are written differently the second time, and have the same
keys. -/
theorem oneReceipt_recalled :
    ∃ db' row, oneReceipt.updateReceipt id 1 (milkBody "Shop") ⟨1, false⟩ = .ok (some (db', row))
      ∧ db'.alias? ⟨1, "shop", "milk"⟩ = some "milk"
      ∧ db'.getCategorySuggestion 1 "SHOP" " milk" = .ok (some .milk) := by
  obtain ⟨⟨db', row⟩, h, hcheck⟩ := exists_of_returns
    (x := oneReceipt.updateReceipt id 1 (milkBody "Shop") ⟨1, false⟩)
    (p := fun r => r.2.userId = some 1
      ∧ r.1.decidedCategory 1 (milkBody "Shop").lineItems "milk" = some .milk)
    (by decide +kernel)
  obtain ⟨halias, -, -, hrecall, -⟩ := Db.updateReceipt_recalled h hcheck.1
  refine ⟨db', row, h, ?_, ?_⟩
  · rw [halias, hcheck.2]
    decide
  · have hkey : normalizeHistoryKey " milk" = "milk" := by decide
    exact (hrecall db' "SHOP" " milk" .milk (by decide) (by decide) (by decide)
      (hkey ▸ hcheck.2) (by decide) rfl).1

/-- **Nothing is remembered without a merchant**, whatever the item asks
for. The category is decided, and then the write is left out, as an alias
with an empty key would answer for every receipt that names no
merchant. -/
theorem oneReceipt_blankMerchant :
    ∃ db' row, oneReceipt.updateReceipt id 1 (milkBody " ") ⟨1, false⟩ = .ok (some (db', row))
      ∧ row.userId = some 1
      ∧ db'.decidedCategory 1 (milkBody " ").lineItems "milk" = some .milk
      ∧ db'.alias? ⟨1, normalizeHistoryKey " ", "milk"⟩ ≠ some SpendingCategory.milk.code := by
  obtain ⟨⟨db', row⟩, h, hcheck⟩ := exists_of_returns
    (x := oneReceipt.updateReceipt id 1 (milkBody " ") ⟨1, false⟩)
    (p := fun r => r.2.userId = some 1
      ∧ r.1.decidedCategory 1 (milkBody " ").lineItems "milk" = some .milk
      ∧ r.1.alias? ⟨1, normalizeHistoryKey " ", "milk"⟩ ≠ some SpendingCategory.milk.code)
    (by decide +kernel)
  exact ⟨db', row, h, hcheck⟩

end OneItem

end VisionBill
