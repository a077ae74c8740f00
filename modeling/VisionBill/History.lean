import VisionBill.ReceiptDB

/-!
# Remembered categories

What `update_receipt` learns, and what `get_category_suggestion` and
`persist_receipt` recall. The loop of `update_receipt` writes an alias for
every key of every item that asks for it, so the last such item decides
(`Db.decideItems_spec`); the single lookup and the batched one have
filters of their own, and agree in every state
(`Db.lookup_historyForItems`). A blank merchant or description has an
empty key, under which nothing is remembered.

## An item has two keys

What a user types over a description should be recalled for the
description that the model reads next time, which is the original one. So
an item is remembered under both, its original description and its present
one. One key of a request may therefore belong to several items, and it is
not obvious whose category is stored in the end. The answer is a fold over
the items in their order (`lastRemembered`), and deciding several times is
deciding once, by the last decision (`decidedAlias_decidedAlias`).

## Two lookups

A suggestion for one text reads one alias. Persisting reads the aliases of
all items at once, makes a dictionary of the rows, and looks each item up
in it. The first drops a stored text that is no category code while it
reads it, the second while it builds the dictionary. Since there is one
alias for a key, the order of the rows does not matter, and the two say
the same.
-/

namespace VisionBill

variable [CaseFolding]

/-! ## Aliases

An alias has a key made of the user, the merchant and the description.
What is remembered of an item is stored under two keys, the printed
description and the edited one, if they differ. -/

namespace Db

omit [CaseFolding] in
@[simp] theorem alias?_upsertAlias (db : Db) (key k : AliasKey) (category : String) :
    (db.upsertAlias key category).alias? k = if key = k then some category else db.alias? k := by
  unfold alias? upsertAlias
  rw [Table.get?_upsert]
  split <;> rfl

omit [CaseFolding] in
@[simp] theorem alias?_deleteAlias (db : Db) (key k : AliasKey) :
    (db.deleteAlias key).alias? k = if key = k then none else db.alias? k := by
  unfold alias? deleteAlias
  rw [Table.get?_filter]
  rcases h : db.aliases.get? k with _ | a
  · simp
  · have hk : a.toAliasKey = k := (Table.get?_eq_some_iff.mp h).2
    by_cases heq : key = k
    · simp [Option.filter, hk, heq]
    · simp [Option.filter, hk, heq, Ne.symm heq]

end Db

/-- The alias after a decision: none for an unknown category, and as it
was without a decision. An unknown category is how a user takes something
back. -/
def decidedAlias (before : Option String) : Option SpendingCategory → Option String
  | none => before
  | some category => if category = .unknown then none else some category.code

/-- Whether an item, first stored under a description, has its category
remembered under a key. -/
def RemembersAs (descriptionKey original : String) (item : LineItemUpdate) : Prop :=
  item.rememberCategory = true
    ∧ (normalizeHistoryKey original = descriptionKey
      ∨ normalizeHistoryKey item.description = descriptionKey)

instance (descriptionKey original : String) (item : LineItemUpdate) :
    Decidable (RemembersAs descriptionKey original item) :=
  inferInstanceAs (Decidable (_ ∧ _))

/-- The category of the last item that is remembered under a key, for
items with their original descriptions and final categories. `none` means
that no item of the request writes this key. -/
def lastRemembered (descriptionKey : String)
    (l : List ((String × SpendingCategory) × LineItemUpdate)) : Option SpendingCategory :=
  (l.filter (fun p => RemembersAs descriptionKey p.1.1 p.2)).getLast?.map (fun p => p.1.2)

theorem lastRemembered_cons (descriptionKey : String)
    (p : (String × SpendingCategory) × LineItemUpdate)
    (l : List ((String × SpendingCategory) × LineItemUpdate)) :
    lastRemembered descriptionKey (p :: l)
      = (lastRemembered descriptionKey l).or
          (if RemembersAs descriptionKey p.1.1 p.2 then some p.1.2 else none) := by
  unfold lastRemembered
  rw [List.filter_cons]
  split
  · next h =>
    rw [if_pos (of_decide_eq_true h), List.getLast?_cons]
    rcases hl : (l.filter _).getLast? with _ | q <;> rfl
  · next h =>
    rw [if_neg (fun hp => h (decide_eq_true hp)), Option.or_none]

omit [CaseFolding] in
/-- Deciding twice is deciding once, by the later decision. -/
theorem decidedAlias_decidedAlias (before : Option String) (a b : Option SpendingCategory) :
    decidedAlias (decidedAlias before a) b = decidedAlias before (b.or a) := by
  cases b <;> rfl

/-! ## The loop

Items are remembered in their order, so the last item with a key decides
what is stored under it. The induction carries what the items so far have
decided. -/

/-- The keys that an update with a merchant may write. -/
def AliasKey.Writable (key : AliasKey) (ownerId : Option UUID) (merchantKey : String) : Prop :=
  ownerId = some key.userId ∧ key.merchantKey = merchantKey ∧ merchantKey ≠ ""
    ∧ key.descriptionKey ≠ ""

instance (key : AliasKey) (ownerId : Option UUID) (merchantKey : String) :
    Decidable (key.Writable ownerId merchantKey) :=
  inferInstanceAs (Decidable (_ ∧ _))

/-- A key that the server accepts as text. -/
def AliasKey.Sendable (key : AliasKey) : Prop :=
  text key.merchantKey = .ok key.merchantKey ∧ text key.descriptionKey = .ok key.descriptionKey

/-- The original description and the final category of an item. -/
def ItemCategoryDecision.labels (d : ItemCategoryDecision) : String × SpendingCategory :=
  (d.originalDescription, d.category)

/-- The original description and the category of a stored item. -/
def LineItemRecord.labels (row : LineItemRecord) : String × SpendingCategory :=
  (row.originalDescription, row.spendingCategory)

namespace Db

omit [CaseFolding] in
/-- What the inner loop of one item does: its keys get the category, and
every other alias stays as it is. -/
theorem remember_spec {db db' : Db} {ownerId : UUID} {merchantKey : String}
    {category : SpendingCategory} {keys : List String}
    (h : db.remember ownerId merchantKey category keys = .ok db') :
    db' = { db with aliases := db'.aliases }
      ∧ (∀ k, db'.alias? k =
        if k.userId = ownerId ∧ k.merchantKey = merchantKey ∧ k.descriptionKey ≠ ""
          ∧ k.descriptionKey ∈ keys then decidedAlias (db.alias? k) (some category)
        else db.alias? k)
      ∧ ∀ k : AliasKey, k.merchantKey = merchantKey → k.descriptionKey ≠ ""
        → k.descriptionKey ∈ keys → k.Sendable := by
  induction keys generalizing db with
  | nil =>
    obtain rfl := Except.ok.inj h
    exact ⟨rfl, fun k => by simp, fun k _ _ hk => absurd hk List.not_mem_nil⟩
  | cons key keys ih =>
    unfold remember at h
    split at h
    · -- an empty key is passed over
      next hblank =>
      obtain ⟨hdb, halias, hsend⟩ := ih h
      have hkeys : ∀ k : AliasKey, k.descriptionKey ≠ "" →
          (k.descriptionKey ∈ key :: keys ↔ k.descriptionKey ∈ keys) := fun k hk => by
        rw [List.mem_cons, or_iff_right fun heq => hk (heq.trans hblank)]
      refine ⟨hdb, fun k => ?_, fun k hm hd hk => hsend k hm hd ((hkeys k hd).mp hk)⟩
      rw [halias k]
      congr 1
      grind
    · next hkey =>
      obtain ⟨mk, hmk, h₁⟩ := bind_eq_ok.mp h
      obtain ⟨dk, hdk, h₂⟩ := bind_eq_ok.mp h₁
      rw [eq_of_text hmk, eq_of_text hdk] at h₂
      obtain ⟨hdb, halias, hsend⟩ := ih h₂
      refine ⟨?_, fun k => ?_, fun k hm hd hk => ?_⟩
      · rw [hdb]
        split <;> rfl
      · have hstep : (if category = .unknown then db.deleteAlias ⟨ownerId, merchantKey, key⟩
            else db.upsertAlias ⟨ownerId, merchantKey, key⟩ category.code).alias? k
              = if (⟨ownerId, merchantKey, key⟩ : AliasKey) = k
                then decidedAlias (db.alias? k) (some category) else db.alias? k := by
          unfold decidedAlias
          by_cases hc : category = .unknown
          · simp only [if_pos hc, alias?_deleteAlias]
          · simp only [if_neg hc, alias?_upsertAlias]
        rw [halias k, hstep]
        -- a key that comes again is decided again, in the same way
        by_cases hk : (⟨ownerId, merchantKey, key⟩ : AliasKey) = k
        · subst hk
          rw [if_pos rfl, decidedAlias_decidedAlias]
          simp [hkey]
        · rw [if_neg hk]
          have hne : ¬ (k.userId = ownerId ∧ k.merchantKey = merchantKey
              ∧ k.descriptionKey = key) := by
            rintro ⟨rfl, rfl, rfl⟩
            exact hk rfl
          simp only [List.mem_cons]
          grind
      · rcases List.mem_cons.mp hk with heq | hk
        · unfold AliasKey.Sendable
          rw [hm, heq]
          exact ⟨eq_of_text hmk ▸ hmk, eq_of_text hdk ▸ hdk⟩
        · exact hsend k hm hd hk

/-- What one item has remembered. It is said for every key at once: those
that the item writes are decided by it, and all others are as before. -/
theorem rememberItem_spec {db db' : Db} {c : UpdateContext} {decision : ItemCategoryDecision}
    {item : LineItemUpdate} (h : db.rememberItem c decision item = .ok db') :
    db' = { db with aliases := db'.aliases }
      ∧ (∀ k, db'.alias? k =
        if k.Writable c.ownerId c.merchantKey then decidedAlias (db.alias? k)
          (if RemembersAs k.descriptionKey decision.originalDescription item
            then some decision.category else none)
        else db.alias? k)
      ∧ ∀ k : AliasKey, k.Writable c.ownerId c.merchantKey →
        RemembersAs k.descriptionKey decision.originalDescription item → k.Sendable := by
  unfold rememberItem at h
  split at h
  · next ownerId howner =>
    split at h
    · next hremember =>
      obtain ⟨hdb, halias, hsend⟩ := remember_spec h
      have hkeys : ∀ k : AliasKey, k.descriptionKey ∈ rememberedKeys decision item.toLineItem
          ↔ RemembersAs k.descriptionKey decision.originalDescription item := by
        intro k
        unfold rememberedKeys RemembersAs
        simp [hremember.1, eq_comm]
      refine ⟨hdb, fun k => ?_, fun k hk hr => hsend k hk.2.1 hk.2.2.2 ((hkeys k).mpr hr)⟩
      rw [halias k]
      by_cases hk : k.Writable c.ownerId c.merchantKey
      · have huser : k.userId = ownerId := (Option.some.inj (howner.symm.trans hk.1)).symm
        rw [if_pos hk]
        by_cases hr : RemembersAs k.descriptionKey decision.originalDescription item
        · rw [if_pos ⟨huser, hk.2.1, hk.2.2.2, (hkeys k).mpr hr⟩, if_pos hr]
        · rw [if_neg (fun h => hr ((hkeys k).mp h.2.2.2)), if_neg hr]
          rfl
      · rw [if_neg hk, if_neg]
        rintro ⟨huser, hm, hd, -⟩
        exact hk ⟨howner.trans (congrArg some huser.symm), hm, hremember.2, hd⟩
    · next hremember =>
      obtain rfl := Except.ok.inj h
      refine ⟨rfl, fun k => ?_, fun k hk hr => absurd ⟨hr.1, hk.2.2.1⟩ hremember⟩
      split
      · next hk =>
        rw [if_neg]
        · rfl
        · rintro ⟨hr, -⟩
          exact hremember ⟨hr, hk.2.2.1⟩
      · rfl
  · next howner =>
    obtain rfl := Except.ok.inj h
    -- a receipt without an owner has no aliases
    have hno : ∀ k : AliasKey, ¬ k.Writable c.ownerId c.merchantKey := fun k hk =>
      absurd (howner.symm.trans hk.1) (by simp)
    exact ⟨rfl, fun k => (if_neg (hno k)).symm, fun k hk => absurd hk (hno k)⟩

/-- **The last item decides**: what the loop of `update_receipt` does to
the aliases, by induction on the items. What is remembered of an item
depends on the row that it continues, and not on the aliases that there
are. -/
theorem decideItems_spec {db db' : Db} {c : UpdateContext} {usedIds : List UUID} {position : ℕ}
    {items : List LineItemUpdate} {decisions : List ItemCategoryDecision}
    (h : db.decideItems c usedIds position items = .ok (db', decisions)) :
    decisions.length = items.length
      ∧ db' = { db with aliases := db'.aliases }
      ∧ (∀ k, db'.alias? k =
        if k.Writable c.ownerId c.merchantKey then decidedAlias (db.alias? k)
          (lastRemembered k.descriptionKey ((decisions.map ItemCategoryDecision.labels).zip items))
        else db.alias? k)
      ∧ ∀ k : AliasKey, k.Writable c.ownerId c.merchantKey → lastRemembered k.descriptionKey
        ((decisions.map ItemCategoryDecision.labels).zip items) ≠ none → k.Sendable := by
  induction items generalizing db usedIds position decisions with
  | nil =>
    obtain ⟨rfl, rfl⟩ := Prod.mk.inj (Except.ok.inj h)
    refine ⟨rfl, rfl, fun k => ?_, fun k _ hsome => absurd rfl hsome⟩
    split <;> rfl
  | cons item items ih =>
    obtain ⟨old, -, h⟩ := bind_eq_ok.mp h
    dsimp only at h
    split at h
    · exact absurd h (by simp [throw, throwThe, MonadExceptOf.throw, bind, Except.bind])
    obtain ⟨db₁, hitem, h⟩ := bind_eq_ok.mp h
    obtain ⟨⟨db₂, rest⟩, hrest, h⟩ := bind_eq_ok.mp h
    obtain ⟨rfl, rfl⟩ := Prod.mk.inj (Except.ok.inj h)
    -- this item is remembered first, so a later one with the same key has the last word
    obtain ⟨hdb₁, halias₁, hsend₁⟩ := rememberItem_spec hitem
    obtain ⟨hlen, hdb₂, halias₂, hsend₂⟩ := ih hrest
    refine ⟨by rw [List.length_cons, List.length_cons, hlen], ?_, fun k => ?_,
      fun k hk hsome => ?_⟩
    · rw [hdb₂, hdb₁]
    · rw [halias₂ k, halias₁ k, List.map_cons, List.zip_cons_cons, lastRemembered_cons]
      split
      · rw [decidedAlias_decidedAlias]
        rfl
      · rfl
    · rw [List.map_cons, List.zip_cons_cons, lastRemembered_cons] at hsome
      by_cases hrest : lastRemembered k.descriptionKey
          ((rest.map ItemCategoryDecision.labels).zip items) = none
      · refine hsend₁ k hk ?_
        by_contra hno
        exact hsome (by rw [hrest]; exact if_neg hno)
      · exact hsend₂ k hk hrest

/-! ## Lookups

A new receipt asks for the history of all its descriptions in one
statement. The answer is a list of pairs, in which each item looks for its
own key. -/

omit [CaseFolding] in
/-- What a dictionary built from some rows holds under a key of its own,
when only one row can have that key. The dictionary of the batched lookup
is of this form. -/
theorem lookup_filterMap_filter {rows : List AliasRecord}
    (hnodup : (rows.map AliasRecord.toAliasKey).Nodup) {userId : UUID} {merchantKey : String}
    {keys : List String} {descriptionKey : String} (hkey : descriptionKey ∈ keys) :
    ((rows.filter fun a => a.userId = userId ∧ a.merchantKey = merchantKey
          ∧ a.descriptionKey ∈ keys).filterMap
        fun a => (historyCategory a.category).map (a.descriptionKey, ·)).lookup descriptionKey
      = (rows.find? fun a => a.toAliasKey = ⟨userId, merchantKey, descriptionKey⟩).bind
          fun a => historyCategory a.category := by
  induction rows with
  | nil => rfl
  | cons a rows ih =>
    rw [List.map_cons, List.nodup_cons] at hnodup
    have ih := ih hnodup.2
    rw [List.filter_cons, List.find?_cons]
    by_cases ha : a.toAliasKey = ⟨userId, merchantKey, descriptionKey⟩
    · -- no later row has the key, so without a category nothing is found
      have hrest : rows.find? (fun a => a.toAliasKey = ⟨userId, merchantKey, descriptionKey⟩)
          = none := by
        rw [List.find?_eq_none]
        intro b hb hkb
        exact hnodup.1 (List.mem_map.mpr ⟨b, hb, (of_decide_eq_true hkb).trans ha.symm⟩)
      rw [hrest, Option.bind_none] at ih
      obtain ⟨⟨u, m, d⟩, category⟩ := a
      obtain ⟨rfl, rfl, rfl⟩ := AliasKey.mk.inj ha
      rw [if_pos (by simp [hkey])]
      rcases hc : historyCategory category with _ | c
      · rw [List.filterMap_cons_none (by rw [hc]; rfl), ih]
        simp [hc]
      · rw [List.filterMap_cons_some (by rw [hc]; rfl), List.lookup_cons_self]
        simp [hc]
    · rw [decide_eq_false ha]
      split
      · next hp =>
        have hp := of_decide_eq_true hp
        have hne : (descriptionKey == a.descriptionKey) = false := by
          refine beq_false_of_ne fun heq => ha ?_
          obtain ⟨⟨u, m, d⟩, category⟩ := a
          obtain ⟨rfl, rfl, -⟩ := hp
          rw [heq]
        rcases hc : historyCategory a.category with _ | c
        · rw [List.filterMap_cons_none (by rw [hc]; rfl)]
          exact ih
        · rw [List.filterMap_cons_some (by rw [hc]; rfl), List.lookup_cons, hne]
          exact ih
      · exact ih

omit [CaseFolding] in
theorem mapM_text_mem {l l' : List String} (h : l.mapM text = .ok l') {s : String} (hs : s ∈ l) :
    text s = .ok s := by
  induction l generalizing l' with
  | nil => exact absurd hs List.not_mem_nil
  | cons a l ih =>
    rw [List.mapM_cons] at h
    obtain ⟨a', ha, h⟩ := bind_eq_ok.mp h
    obtain ⟨l'', hl, h⟩ := bind_eq_ok.mp h
    rcases List.mem_cons.mp hs with rfl | hs
    · rw [ha, eq_of_text ha]
    · exact ih hl hs

/-- **One lookup and many agree**: what the history of some items says
about one of them is what would be suggested for it. The texts that are
sent have to be acceptable to the server in both cases. -/
theorem lookup_historyForItems {db : Db} {userId : UUID} {merchantName : String}
    {descriptions : List String} {history : List (String × SpendingCategory)}
    (h : db.historyForItems (some userId) merchantName descriptions = .ok history)
    {description : String} (hmem : description ∈ descriptions) :
    db.getCategorySuggestion userId merchantName description
      = .ok (history.lookup (normalizeHistoryKey description)) := by
  have hblank : ∀ {d : String}, normalizeHistoryKey d ≠ "" → strip d ≠ "" := fun hd hs =>
    hd (normalizeHistoryKey_eq_empty_iff.mpr hs)
  unfold historyForItems at h
  unfold getCategorySuggestion
  dsimp only at h ⊢
  split at h
  · next hnone =>
    obtain rfl := Except.ok.inj h
    by_cases hkeys : normalizeHistoryKey merchantName = "" ∨ normalizeHistoryKey description = ""
    · rw [if_pos hkeys]
      rfl
    · obtain ⟨hm, hd⟩ := not_or.mp hkeys
      rcases hnone with hnone | hnone | hnone
      · exact absurd (hnone ▸ hmem) List.not_mem_nil
      · exact absurd hnone hm
      · have hin : normalizeHistoryKey description
            ∈ (descriptions.filter (fun d => strip d ≠ "")).map normalizeHistoryKey :=
          List.mem_map_of_mem (List.mem_filter.mpr ⟨hmem, decide_eq_true (hblank hd)⟩)
        rw [hnone] at hin
        exact absurd hin List.not_mem_nil
  · next hsome =>
    obtain ⟨merchantKey, hm, h₁⟩ := bind_eq_ok.mp h
    obtain ⟨keys, hkeys, h₂⟩ := bind_eq_ok.mp h₁
    obtain rfl := Except.ok.inj h₂
    have hm' := eq_of_text hm
    have hkeys' := eq_of_mapM eq_of_text hkeys
    subst hm' hkeys'
    by_cases hd : normalizeHistoryKey description = ""
    · -- an empty key is none of those that were looked up
      refine (if_pos (Or.inr hd)).trans (congrArg Except.ok (Eq.symm ?_))
      rw [hd, List.lookup_eq_none_iff]
      intro p hp
      obtain ⟨a, ha, hc⟩ := List.mem_filterMap.mp hp
      obtain ⟨c, -, rfl⟩ := Option.map_eq_some_iff.mp hc
      have ha' := (List.mem_filter.mp ha).2
      rw [decide_eq_true_eq] at ha'
      obtain ⟨d, hdmem, hdkey⟩ := List.mem_map.mp ha'.2.2
      have hd' := (List.mem_filter.mp hdmem).2
      rw [decide_eq_true_eq] at hd'
      rw [bne_iff_ne, ← hdkey]
      exact fun hempty => hd' (normalizeHistoryKey_eq_empty_iff.mp hempty.symm)
    · have hin : normalizeHistoryKey description
          ∈ (descriptions.filter (fun d => strip d ≠ "")).map normalizeHistoryKey :=
        List.mem_map_of_mem (List.mem_filter.mpr ⟨hmem, decide_eq_true (hblank hd)⟩)
      rw [if_neg (not_or.mpr ⟨(not_or.mp (not_or.mp hsome).2).1, hd⟩), hm,
        mapM_text_mem hkeys hin, lookup_filterMap_filter db.aliases.nodup hin]
      show Except.ok ((db.alias? _).bind historyCategory) = _
      unfold alias? Table.get?
      rw [Option.bind_map]
      rfl

end Db

end VisionBill
