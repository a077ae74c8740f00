import VisionBill.Lib.Firsts
import VisionBill.Reconciliation
import VisionBill.Links
import VisionBill.GroundTruth

/-!
# Tags

`LineItem._normalize_tags` writes every tag with single spaces, drops
those that are blank or too long then, and of those that differ in case
only it keeps the first. Against the set of case keys that the loop
collects, what it returns is a question of positions: the tags whose key
no earlier one has.

Tags are validated again and again – when the rows of several photos are
put together, when a receipt is saved, when a benchmark rebuilds its
expected receipt from the database. What has been normalised once stays as
it is, and that is so of every row that is stored.

## The loop as a fold

The loop carries the keys that it has met. What it returns from any point
on is therefore a function of those keys and the rest of the list, and
said so, by induction on the list, it is the list of first occurrences
without those whose keys were met before (`normalizeTagsFrom_eq`). At the
start no key has been met, and the set of keys disappears from the
statement (`normalizeTags_eq`). That normalising again changes nothing is
then a fact about first occurrences.

How letters without case are compared is a parameter, the folding table of
the interpreter.

## What is stored

A row gets its tags from a validated item and from nothing else, and no
statement writes the tags of a row that is there. So the rows of every
state that is reached have normal tags (`tagsNormal_of_run`), whichever
requests run at the same time and whatever fails.
-/

namespace VisionBill

section Tags

variable [CaseFolding]

/-! ## What the validator returns

The loop looks at one tag after the other and remembers what it has seen.
What comes out is said without the loop: the first of each key among those
that are admitted. -/

/-- The names that are neither blank nor too long, with single spaces.
Their cases are not looked at yet. -/
def admittedTags (v : List String) : List String :=
  (v.map collapse).filter fun name => name ≠ "" ∧ len name ≤ maxTagLength

omit [CaseFolding] in
theorem mem_admittedTags {v : List String} {name : String} :
    name ∈ admittedTags v
      ↔ (∃ tag ∈ v, collapse tag = name) ∧ name ≠ "" ∧ len name ≤ maxTagLength := by
  unfold admittedTags
  rw [List.mem_filter, List.mem_map, decide_eq_true_iff]

omit [CaseFolding] in
theorem admittedTags_cons (tag : String) (v : List String) :
    admittedTags (tag :: v)
      = if collapse tag ≠ "" ∧ len (collapse tag) ≤ maxTagLength
        then collapse tag :: admittedTags v else admittedTags v := by
  unfold admittedTags
  rw [List.map_cons, List.filter_cons]
  simp only [decide_eq_true_eq]

/-- The loop, against the names that are left and the keys seen before it.
The induction is on the list, for all keys at once. -/
theorem normalizeTagsFrom_eq (seen v : List String) :
    normalizeTagsFrom seen v
      = (Occurrences.firsts casefold (admittedTags v)).filter fun name => casefold name ∉ seen := by
  induction v generalizing seen with
  | nil => rfl
  | cons tag v ih =>
    rw [admittedTags_cons]
    by_cases hname : collapse tag ≠ "" ∧ len (collapse tag) ≤ maxTagLength
    · rw [if_pos hname, Occurrences.firsts_cons, List.filter_cons, List.filter_filter]
      by_cases hseen : casefold (collapse tag) ∈ seen
      · have hskips : SkipsTag seen tag := by
          refine .inr ?_
          rwa [strip_collapse]
        have hdrop : ¬ decide (casefold (collapse tag) ∉ seen) = true :=
          fun h => of_decide_eq_true h hseen
        rw [normalizeTagsFrom_of_skips hskips, ih]
        -- what is not among the keys seen differs from this one
        refine Eq.trans (List.filter_congr fun name _ => ?_) (if_neg hdrop).symm
        by_cases hkey : casefold name ∈ seen
        · simp [hkey]
        · have hne : casefold name ≠ casefold (collapse tag) := by
            intro h
            rw [h] at hkey
            exact hkey hseen
          simp [hkey, hne]
      · have hkept : ¬ SkipsTag seen tag := by
          unfold SkipsTag
          rw [strip_collapse, not_or, not_or, Nat.not_lt]
          exact ⟨hname, hseen⟩
        rw [normalizeTagsFrom_of_not_skips hkept, strip_collapse, ih]
        refine Eq.trans (congrArg _ (List.filter_congr fun name _ => ?_))
          (if_pos (decide_eq_true hseen)).symm
        simp only [List.mem_cons, not_or, ne_eq, Bool.decide_and]
        exact Bool.and_comm _ _
    · have hskips : SkipsTag seen tag := by
        refine .inl ?_
        rw [strip_collapse, ← Nat.not_le]
        exact (not_and_or.mp hname).imp_left not_not.mp
      rw [if_neg hname, normalizeTagsFrom_of_skips hskips, ih]

/-- **The first of each key**: what is returned are the names that are
left, without those that repeat an earlier one up to case. -/
theorem normalizeTags_eq (v : List String) :
    normalizeTags v = Occurrences.firsts casefold (admittedTags v) := by
  unfold normalizeTags
  rw [normalizeTagsFrom_eq]
  exact List.filter_eq_self.mpr fun name _ => decide_eq_true List.not_mem_nil

/-- The canonical tags for what was given: written with single spaces, not
blank, not too long, no two alike up to case, in the order of their first
occurrences, and with one for every tag that is admitted. -/
structure CanonicalTags (v tags : List String) : Prop where
  collapsed : ∀ name ∈ tags, collapse name = name
  notBlank : ∀ name ∈ tags, strip name ≠ ""
  short : ∀ name ∈ tags, len name ≤ maxTagLength
  distinct : tags.Pairwise fun a b => casefold a ≠ casefold b
  /-- They are the first occurrences, in their order. -/
  ordered : tags = Occurrences.firsts casefold (admittedTags v)
  represented : ∀ tag ∈ v, strip (collapse tag) ≠ "" → len (collapse tag) ≤ maxTagLength →
    ∃! name, name ∈ tags ∧ casefold name = casefold (collapse tag)

/-- What the validator returns are the canonical tags. Each clause is
about the names that are left, and these are the first of each key among
those admitted. -/
theorem canonicalTags (v : List String) : CanonicalTags v (normalizeTags v) := by
  have hmem : ∀ name ∈ normalizeTags v, name ∈ admittedTags v := fun name hname =>
    (Occurrences.firsts_sublist casefold (admittedTags v)).subset (normalizeTags_eq v ▸ hname)
  refine ⟨fun name hname => ?_, fun name hname => ?_, fun name hname => ?_, ?_,
    normalizeTags_eq v, fun tag htag hne hlen => ?_⟩
  · obtain ⟨⟨tag, -, rfl⟩, -⟩ := mem_admittedTags.mp (hmem name hname)
    exact collapse_collapse tag
  · obtain ⟨⟨tag, -, rfl⟩, hne, -⟩ := mem_admittedTags.mp (hmem name hname)
    rwa [strip_collapse]
  · exact (mem_admittedTags.mp (hmem name hname)).2.2
  · rw [normalizeTags_eq]
    exact Occurrences.pairwise_firsts casefold (admittedTags v)
  · rw [strip_collapse] at hne
    rw [normalizeTags_eq]
    exact Occurrences.existsUnique_mem_firsts (mem_admittedTags.mpr ⟨⟨tag, htag, rfl⟩, hne, hlen⟩)

/-! ## Validating again

What the validator returns is in order, and a list that is in order is
returned as it is. So the data may be validated as often as one likes. -/

/-- A validated line item has the tags of its payload, normalised. -/
theorem LineItem.tags_modelValidate {p : LineItemPayload} {item : LineItem}
    (h : LineItem.modelValidate p = .ok item) : item.tags = normalizeTags p.tags := by
  unfold LineItem.modelValidate at h
  split at h
  · obtain ⟨unitPrice, -, h⟩ := bind_eq_ok.mp h
    obtain ⟨totalPrice, -, h⟩ := bind_eq_ok.mp h
    obtain rfl := Except.ok.inj h
    rfl
  · exact absurd h (by simp)

/-- So has each line item of a validated receipt. Validation maps the
validator over the items, and either all of them pass or there is no
receipt. -/
theorem Receipt.tags_modelValidate {p : ReceiptPayload} {r : Receipt}
    (h : Receipt.modelValidate p = .ok r) :
    r.lineItems.map LineItem.tags = p.lineItems.map fun item => normalizeTags item.tags := by
  obtain ⟨lineItems, hitems, heq⟩ :
      ∃ lineItems, p.lineItems.mapM LineItem.modelValidate = .ok lineItems
        ∧ r.lineItems = lineItems := by
    unfold Receipt.modelValidate at h
    obtain ⟨-, -, h⟩ := bind_eq_ok.mp h
    obtain ⟨lineItems, hitems, h⟩ := bind_eq_ok.mp h
    obtain ⟨taxes, -, h⟩ := bind_eq_ok.mp h
    obtain ⟨subtotal, -, h⟩ := bind_eq_ok.mp h
    obtain ⟨discountTotal, -, h⟩ := bind_eq_ok.mp h
    obtain ⟨taxTotal, -, h⟩ := bind_eq_ok.mp h
    obtain ⟨tip, -, h⟩ := bind_eq_ok.mp h
    obtain ⟨total, -, h⟩ := bind_eq_ok.mp h
    refine ⟨lineItems, hitems, ?_⟩
    split at h
    · split at h
      · split at h
        · obtain rfl := Except.ok.inj h
          rfl
        · exact absurd h (by simp)
      · exact absurd h (by simp)
    · exact absurd h (by simp)
    · exact absurd h (by simp)
  rw [heq]
  clear heq h
  generalize p.lineItems = payloads at hitems
  induction payloads generalizing lineItems with
  | nil =>
    obtain rfl := Except.ok.inj hitems
    rfl
  | cons payload payloads ih =>
    rw [List.mapM_cons] at hitems
    obtain ⟨item, hitem, hitems⟩ := bind_eq_ok.mp hitems
    obtain ⟨rest, hrest, hitems⟩ := bind_eq_ok.mp hitems
    obtain rfl := Except.ok.inj hitems
    rw [List.map_cons, List.map_cons, LineItem.tags_modelValidate hitem, ih rest hrest]

/-! ## Stored tags

Tags reach the table through the models only, and so they are in order
there too. The invariant is kept by every operation, and is used where
stored values are validated again. -/

/-- Every stored line item has tags that were normalised. It is said as a
fixed point, since normalising a second time then changes nothing
either. -/
def Db.TagsNormal (db : Db) : Prop :=
  ∀ row ∈ db.lineItems.rows, normalizeTags row.tags = row.tags

namespace Db.TagsNormal

variable {db db' : Db}

/-- Rows that go take nothing away. -/
theorem of_subset (h : db.TagsNormal) (hrows : db'.lineItems.rows ⊆ db.lineItems.rows) :
    db'.TagsNormal := fun row hrow => h row (hrows hrow)

/-- The line items of a receipt are replaced by others, which were
validated. Those of other receipts are what they were. -/
theorem replaces {fresh : ℕ → UUID} {receiptId : UUID} {index : ℕ}
    {l : List (LineItem × ItemCategoryDecision)} {rows : List LineItemRecord}
    {taxRows : List TaxRecord} (h : db.TagsNormal)
    (hreplaces : ReplacesChildren db db' receiptId rows taxRows)
    (hstores : StoresItems fresh receiptId index l rows) : db'.TagsNormal := by
  intro row hrow
  rw [hreplaces.lineItems] at hrow
  rcases List.mem_append.mp hrow with hrow | hrow
  · exact h row (List.mem_of_mem_filter hrow)
  · obtain ⟨n, hn, rfl⟩ := List.mem_iff_getElem.mp hrow
    have hinserts := lineItemRecord_spec (hstores.get (by rw [hstores.length_eq]; exact hn) hn)
    have htags : rows[n].tags = _ := hinserts.tags_eq
    rw [htags]
    exact LineItem.tags_normal _

omit [CaseFolding] in
theorem lineItems_deleteReceipt {benchmarked : Bool} {receiptId : UUID} {caller : Caller}
    {row : ReceiptRecord}
    (h : db.deleteReceipt benchmarked receiptId caller = .ok (some (db', row))) :
    db'.lineItems.rows ⊆ db.lineItems.rows := by
  unfold Db.deleteReceipt at h
  split at h
  · exact absurd (Except.ok.inj h) (by simp)
  · split at h
    · exact absurd h (by simp)
    · obtain ⟨rfl, -⟩ := Prod.mk.inj (Option.some.inj (Except.ok.inj h))
      exact List.filter_subset_self _

end Db.TagsNormal

namespace World

variable {settings : Settings} {w w' : World} {op : Op} {c : Choice} {r : Except Exn op.Ret}

/-- **What is stored stays normal**, whatever is done. Two operations
store line items, and both store validated ones; all others leave the tags
of every line item as they are or delete them with it. -/
theorem tagsNormal_exec (hnormal : w.db.TagsNormal) (h : w.exec settings op c = some (w', r)) :
    w'.db.TagsNormal := by
  have hwrite : ∀ {result : Except DbError Db} {r : Except Exn Unit},
      (w.started c).write result = (w', r) →
      (result = .ok w'.db → w'.db.lineItems = w.db.lineItems) → w'.db.TagsNormal := by
    intro result r hperform hsame
    obtain ⟨hok, -⟩ | ⟨rfl, -⟩ := write_eq hperform
    · exact hnormal.of_subset (by rw [hsame hok]; exact List.Subset.refl _)
    · exact hnormal
  have himage : ∀ {imageId : UUID} {f : ImageRecord → ImageRecord},
      WritesImage w.db imageId f w'.db → w'.db.lineItems = w.db.lineItems := by
    intro imageId f hwrites
    rw [hwrites.frame]
  obtain ⟨-, ⟨rfl, -⟩ | ⟨-, hperform⟩⟩ := exec_eq h
  · exact hnormal
  · cases op
    case storeImage new =>
      obtain ⟨row, hok, -⟩ | ⟨rfl, -⟩ := writeRow_eq hperform
      · refine hnormal.of_subset ?_
        rw [(Db.storeImage_spec hok).2.2.2.2.1]
        exact List.Subset.refl _
      · exact hnormal
    case claimForAnalysis imageId =>
      obtain ⟨row, hok, -⟩ | ⟨rfl, -⟩ := writeRow?_eq hperform
      · obtain ⟨old, -, -, -, hwrites⟩ := Db.claimForAnalysis_spec (Except.ok.inj hok)
        exact hnormal.of_subset (by rw [himage hwrites]; exact List.Subset.refl _)
      · exact hnormal
    case markAnalyzed => exact hwrite hperform fun hok => himage (Db.markAnalyzed_spec hok).2
    case markFailed => exact hwrite hperform fun hok => himage (Db.markFailed_spec hok)
    case markTerminal => exact hwrite hperform fun hok => himage (Db.markTerminal_spec hok).2
    case updateImagePath => exact hwrite hperform fun hok => himage (Db.updateImagePath_spec hok)
    case updateImageThumbnailPath =>
      exact hwrite hperform fun hok => himage (Db.updateImageThumbnailPath_spec hok)
    case updateAdditionalImages =>
      exact hwrite hperform fun hok => himage (Db.updateAdditionalImages_spec hok)
    case deleteImage imageId =>
      change (w.started c).write (.ok (w.db.deleteImage imageId)) = (w', r) at hperform
      exact hwrite hperform fun hok => by rw [← Except.ok.inj hok]; rfl
    -- a receipt is stored anew or rewritten, and its line items are replaced
    case persistReceipt receipt imageId status verified userId =>
      obtain ⟨row, hok, -⟩ | ⟨rfl, -⟩ := writeRow_eq hperform
      · obtain ⟨values, history, rows, taxRows, heffect⟩ := Db.persistReceipt_spec hok
        exact hnormal.replaces heffect.replaces heffect.stores
      · exact hnormal
    case updateReceipt caller receiptId receipt =>
      obtain ⟨row, hok, -⟩ | ⟨rfl, -⟩ := writeRow?_eq hperform
      · obtain ⟨old, values, decisions, rows, taxRows, -, heffect⟩ := Db.updateReceipt_spec hok
        exact hnormal.replaces heffect.replaces heffect.stores
      · exact hnormal
    case verifyReceipt caller receiptId =>
      obtain ⟨row, hok, -⟩ | ⟨rfl, -⟩ := writeRow?_eq hperform
      · obtain ⟨old, -, heq⟩ := Option.map_eq_some_iff.mp (Except.ok.inj hok)
        refine hnormal.of_subset ?_
        rw [← (Prod.mk.inj heq).1]
        exact List.Subset.refl _
      · exact hnormal
    case deleteReceipt caller receiptId =>
      obtain ⟨row, hok, -⟩ | ⟨rfl, -⟩ := writeRow?_eq hperform
      · exact hnormal.of_subset (Db.TagsNormal.lineItems_deleteReceipt hok)
      · exact hnormal
    case assign => exact hwrite hperform fun hok => by rw [Db.assign_frame hok]; rfl
    case deleteReceiptCollections receiptId =>
      change (w.started c).write (.ok (w.db.deleteReceiptCollections receiptId)) = (w', r)
        at hperform
      exact hwrite hperform fun hok => by rw [← Except.ok.inj hok]; rfl
    case storePermImage =>
      rw [db_of_storePermImage hperform]
      exact hnormal
    case deleteFile =>
      rw [db_of_deleteFile hperform]
      exact hnormal
    all_goals
      obtain ⟨rfl, -⟩ := Prod.mk.inj hperform
      exact hnormal

end World

/-- **Every stored line item has normal tags**, in every interleaving. It
is asked of each operation alone, so no discipline of the requests is
needed. -/
theorem tagsNormal_of_run {settings : Settings} {files : Files} {clock : Timestamp}
    {s : Threads Op.Ret Exn World} (run : Interleaving settings files clock s) :
    s.shared.db.TagsNormal := by
  induction run with
  | start => exact fun row hrow => absurd hrow List.not_mem_nil
  | next a _ _ hstep ih =>
    cases a with
    | start request =>
      obtain rfl := Option.some.inj hstep
      exact ih
    | advance t choice =>
      obtain ⟨op, k, shared, r, -, hexec, rfl⟩ := Threads.step_advance hstep
      exact World.tagsNormal_exec ih hexec

/-- Every row of a database with normal tags can be read as the payload of
an expected receipt without a change of its tags. -/
theorem Db.TagsNormal.expectedReceipt {db : Db} (h : db.TagsNormal) {receiptId : UUID}
    {details : ReceiptWithDetails} {e : Receipt}
    (hdetails : db.getReceiptWithDetails everyone receiptId = some details)
    (he : db.expectedReceipt receiptId = .ok e) :
    e.lineItems.map LineItem.tags = details.lineItems.map LineItemRecord.tags := by
  have hvalid : Receipt.modelValidate details.payload = .ok e := by
    unfold Db.expectedReceipt at he
    rw [hdetails] at he
    dsimp only at he
    split at he
    · cases hp : Receipt.modelValidate details.payload with
      | ok e' =>
        rw [hp] at he
        exact congrArg _ (Except.ok.inj he)
      | error e' =>
        rw [hp] at he
        exact absurd he (by simp [Except.mapError])
    · exact absurd he (by simp)
  rw [Receipt.tags_modelValidate hvalid, details.payload_lineItems, List.map_map]
  refine List.map_congr_left fun row hrow => h row ?_
  obtain ⟨receipt, -, rfl⟩ := Option.map_eq_some_iff.mp hdetails
  exact List.mem_of_mem_filter (mem_orderBy.mp hrow)

/-! ## A canonical form -/

/-- **Normalised tags are a canonical form**: of every list the canonical
tags are returned, and they stay as they are – where a line item that has
them is validated again, where the rows of several photos are put
together, and where an expected receipt is rebuilt from what any requests
have stored. -/
theorem normalizeTags_canonical (v : List String) :
    CanonicalTags v (normalizeTags v)
      ∧ normalizeTags (normalizeTags v) = normalizeTags v
      ∧ (∀ p item, LineItem.modelValidate p = .ok item → p.tags = normalizeTags v →
        item.tags = normalizeTags v)
      ∧ (∀ (ratio : String → String → ℚ) (m : MultiImageReceipt) imageCount r,
        m.reconciled ratio imageCount = .ok r →
        ∃ removed, m.removedRows ratio imageCount = .ok removed
          ∧ r.lineItems.map LineItem.tags
            = (m.keptRows removed).map fun row => row.toLineItem.tags)
      ∧ ∀ settings files clock s, Interleaving settings files clock s →
        s.shared.db.TagsNormal
          ∧ ∀ receiptId details e,
            s.shared.db.getReceiptWithDetails everyone receiptId = some details →
            s.shared.db.expectedReceipt receiptId = .ok e →
            e.lineItems.map LineItem.tags = details.lineItems.map LineItemRecord.tags := by
  refine ⟨canonicalTags v, normalizeTags_normalizeTags v, fun p item hvalid htags => ?_,
    fun ratio m imageCount r hr => ?_, fun settings files clock s run => ⟨tagsNormal_of_run run,
      fun receiptId details e hdetails he => (tagsNormal_of_run run).expectedReceipt hdetails he⟩⟩
  · rw [LineItem.tags_modelValidate hvalid, htags, normalizeTags_normalizeTags]
  · obtain ⟨removed, hremoved, -, hitems⟩ := MultiImageReceipt.reconciled_eq_ok hr
    refine ⟨removed, hremoved, ?_⟩
    rw [hitems, List.map_map]
    rfl

end Tags

end VisionBill
