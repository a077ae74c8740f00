import VisionBill.Verification

/-!
# The two pages of a collection

The overview of collections and the page of a single one are answered by
queries that have little in common. The overview counts links; both pages
add up the receipts that are linked, whoever owns them; and the page of a
collection lists the receipts that are linked and that the caller may see.

In every state that is reached a link has both its ends, so that a count
of links is a count of receipts. Then the pages differ by the receipts
that are hidden from the caller, and by nothing else (`shown_of_run`):
these are counted and added up, but not listed. No receipt of a user's own
collection is hidden if nobody links what belongs to others
(`hidden_eq_nil`).

## An invariant of the links

Links have two foreign keys. The model has tables as lists, so it has to
be shown that no operation leaves a link without its end: deleting a
receipt or a collection takes its links along, and linking checks both
ends. Everything else leaves links alone, and no end goes away
(`LinksEnd.mono`).

## What a user sees

A collection with a receipt of somebody else says that it has two receipts
and lists one. The totals have both, so a user who adds up the list gets
less than the page says. Such a link takes a caller who may see
everything.
-/

namespace VisionBill

/-! ## Links have both ends

A link names a receipt and a collection, and deleting either deletes the
link. Without that a count of links would count what is not there. -/

namespace Db

/-- Both ends of every link are there. In the database these are foreign
keys. -/
def LinksEnd (db : Db) : Prop :=
  ∀ l ∈ db.links.rows,
    (db.receipts.get? l.receiptId).isSome ∧ (db.collectionOwner? l.collectionId).isSome

variable {db db' : Db}

/-- Links stay complete while their ends are kept. -/
theorem LinksEnd.mono (h : db.LinksEnd) (hlinks : ∀ l ∈ db'.links.rows, l ∈ db.links.rows)
    (hreceipts : ∀ l ∈ db'.links.rows, (db.receipts.get? l.receiptId).isSome →
      (db'.receipts.get? l.receiptId).isSome)
    (hcollections : ∀ l ∈ db'.links.rows, (db.collectionOwner? l.collectionId).isSome →
      (db'.collectionOwner? l.collectionId).isSome) : db'.LinksEnd := by
  intro l hl
  obtain ⟨hreceipt, hcollection⟩ := h l (hlinks l hl)
  exact ⟨hreceipts l hl hreceipt, hcollections l hl hcollection⟩

theorem LinksEnd.of_eq (h : db.LinksEnd) (hlinks : db'.links = db.links)
    (hreceipts : db'.receipts = db.receipts) (hcollections : db'.collections = db.collections) :
    db'.LinksEnd := by
  unfold LinksEnd collectionOwner?
  rw [hlinks, hreceipts, hcollections]
  exact h

theorem LinksEnd.of_writesReceipt (h : db.LinksEnd) {receiptId : UUID}
    {f : ReceiptRecord → ReceiptRecord} (hwrite : WritesReceipt db receiptId f db')
    (hlinks : db'.links = db.links) (hcollections : db'.collections = db.collections) :
    db'.LinksEnd := by
  refine h.mono (fun l hl => hlinks ▸ hl) (fun l _ hr => ?_) fun l _ hc => ?_
  · rw [hwrite.get]
    split
    · next heq =>
      rw [heq] at hr
      rw [Option.isSome_map]
      exact hr
    · exact hr
  · rw [collectionOwner?, hcollections]
    exact hc

theorem LinksEnd.of_assign (h : db.LinksEnd) {collectionId receiptId : UUID}
    (hassign : db.assign collectionId receiptId = .ok db') : db'.LinksEnd := by
  unfold assign at hassign
  split at hassign
  · exact Except.ok.inj hassign ▸ h
  · next links hinsert =>
    split at hassign
    · exact absurd hassign (by simp)
    · next hends =>
      obtain rfl := Except.ok.inj hassign
      intro l hl
      have hmem : l ∈ db.links.rows ++ [⟨receiptId, collectionId⟩] := by
        rw [← (Table.insert_eq_some_iff.mp hinsert).2]
        exact hl
      rcases List.mem_append.mp hmem with hold | hnew
      · exact h l hold
      · obtain rfl := List.mem_singleton.mp hnew
        obtain ⟨hreceipt, hcollection⟩ := not_or.mp hends
        refine ⟨Option.isSome_iff_ne_none.mpr fun hnone => hreceipt (by rw [hnone]; rfl), ?_⟩
        show ((db.collections.get? collectionId).map _).isSome
        rw [Option.isSome_map]
        exact Option.isSome_iff_ne_none.mpr fun hnone => hcollection (by rw [hnone]; rfl)

theorem LinksEnd.of_deleteReceipt (h : db.LinksEnd) {benchmarked : Bool} {receiptId : UUID}
    {caller : Caller} {row : ReceiptRecord}
    (hdelete : db.deleteReceipt benchmarked receiptId caller = .ok (some (db', row))) :
    db'.LinksEnd := by
  obtain ⟨-, hreceipts, -⟩ := deleteReceipt_spec hdelete
  obtain ⟨hlinks, hcollections⟩ := deleteReceipt_frame hdelete
  have hkept : ∀ l ∈ db'.links.rows, l ∈ db.links.rows ∧ l.receiptId ≠ receiptId := by
    intro l hl
    rw [hlinks] at hl
    obtain ⟨hmem, hne⟩ := List.mem_filter.mp hl
    exact ⟨hmem, of_decide_eq_true hne⟩
  refine h.mono (fun l hl => (hkept l hl).1) (fun l hl hr => ?_) fun l _ hc => ?_
  · rw [hreceipts, if_neg (hkept l hl).2]
    exact hr
  · rw [collectionOwner?, hcollections]
    exact hc

theorem LinksEnd.of_persistReceipt [CaseFolding] (h : db.LinksEnd) {now : Timestamp}
    {fresh : ℕ → UUID} {receipt : Receipt} {imageId : Option UUID} {status : ReceiptStatus}
    {verified : Bool} {userId : Option UUID} {row : ReceiptRecord}
    (hpersist : db.persistReceipt now fresh receipt imageId status verified userId
      = .ok (db', row)) : db'.LinksEnd := by
  obtain ⟨values, history, rows, taxRows, heffect⟩ := persistReceipt_spec hpersist
  obtain ⟨db₁, hwrite, hdb⟩ := heffect.writes
  cases writeReceipt_spec hwrite with
  | updated i old hi hold hrow hdb₁ =>
    have hwrites : WritesReceipt db old.id (rewritten values status verified userId) db' :=
      writesReceipt_update (fun _ => rfl) (by rw [hdb, hdb₁]) (images_persistReceipt hpersist)
    exact h.of_writesReceipt hwrites
      (by rw [hdb, hdb₁]) (by rw [hdb, hdb₁])
  | inserted hnone hfree hexists hrow hinsert hdb₁ =>
    have hreceipts : db.receipts.insert row = some db'.receipts := by rw [hinsert, hdb]
    refine h.mono (fun l hl => ?_) (fun l _ hr => ?_) fun l _ hc => ?_
    · rw [hdb, hdb₁] at hl
      exact hl
    · obtain ⟨r, hr⟩ := Option.isSome_iff_exists.mp hr
      rw [Table.get?_of_insert hreceipts hr]
      rfl
    · rw [hdb, hdb₁]
      exact hc

theorem LinksEnd.of_statement [CaseFolding] (h : db.LinksEnd) {statement : CollectionStatement}
    (hstep : db.afterStatement statement = some db') : db'.LinksEnd := by
  have heffect := afterStatement_spec hstep
  refine h.mono heffect.links (fun l _ hr => ?_) fun l hl hc => ?_
  · rw [heffect.receipts]
    exact hr
  · obtain ⟨owner, howner⟩ := Option.isSome_iff_exists.mp hc
    rw [heffect.collections l hl owner howner]
    rfl

end Db

/-! ## Every operation keeps the links complete -/

section System

variable [CaseFolding] {settings : Settings} {w w' : World}

/-- **An operation keeps the links complete.** Both foreign keys cascade,
so where a receipt or a collection is deleted its links are too, and a
link is only made between rows that are there. -/
theorem World.linksEnd_exec {op : Op} {c : Choice} {r : Except Exn op.Ret}
    (h : w.db.LinksEnd) (hexec : w.exec settings op c = some (w', r)) : w'.db.LinksEnd := by
  cases World.changes_exec hexec with
  | images hframe => exact h.of_eq (by rw [hframe]) (by rw [hframe]) (by rw [hframe])
  | persistReceipt hok => exact h.of_persistReceipt hok
  | updateReceipt hok =>
    obtain ⟨old, values, decisions, rows, taxRows, -, heffect⟩ := Db.updateReceipt_spec hok
    exact h.of_writesReceipt heffect.writesReceipt (by rw [heffect.frame]) (by rw [heffect.frame])
  | verifyReceipt hok =>
    obtain ⟨old, -, heq⟩ := Option.map_eq_some_iff.mp hok
    have hdb := (Prod.mk.inj heq).1
    exact h.of_writesReceipt (Db.verifyReceipt_spec hok) (by rw [← hdb]) (by rw [← hdb])
  | deleteReceipt hok => exact h.of_deleteReceipt hok
  | deleteImage hdb =>
    obtain ⟨-, hreceipts⟩ := Db.deleteImage_spec w.db _
    rw [hdb]
    refine h.mono (fun _ hl => hl) (fun l _ hr => ?_) fun _ _ hc => hc
    rw [hreceipts, Option.isSome_map]
    exact hr
  | assign hok => exact h.of_assign hok
  | deleteReceiptCollections hdb =>
    rw [hdb]
    exact h.mono (fun l hl => (List.mem_filter.mp hl).1) (fun _ _ hr => hr) fun _ _ hc => hc

/-- **Links have both ends** in every state that is reached, by any
requests in any order. Without it the overview would count links to
receipts that no page can list, and nothing could be said of the two. -/
theorem linksEnd_of_run {files : Files} {clock : Timestamp} {s : Threads Op.Ret Exn World}
    (run : Transition.Reachable (TenantStep settings) ⟨World.initial files clock, []⟩ s) :
    s.shared.db.LinksEnd := by
  refine Threads.invariant_of_calls (P := fun _ => True) (I := fun w : World => w.db.LinksEnd)
    ?_ ?_ (fun _ => Program.calls_true _) ?_ run
  · exact fun _ op _ w c r w' hinv hexec => World.linksEnd_exec hinv hexec
  · intro w statement w' hinv hstep
    obtain ⟨db, hdb, rfl⟩ := World.afterStatement_eq hstep
    exact Db.LinksEnd.of_statement hinv hdb
  · exact fun l hl => absurd hl (by simp [World.initial, Db.empty, Table.empty])

end System

/-! ## What is linked, and what is listed

A collection counts all receipts that are linked to it, and lists those
that the caller may see. The difference is what is hidden, and the two
pages are related by it. -/

namespace Db

/-- The linked receipts that a caller may not see. They are counted and
added up on both pages. -/
def hidden (db : Db) (caller : Caller) (collectionId : UUID) : List ReceiptRecord :=
  (db.linkedReceipts collectionId).filter fun r => ¬ caller.Scope r.userId

variable {db : Db} {caller : Caller} {collectionId : UUID}

theorem mem_linkedReceipts {r : ReceiptRecord} :
    r ∈ db.linkedReceipts collectionId
      ↔ r ∈ db.receipts.rows ∧ ⟨r.id, collectionId⟩ ∈ db.links.rows := by
  unfold linkedReceipts
  rw [List.mem_filterMap]
  constructor
  · rintro ⟨l, hl, hr⟩
    obtain ⟨hmem, hcollection⟩ := List.mem_filter.mp hl
    obtain ⟨hrow, hid⟩ := Table.get?_eq_some_iff.mp hr
    have hlink : (⟨r.id, collectionId⟩ : Link) = l := by
      rw [hid, ← of_decide_eq_true hcollection]
    exact ⟨hrow, hlink ▸ hmem⟩
  · rintro ⟨hrow, hlink⟩
    exact ⟨⟨r.id, collectionId⟩, List.mem_filter.mpr ⟨hlink, decide_eq_true rfl⟩,
      Table.get?_eq_some_iff.mpr ⟨hrow, rfl⟩⟩

/-- No receipt is linked to a collection twice. The primary key of a link
has both ends in it, and this is all that the counts need of the table. -/
theorem nodup_linkedReceipts : (db.linkedReceipts collectionId).Nodup := by
  have hids : ((db.links.rows.filter fun l => l.collectionId = collectionId).map
      Link.receiptId).Nodup := by
    refine List.Nodup.map_on (fun l hl l' hl' heq => ?_)
      ((List.Nodup.of_map _ db.links.nodup).filter _)
    have hcollection := of_decide_eq_true (List.mem_filter.mp hl).2
    have hcollection' := of_decide_eq_true (List.mem_filter.mp hl').2
    obtain ⟨receiptId, c⟩ := l
    obtain ⟨receiptId', c'⟩ := l'
    obtain rfl : receiptId = receiptId' := heq
    exact congrArg _ (hcollection.trans hcollection'.symm)
  have hnodup := hids.filterMap (f := db.receipts.get?) fun i i' r hr hr' =>
    (Table.get?_eq_some_iff.mp hr).2.symm.trans (Table.get?_eq_some_iff.mp hr').2
  rw [List.filterMap_map] at hnodup
  exact hnodup

/-- What is linked is listed or hidden, each receipt once. The order is
that of the page in front and does not matter behind. -/
theorem linkedReceipts_perm :
    (db.linkedReceipts collectionId).Perm
      (db.members caller collectionId ++ db.hidden caller collectionId) := by
  have hlisted : ((db.linkedReceipts collectionId).filter fun r => caller.Scope r.userId).Perm
      (db.members caller collectionId) := by
    refine (List.perm_ext_iff_of_nodup (nodup_linkedReceipts.filter _)
      ((List.Nodup.of_map _ db.receipts.nodup).filter _)).mpr fun r => ?_
    rw [List.mem_filter, List.mem_filter, mem_linkedReceipts, decide_eq_true_iff,
      decide_eq_true_iff, and_assoc]
  have hsplit := (List.filter_append_perm (fun r : ReceiptRecord => caller.Scope r.userId)
    (db.linkedReceipts collectionId)).symm
  refine hsplit.trans (hlisted.append (List.Perm.of_eq (List.filter_congr fun r _ => ?_)))
  exact (decide_not).symm

/-- A count of links is a count of receipts. -/
theorem receiptCount_eq (h : db.LinksEnd) :
    db.receiptCount collectionId = (db.linkedReceipts collectionId).length := by
  unfold receiptCount linkedReceipts
  rw [List.countP_eq_length_filter]
  refine (List.filterMap_length_eq_length.mpr fun l hl => ?_).symm
  exact (h l (List.mem_filter.mp hl).1).1

end Db

/-! ## The pages

The overview and the page of a collection are computed by different
statements. They are compared by what each says about the same links, in
whatever order the rows come. -/

/-- Some totals are those of some receipts: one for each currency that
occurs, with the sum of what has it. -/
structure SumsTotals (totals : List CurrencyTotal) (receipts : List ReceiptRecord) : Prop where
  nodup : (totals.map CurrencyTotal.currency).Nodup
  currencies : ∀ currency, currency ∈ totals.map CurrencyTotal.currency
    ↔ ∃ r ∈ receipts, r.currency = currency
  each : ∀ t ∈ totals,
    t.total = ((receipts.filter fun r => r.currency = t.currency).map fun r => r.total).sum

/-- The page of a collection, against its entry in the overview: the
numbers are the same, and the list differs from what is counted by what is
hidden. -/
structure Db.Shown (db : Db) (caller : Caller) (summary : CollectionSummary)
    (detail : CollectionDetail) : Prop where
  same : detail.toCollectionRecord = summary.toCollectionRecord
  /-- What is not listed is hidden. -/
  count : summary.receiptCount = detail.receipts.length + (db.hidden caller summary.id).length
  /-- Both pages have the same totals, in some order. -/
  perm : detail.totals.Perm summary.totals
  totals : SumsTotals summary.totals (detail.receipts ++ db.hidden caller summary.id)

section Pages

variable {db : Db} {caller : Caller} {collectionId : UUID}

theorem Db.TotalsPerCurrency.sumsTotals {totals : List CurrencyTotal}
    (h : db.TotalsPerCurrency collectionId totals) :
    SumsTotals totals (db.linkedReceipts collectionId) := by
  have hfst : ((Tally.groupSum (fun r : ReceiptRecord => r.currency) (fun r => r.total)
      (db.linkedReceipts collectionId)).map fun group => (⟨group.1, group.2⟩ : CurrencyTotal)).map
        CurrencyTotal.currency
      = ((db.linkedReceipts collectionId).map fun r => r.currency).dedup := by
    unfold Tally.groupSum
    rw [List.map_map, List.map_map]
    exact List.map_id _
  have hcurrencies := h.perm.map CurrencyTotal.currency
  rw [hfst] at hcurrencies
  refine ⟨hcurrencies.nodup_iff.mpr (List.nodup_dedup _), fun currency => ?_, fun t ht => ?_⟩
  · rw [hcurrencies.mem_iff, List.mem_dedup, List.mem_map]
  · obtain ⟨group, hgroup, rfl⟩ := List.mem_map.mp (h.perm.mem_iff.mp ht)
    obtain ⟨currency, -, rfl⟩ := List.mem_map.mp hgroup
    rfl

theorem SumsTotals.of_perm {totals : List CurrencyTotal} {l l' : List ReceiptRecord}
    (h : SumsTotals totals l) (hperm : l.Perm l') : SumsTotals totals l' where
  nodup := h.nodup
  currencies currency := (h.currencies currency).trans
    (exists_congr fun _ => and_congr_left fun _ => hperm.mem_iff)
  each t ht := (h.each t ht).trans ((hperm.filter _).map _).sum_eq

/-- The entry of a collection in the overview adds up what is linked. -/
theorem Db.Summarizes.sumsTotals {c : CollectionRecord} {summary : CollectionSummary}
    (h : db.Summarizes c summary) (hends : db.LinksEnd) :
    SumsTotals summary.totals (db.linkedReceipts c.id) := by
  obtain ⟨-, -, htotals⟩ := h
  split at htotals
  · exact Db.TotalsPerCurrency.sumsTotals htotals
  · next hzero =>
    rw [receiptCount_eq hends, List.length_pos_iff, not_not] at hzero
    rw [htotals, hzero]
    exact ⟨List.nodup_nil, fun currency => by simp, fun t ht => absurd ht List.not_mem_nil⟩

/-- Totals of the same receipts are the same, in some order. There is one
for each currency, and the receipts decide what it is; the server may
group them in any order. -/
theorem SumsTotals.perm {totals totals' : List CurrencyTotal} {receipts : List ReceiptRecord}
    (h : SumsTotals totals receipts) (h' : SumsTotals totals' receipts) : totals.Perm totals' := by
  have hmem : ∀ {l l' : List CurrencyTotal}, SumsTotals l receipts → SumsTotals l' receipts →
      ∀ t ∈ l, t ∈ l' := by
    intro l l' hl hl' t ht
    have hcurrency := (hl.currencies t.currency).mp (List.mem_map_of_mem ht)
    obtain ⟨t', ht', heq⟩ := List.mem_map.mp ((hl'.currencies t.currency).mpr hcurrency)
    have htotal : t'.total = t.total := by
      rw [hl'.each t' ht', hl.each t ht, heq]
    obtain ⟨currency, total⟩ := t
    obtain ⟨currency', total'⟩ := t'
    obtain rfl : currency' = currency := heq
    obtain rfl : total' = total := htotal
    exact ht'
  exact (List.perm_ext_iff_of_nodup (List.Nodup.of_map _ h.nodup)
    (List.Nodup.of_map _ h'.nodup)).mpr fun t => ⟨hmem h h' t, hmem h' h t⟩

/-- The overview has one entry for each collection that it lists. -/
theorem summaries_spec {sorted : List CollectionRecord} {summaries : List CollectionSummary}
    (h : List.Forall₂ db.Summarizes sorted summaries) :
    summaries.map CollectionSummary.toCollectionRecord = sorted
      ∧ ∀ summary ∈ summaries, db.Summarizes summary.toCollectionRecord summary := by
  induction h with
  | nil => exact ⟨rfl, fun _ hmem => absurd hmem List.not_mem_nil⟩
  | @cons c summary sorted summaries hc _ ih =>
    obtain ⟨hmap, hall⟩ := ih
    have heq := hc.1
    exact ⟨congrArg₂ List.cons heq hmap,
      List.forall_mem_cons.mpr ⟨by rw [heq]; exact hc, hall⟩⟩

variable [Lowercase] [Aggregation]

omit [Aggregation] in
/-- What the page of a collection shows. The linked receipts are parted
into those that the caller may see and those that are hidden, and counts
and totals are of both. -/
theorem Db.LinksEnd.shown (hends : db.LinksEnd) {c : CollectionRecord}
    {summary : CollectionSummary} {detail : CollectionDetail} (hsummary : db.Summarizes c summary)
    (hc : db.collectionFor? caller c.id = some c)
    (hdetail : db.GetsDetail caller c.id (.ok (some detail))) :
    db.Shown caller summary detail := by
  obtain ⟨hfound, htotals, rows, hrows, hlisted⟩ := hdetail
  obtain rfl : summary.toCollectionRecord = c := hsummary.1
  rw [selectedInCollection_eq] at hrows
  have hlinked : (db.linkedReceipts summary.id).Perm
      (detail.receipts ++ db.hidden caller summary.id) := by
    have hparted : (db.linkedReceipts summary.id).Perm
        (db.members caller summary.id ++ db.hidden caller summary.id) := linkedReceipts_perm
    refine hparted.trans (List.Perm.append_right _ ?_)
    rw [Except.ok.inj hrows]
    exact hlisted.perm.symm
  refine ⟨Option.some.inj (hfound.symm.trans hc), ?_, ?_, ?_⟩
  · rw [hsummary.2.1, receiptCount_eq hends, hlinked.length_eq, List.length_append]
  · exact htotals.sumsTotals.perm (hsummary.sumsTotals hends)
  · exact (hsummary.sumsTotals hends).of_perm hlinked

/-- **The two pages of a collection** in every state that is reached:
whatever the overview lists has a page, on which the same totals stand,
and which lists as many receipts as the overview has counted but for those
that are hidden from the caller; and nothing else has a page. -/
theorem shown_of_run [CaseFolding] {settings : Settings} {files : Files} {clock : Timestamp}
    {s : Threads Op.Ret Exn World} {summaries : List CollectionSummary}
    (run : Transition.Reachable (TenantStep settings) ⟨World.initial files clock, []⟩ s)
    (hlist : s.shared.db.ListsWithTotals caller (.ok summaries)) :
    (∀ summary ∈ summaries, ∀ answer, s.shared.db.GetsDetail caller summary.id answer →
        ∃ detail, answer = .ok (some detail) ∧ s.shared.db.Shown caller summary detail)
      ∧ ∀ collectionId, (∀ summary ∈ summaries, summary.id ≠ collectionId) →
        ∀ answer, s.shared.db.GetsDetail caller collectionId answer → answer = .ok none := by
  have hends := linksEnd_of_run run
  obtain ⟨-, sorted, hperm, -, hsummaries⟩ := hlist
  obtain ⟨hmap, hall⟩ := summaries_spec hsummaries
  -- the overview lists the collections that have a page
  have hfor : ∀ collectionId c, s.shared.db.collectionFor? caller collectionId = some c
      ↔ c ∈ sorted ∧ c.id = collectionId := by
    intro collectionId c
    unfold Db.collectionFor?
    rw [hperm.mem_iff, Option.filter_eq_some_iff, Table.get?_eq_some_iff, Db.collectionsFor,
      List.mem_filter, and_right_comm]
  constructor
  · intro summary hmem answer hanswer
    have hfound : s.shared.db.collectionFor? caller summary.id
        = some summary.toCollectionRecord :=
      (hfor _ _).mpr ⟨hmap ▸ List.mem_map_of_mem hmem, rfl⟩
    match answer, hanswer with
    | .error e, ⟨_, herror⟩ =>
      exact absurd ((selectedInCollection_eq _ _ _).symm.trans herror) (by simp)
    | .ok none, hnone => exact absurd (hfound.symm.trans hnone) (by simp)
    | .ok (some detail), hdetail =>
      exact ⟨detail, rfl, hends.shown (hall summary hmem) hfound hdetail⟩
  · intro collectionId hother answer hanswer
    have hnone : s.shared.db.collectionFor? caller collectionId = none := by
      refine Option.eq_none_iff_forall_ne_some.mpr fun c hc => ?_
      obtain ⟨hmem, hid⟩ := (hfor _ _).mp hc
      rw [← hmap] at hmem
      obtain ⟨summary, hsummary, rfl⟩ := List.mem_map.mp hmem
      exact hother summary hsummary hid
    match answer, hanswer with
    | .error e, ⟨hsome, _⟩ => exact absurd hsome (by rw [hnone]; simp)
    | .ok none, _ => rfl
    | .ok (some detail), ⟨hfound, _⟩ => exact absurd (hnone.symm.trans hfound) (by simp)

omit [Lowercase] [Aggregation] in
/-- **Nothing is hidden in a user's own collections** unless somebody
links what belongs to others. The program does let an administrator do so,
which is why it is asked of the run and not of the program. -/
theorem hidden_eq_nil [CaseFolding] {userId : UUID} {settings : Settings} {files : Files}
    {clock : Timestamp} {s : Threads Op.Ret Exn World}
    (run : OwnLinksRun userId settings files clock s) {c : CollectionRecord}
    (hc : c ∈ s.shared.db.collectionsFor ⟨userId, false⟩) :
    s.shared.db.hidden ⟨userId, false⟩ c.id = [] := by
  obtain ⟨hmem, hscope⟩ := List.mem_filter.mp hc
  have howner : c.userId = userId := Option.some.inj (scope_iff.mp (of_decide_eq_true hscope))
  refine List.filter_eq_nil_iff.mpr fun r hr hhidden => ?_
  obtain ⟨hrow, hlink⟩ := Db.mem_linkedReceipts.mp hr
  obtain ⟨receiptOwner, collectionOwner, hreceipt, hcollection, hiff⟩ := run.owned.links _ hlink
  have hr : s.shared.db.receiptOwner? r.id = some r.userId :=
    congrArg (Option.map _) (Table.get?_eq_some_iff.mpr ⟨hrow, rfl⟩)
  have hk : s.shared.db.collectionOwner? c.id = some c.userId :=
    congrArg (Option.map _) (Table.get?_eq_some_iff.mpr ⟨hmem, rfl⟩)
  obtain rfl := Option.some.inj (hreceipt.symm.trans hr)
  obtain rfl := Option.some.inj (hcollection.symm.trans hk)
  exact of_decide_eq_true hhidden (scope_iff.mpr (hiff.mpr howner))

end Pages

/-! ## A receipt that is hidden

The promise is tried where it has to tell three things apart: what is listed,
what is hidden, and what is neither because it lies in another collection. -/

section Hidden

local instance asciiFoldingOfHidden : CaseFolding := asciiFolding

local instance asciiLowercaseOfHidden : Lowercase := asciiLowercase

local instance plainAggregationOfHidden : Aggregation := plainAggregation

/-- A ticket of the first user, who has paid in another currency. -/
def ticket : Receipt :=
  { emptyFields with
    merchantName := "Museum"
    lineItems := []
    currency := "CHF"
    subtotal := 24
    total := 24
    total_checked := by decide +kernel }

/-- The first user has the receipt 2, and the second one has the receipt
12 in the collections 3 and 4. An administrator puts the receipt 2 into
the collection 3, too. -/
def visited : List (Threads.Action TenantRequest Choice ⊕ CollectionStatement) :=
  uploadingFirst.set 5 (.inl (.advance 0 { smoothly 5 [] with analysis := .ok ticket }))
    ++ travelling 1 3 4
    ++ [.inl (.start (.assign ⟨9, true⟩ 3 2)),
      .inl (.advance 4 (smoothly 30 [])), .inl (.advance 4 (smoothly 31 [])),
      .inl (.advance 4 (smoothly 32 []))]

/-- The collections of the second user, with their counts and totals. -/
def overview : List CollectionSummary :=
  [⟨{ trip with id := 4, name := "Business", createdAt := 20 }, 1, [⟨"EUR", 17⟩]⟩,
    ⟨{ trip with createdAt := 19 }, 2, [⟨"CHF", 24⟩, ⟨"EUR", 17⟩]⟩]

/-- The groups by currency of the receipts that are linked to a
collection. -/
def Db.currencyGroups (db : Db) (collectionId : UUID) : List CurrencyTotal :=
  (Tally.groupSum (fun r : ReceiptRecord => r.currency) (fun r => r.total)
    (db.linkedReceipts collectionId)).map fun group => ⟨group.1, group.2⟩

/-- What is stored then. -/
def HasHidden (db : Db) : Prop :=
  db.collectionsFor ⟨2, false⟩ = overview.reverse.map CollectionSummary.toCollectionRecord
    ∧ (∀ summary ∈ overview, db.receiptCount summary.id = summary.receiptCount
      ∧ summary.totals.Perm (db.currencyGroups summary.id))
    ∧ (db.members ⟨2, false⟩ 3).map ReceiptRecord.id = [12]
    ∧ (db.hidden ⟨2, false⟩ 3).map ReceiptRecord.id = [2]

instance : DecidablePred HasHidden := fun _ => inferInstanceAs (Decidable (_ ∧ _ ∧ _ ∧ _))

theorem overview_spec : ∀ summary ∈ overview, 0 < summary.receiptCount
    ∧ summary.receiptCount ≤ maxCount
    ∧ summary.totals.Pairwise fun t t' => t'.total ≤ t.total := by decide +kernel

theorem HasHidden.listsWithTotals {db : Db} (h : HasHidden db) :
    db.ListsWithTotals ⟨2, false⟩ (.ok overview) := by
  obtain ⟨hcollections, hsummaries, -, -⟩ := h
  have hsummarizes : ∀ summary ∈ overview, db.Summarizes summary.toCollectionRecord summary := by
    intro summary hmem
    obtain ⟨hpos, -, hsorted⟩ := overview_spec summary hmem
    obtain ⟨hcount, hperm⟩ := hsummaries summary hmem
    refine ⟨rfl, hcount.symm, ?_⟩
    rw [hcount, if_pos hpos]
    exact ⟨hperm, hsorted⟩
  refine ⟨fun c hc => ?_, overview.map CollectionSummary.toCollectionRecord, ?_,
    by decide +kernel, ?_⟩
  · rw [hcollections, List.mem_map] at hc
    obtain ⟨summary, hmem, rfl⟩ := hc
    rw [List.mem_reverse] at hmem
    rw [(hsummaries summary hmem).1]
    exact (overview_spec summary hmem).2.1
  · rw [hcollections, List.map_reverse]
    exact (List.reverse_perm _).symm
  · rw [List.forall₂_map_left_iff, List.forall₂_same]
    exact hsummarizes

/-- **An administrator has put a receipt of the first user into a
collection of the second one**: the overview counts two receipts, in two
currencies, and the page has the same totals, but lists the user's own
receipt alone. -/
theorem shown_of_run_assigned :
    ∃ s detail, Transition.Reachable (TenantStep plainSettings)
        ⟨World.initial photoFiles 0, []⟩ s
      ∧ s.shared.db.ListsWithTotals ⟨2, false⟩ (.ok overview)
      ∧ s.shared.db.GetsDetail ⟨2, false⟩ 3 (.ok (some detail))
      ∧ s.shared.db.Shown ⟨2, false⟩
        ⟨{ trip with createdAt := 19 }, 2, [⟨"CHF", 24⟩, ⟨"EUR", 17⟩]⟩ detail
      ∧ detail.receipts.map ReceiptRecord.id = [12]
      ∧ (s.shared.db.hidden ⟨2, false⟩ 3).map ReceiptRecord.id = [2] := by
  obtain ⟨s, run, hs⟩ :
      ∃ s, Transition.Reachable (TenantStep plainSettings) ⟨World.initial photoFiles 0, []⟩ s
        ∧ HasHidden s.shared.db ∧ s.shared.db.collectionFor? ⟨2, false⟩ 3
          = some { trip with createdAt := 19 } :=
    Transition.Run.of_exec visited (by decide +kernel)
  obtain ⟨hstored, hfound⟩ := hs
  have hlist := hstored.listsWithTotals
  obtain ⟨-, hsummaries, hlisted, hhidden⟩ := hstored
  have hmem : ⟨{ trip with createdAt := 19 }, 2, [⟨"CHF", 24⟩, ⟨"EUR", 17⟩]⟩ ∈ overview :=
    List.mem_cons_of_mem _ (List.mem_singleton_self _)
  have hsorted : (s.shared.db.members ⟨2, false⟩ 3).Pairwise fun a b => b.date ≤ a.date := by
    obtain ⟨r, hr, -⟩ := List.map_eq_singleton_iff.mp hlisted
    rw [hr]
    exact List.pairwise_singleton _ _
  -- an answer of the page, to which the general result is applied
  have hdetail : s.shared.db.GetsDetail ⟨2, false⟩ 3 (.ok (some
      ⟨{ trip with createdAt := 19 }, [⟨"CHF", 24⟩, ⟨"EUR", 17⟩],
        s.shared.db.members ⟨2, false⟩ 3⟩)) :=
    ⟨hfound, ⟨(hsummaries _ hmem).2, (overview_spec _ hmem).2.2⟩, _, selectedInCollection_eq _ _ _,
      List.Perm.refl _, hsorted⟩
  obtain ⟨detail, heq, hshown⟩ := (shown_of_run run hlist).1 _ hmem _ hdetail
  obtain rfl := Option.some.inj (Except.ok.inj heq)
  exact ⟨s, _, run, hlist, hdetail, hshown, hlisted, hhidden⟩

end Hidden

end VisionBill
