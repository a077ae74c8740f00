import VisionBill.BenchmarkSelection
import VisionBill.Changes
import VisionBill.Isolation
import Mathlib.Algebra.Group.Action.Defs

/-!
# Verified receipts

That a receipt is verified is stored twice, as its status and as a flag,
and not everybody asks for both. The list of receipts and a benchmark that
selects by date look at the status; a benchmark that is given receipts,
and what it expects of each, at the flag; statistics and the search for
products at both. No constraint keeps the columns alike.

They are alike in every state that is reached, because no statement writes
one of them alone, and a receipt that is stored is given both by a caller
that derives them from one value. So what is counted is what is listed,
and a benchmark selects nothing that it then refuses
(`oneVerdict_of_run`).

## Two kinds of reasons

That verifying a receipt sets both columns is in the statement, and holds
of any caller. That a receipt is stored with columns that are alike is
not: the statement takes both as arguments. It is so because of every
place from which it is called, so the handlers are gone through for what
they call it with (`careful_tenantHandler`), and only a database that is
written by these handlers has the property. A row that is put in by hand
need not have it, and then the readers disagree.

## What the readers say

Alike columns are a fact about the table. What one wants to know is that
readers agree, and that is stated as such (`Db.OneVerdict`): the
statistics count and sum up the receipts that are listed as verified, a
search for products looks at their line items, and what a benchmark has
selected it does not refuse as not verified.
-/

namespace VisionBill

/-! ## Two columns

The status and the flag say the same. They are written together, by
statements that set both, and each operation keeps them alike. -/

/-- The status and the flag say the same. -/
def Alike (status : ReceiptStatus) (verified : Bool) : Prop :=
  status = .verified ↔ verified = true

instance (status : ReceiptStatus) (verified : Bool) : Decidable (Alike status verified) :=
  inferInstanceAs (Decidable (_ ↔ _))

namespace Db

/-- The columns of all receipts are alike. -/
def VerifiedAlike (db : Db) : Prop :=
  ∀ receiptId r, db.receipts.get? receiptId = some r → Alike r.status r.verified

variable {db db' : Db}

/-- What does not write receipts keeps them. -/
theorem VerifiedAlike.of_eq (h : db.VerifiedAlike) (hreceipts : db'.receipts = db.receipts) :
    db'.VerifiedAlike := by
  unfold VerifiedAlike
  rw [hreceipts]
  exact h

/-- The columns of a row. -/
theorem VerifiedAlike.of_mem (h : db.VerifiedAlike) {r : ReceiptRecord}
    (hr : r ∈ db.receipts.rows) : Alike r.status r.verified :=
  h r.id r (Table.get?_eq_some_iff.mpr ⟨hr, rfl⟩)

/-- One row is rewritten, to one whose columns are alike. -/
theorem VerifiedAlike.of_writesReceipt (h : db.VerifiedAlike) {receiptId : UUID}
    {f : ReceiptRecord → ReceiptRecord} (hwrite : WritesReceipt db receiptId f db')
    (hf : ∀ r, Alike r.status r.verified → Alike (f r).status (f r).verified) :
    db'.VerifiedAlike := by
  intro id r hr
  rw [hwrite.get] at hr
  split at hr
  · obtain ⟨old, hold, rfl⟩ := Option.map_eq_some_iff.mp hr
    exact hf old (h receiptId old hold)
  · exact h id r hr

section Operations

variable [CaseFolding]

/-- A receipt is stored with columns that are alike, be it a new row or
the one of the image. -/
theorem VerifiedAlike.of_persistReceipt (h : db.VerifiedAlike) {now : Timestamp}
    {fresh : ℕ → UUID} {receipt : Receipt} {imageId : Option UUID} {status : ReceiptStatus}
    {verified : Bool} {userId : Option UUID} {row : ReceiptRecord} (halike : Alike status verified)
    (hpersist : db.persistReceipt now fresh receipt imageId status verified userId
      = .ok (db', row)) : db'.VerifiedAlike := by
  obtain ⟨values, history, rows, taxRows, heffect⟩ := persistReceipt_spec hpersist
  obtain ⟨db₁, hwrite, hdb⟩ := heffect.writes
  cases writeReceipt_spec hwrite with
  | updated i old hi hold hrow hdb₁ =>
    have hwrites : WritesReceipt db old.id (rewritten values status verified userId) db' :=
      writesReceipt_update (fun _ => rfl) (by rw [hdb, hdb₁]) (images_persistReceipt hpersist)
    exact h.of_writesReceipt hwrites
      fun _ _ => halike
  | inserted hnone hfree hexists hrow hinsert hdb₁ =>
    intro id r hr
    have hreceipts : db.receipts.insert row = some db'.receipts := by rw [hinsert, hdb]
    rw [Table.get?_insert hreceipts] at hr
    split at hr
    · obtain rfl := Option.some.inj hr
      rw [hrow]
      exact halike
    · exact h id r hr

end Operations

end Db

/-! ## Every operation keeps the columns alike -/

section System

variable [CaseFolding]

/-- An operation that stores a receipt is given columns that are alike.
All others may be called with anything. -/
def Op.Alike : Op → Prop
  | .persistReceipt _ _ status verified _ => VisionBill.Alike status verified
  | _ => True

variable {settings : Settings} {w w' : World}

/-- **An operation keeps the columns alike**, whether it fails or not. -/
theorem World.verifiedAlike_exec {op : Op} {c : Choice} {r : Except Exn op.Ret}
    (h : w.db.VerifiedAlike) (hop : op.Alike) (hexec : w.exec settings op c = some (w', r)) :
    w'.db.VerifiedAlike := by
  cases World.changes_exec hexec with
  | images hframe => exact h.of_eq (by rw [hframe])
  | persistReceipt hok => exact h.of_persistReceipt hop hok
  | updateReceipt hok =>
    obtain ⟨old, values, decisions, rows, taxRows, -, heffect⟩ := Db.updateReceipt_spec hok
    exact h.of_writesReceipt heffect.writesReceipt fun _ => id
  | verifyReceipt hok =>
    exact h.of_writesReceipt (Db.verifyReceipt_spec hok) fun _ _ => iff_of_true rfl rfl
  | deleteReceipt hok =>
    obtain ⟨-, hreceipts, -⟩ := Db.deleteReceipt_spec hok
    intro id r hr
    rw [hreceipts] at hr
    split at hr
    · exact absurd hr (by simp)
    · exact h id r hr
  | deleteImage hdb =>
    obtain ⟨-, hreceipts⟩ := Db.deleteImage_spec w.db _
    intro id r hr
    rw [hdb, hreceipts] at hr
    obtain ⟨old, hold, rfl⟩ := Option.map_eq_some_iff.mp hr
    exact h id old hold
  | assign hok => exact h.of_eq (by rw [Db.assign_frame hok])
  | deleteReceiptCollections hdb => exact h.of_eq (by rw [hdb]; rfl)

end System

/-! ## Every request is careful

Whoever persists a receipt chooses both columns. It is read off the
handlers that they choose them alike. -/

/-- What is derived from one value is alike. -/
theorem alike_bypass (bypass : Bool) :
    Alike (if bypass then .verified else .unverified) bypass := by
  cases bypass <;> decide

namespace Handler

variable [CaseFolding]

/-- A part of a handler that stores receipts with columns that are
alike. -/
abbrev Careful {α : Type} (p : Handler α) : Prop := p.Calls Op.Alike

variable {α : Type}

/-- A handler that has no part in the analysis stores no receipts. -/
theorem careful_of_apart {p : Handler α} (h : Apart p) : Careful p := by
  refine h.mono fun op hop => ?_
  cases op
  case persistReceipt => exact absurd trivial hop
  all_goals trivial

theorem careful_record {op : Op} {f : op.Ret → Handler α} (hf : ∀ a, Careful (f a))
    (hop : op.Alike) : Careful (perform op >>= f) :=
  Program.calls_bind (Program.calls_perform hop) hf

/-- A receipt is stored with both columns from one value: whether
verification is bypassed. -/
theorem careful_persistReceipt (receipt : Receipt) (imageId : Option UUID) (bypass : Bool)
    (userId : Option UUID) :
    Careful (persistReceipt receipt imageId (if bypass then .verified else .unverified) bypass
      userId) :=
  Program.calls_bind (Program.calls_perform (alike_bypass bypass)) fun row =>
    Program.calls_bind (careful_of_apart (apart_captureToActive row.id userId)) fun _ => trivial

theorem careful_storeAnalysis (image : ImageRecord) (path : FilePath) (receipt : Receipt) :
    Careful (storeAnalysis image path receipt) := by
  refine Program.calls_bind (calls_attempt (Program.calls_bind (careful_persistReceipt ..)
    fun row => careful_record (fun _ => trivial) trivial)) fun stored => ?_
  cases stored with
  | error e => exact careful_record (fun _ => trivial) trivial
  | ok row =>
    dsimp only
    split
    · exact Program.calls_bind (careful_of_apart (apart_attempt (apart_moveAll ..)))
        fun _ => trivial
    · trivial

theorem careful_analyzeFile (image : ImageRecord) (path : FilePath) (modelId : String) :
    Careful (analyzeFile image path modelId) := by
  refine Program.calls_bind (careful_of_apart (apart_attempt (apart_perform id)))
    fun analysis => ?_
  split
  · exact careful_storeAnalysis image path _
  · exact careful_record (fun _ => trivial) trivial
  · exact careful_record (fun _ => trivial) trivial
  · exact careful_record (fun _ => trivial) trivial

theorem careful_analyzeOne (image : ImageRecord) (modelId : String) :
    Careful (analyzeOne image modelId) := by
  unfold analyzeOne
  split
  · exact careful_record (fun _ => trivial) trivial
  · refine Program.calls_bind (careful_of_apart (apart_perform id)) fun existing => ?_
    cases existing with
    | some existing => exact careful_record (fun _ => trivial) trivial
    | none =>
      dsimp only
      split
      · exact careful_record (fun _ => trivial) trivial
      · refine Program.calls_bind (careful_of_apart (apart_perform id)) fun found => ?_
        split
        · exact careful_analyzeFile image _ modelId
        · exact careful_record (fun _ => trivial) trivial

theorem careful_processImages (models : List String) (modelId : String)
    (images : List ImageRecord) : Careful (processImages models modelId images) := by
  induction images with
  | nil => trivial
  | cons image images ih =>
    refine Program.calls_bind (Program.calls_perform trivial) fun claimed => ?_
    cases claimed with
    | none => exact ih
    | some claimed =>
      exact Program.calls_bind (careful_analyzeOne claimed _) fun _ =>
        Program.calls_bind ih fun _ => trivial

theorem careful_processPending (settings : Settings) : Careful (processPending settings) := by
  refine Program.calls_bind (careful_of_apart (apart_attempt (apart_perform id)))
    fun models => ?_
  split
  · trivial
  · trivial
  · exact Program.calls_bind (careful_of_apart (apart_perform id)) fun _ =>
      careful_processImages ..

theorem careful_uploadClaimed (settings : Settings) (new : NewImage) (first : String)
    (models : List String) (image : ImageRecord) :
    Careful (uploadClaimed settings new first models image) := by
  refine Program.calls_bind (careful_of_apart (apart_attempt (apart_perform id)))
    fun analysis => ?_
  split
  · exact careful_record (fun _ => trivial) trivial
  · exact careful_record (fun _ => trivial) trivial
  · exact Program.calls_bind (Program.calls_perform trivial) fun _ => trivial
  · refine Program.calls_bind (careful_persistReceipt ..) fun row =>
      Program.calls_bind (Program.calls_perform trivial) fun _ => ?_
    split
    · exact Program.calls_bind (careful_of_apart (apart_attempt (apart_movePrimary ..)))
        fun _ => trivial
    · trivial

theorem careful_uploadImage (settings : Settings) (new : NewImage) :
    Careful (uploadImage settings new) := by
  refine Program.calls_bind (careful_of_apart (apart_discoverModels new)) fun models => ?_
  refine Program.calls_bind (Program.calls_handle (Program.calls_perform trivial) fun e =>
    Program.calls_bind (careful_of_apart (apart_deleteFiles _)) fun _ => trivial) fun image => ?_
  split
  · trivial
  · cases models with
    | nil => trivial
    | cons first models =>
      refine Program.calls_bind (Program.calls_perform trivial) fun claimed => ?_
      cases claimed with
      | none => trivial
      | some image => exact careful_uploadClaimed settings new first models image

/-- **Every request stores receipts with columns that are alike.** -/
theorem careful_tenantHandler (settings : Settings) (request : TenantRequest) :
    Careful (request.handler settings) := by
  cases request with
  | request r =>
    cases r with
    | upload new => exact Program.calls_bind (careful_uploadImage settings new) fun _ => trivial
    | processPending => exact Program.calls_bind (careful_processPending settings) fun _ => trivial
    | updateReceipt caller receiptId receipt =>
      exact Program.calls_bind (careful_of_apart (apart_updateReceipt ..)) fun _ => trivial
    | verifyReceipt caller receiptId =>
      exact Program.calls_bind (careful_of_apart (apart_verifyReceipt ..)) fun _ => trivial
    | deleteReceipt caller receiptId => exact careful_of_apart (apart_deleteReceipt ..)
    | deleteImage caller imageId => exact careful_of_apart (apart_deleteImage ..)
  | assign caller collectionId receiptId =>
    refine Program.calls_bind (Program.calls_perform trivial) fun found => ?_
    cases found with
    | false => trivial
    | true =>
      refine Program.calls_bind (Program.calls_perform trivial) fun receipt => ?_
      cases receipt with
      | none => trivial
      | some r => exact Program.calls_perform trivial

end Handler

/-! ## Who asks for verified receipts

Some queries ask for the status, some for the flag and some for both.
Where the columns are alike, all of them look at the same receipts. -/

/-- The statistics of a caller, over all collections. -/
def Caller.statistics (caller : Caller) : StatisticsScope :=
  ⟨some caller.userId, caller.canSeeAll, none⟩

/-- The rows by currency count and sum up some receipts: those of their
currency, and no receipt is left out. -/
structure SumsListed (rows : List CurrencyStatistics) (listed : List ReceiptRecord) : Prop where
  all : (rows.map fun row => row.receiptCount).sum = listed.length
  currencies : ∀ currency, currency ∈ rows.map (fun row => row.currency)
    ↔ ∃ r ∈ listed, r.currency = currency
  each : ∀ row ∈ rows, row.receiptCount = listed.countP (fun r => r.currency = row.currency)
    ∧ row.total = ((listed.filter fun r => r.currency = row.currency).map fun r => r.total).sum

/-- **Whoever asks, the same receipts are verified**: those that are
listed. Besides the list three others ask, each with a condition of its
own: the statistics, the search and the benchmark. That they ask
differently goes unnoticed as long as the two columns are alike. -/
structure Db.OneVerdict [CaseFolding] [Lowercase] [Aggregation] (db : Db) : Prop where
  columns : db.VerifiedAlike
  /-- The statistics are about what is listed, if the limit leaves out
  nothing. -/
  statistics : ∀ caller rows limit listed, db.statsCurrency caller.statistics = .ok rows →
    db.ListsReceipts caller onlyVerified limit 0 (.ok listed) →
      (db.matching caller onlyVerified).length ≤ limit → SumsListed rows listed
  /-- A search is about the line items of what is listed. -/
  search : ∀ caller query found, db.searchProducts query caller = .ok found →
    found.Perm ((db.purchases.filter fun p =>
      onlyVerified.Matches caller p.2 ∧ ilike p.1.description (searchPattern query) = true).map
        productPurchase)
  /-- Nothing that a benchmark selects is refused as not verified. -/
  selection : ∀ request ids, db.MaySelect request (.ok ids) → ∀ id ∈ ids,
    db.expectedReceipt id ≠ .error (.valueError "Benchmark data must be a verified receipt")

section Consumers

variable [Lowercase] [Aggregation] {db : Db} {caller : Caller}

omit [Aggregation] in
/-- What the list means by verified. -/
theorem matches_onlyVerified {r : ReceiptRecord} :
    onlyVerified.Matches caller r ↔ caller.Scope r.userId ∧ r.status = .verified := by
  constructor
  · rintro ⟨hscope, hstatus, -⟩
    exact ⟨hscope, text_eq_verified_iff.mp (hstatus _ rfl (List.cons_ne_nil _ _))⟩
  · rintro ⟨hscope, hstatus⟩
    refine ⟨hscope, fun l hl _ => ?_, fun d hd => absurd hd (Option.not_mem_none d),
      fun d hd => absurd hd (Option.not_mem_none d), fun s hs => absurd hs (Option.not_mem_none s)⟩
    rw [← Option.some_inj.mp hl]
    exact text_eq_verified_iff.mpr hstatus

omit [Lowercase] [Aggregation] in
theorem owner_statistics (owner : Option UUID) :
    (∀ userId ∈ caller.statistics.owner?, owner = some userId) ↔ caller.Scope owner := by
  unfold Caller.statistics StatisticsScope.owner? Caller.Scope
  cases caller.canSeeAll <;> simp

omit [Aggregation] in
/-- The statistics look at what is listed. -/
theorem Db.VerifiedAlike.statisticsReceipts_eq (h : db.VerifiedAlike) :
    db.statisticsReceipts caller.statistics = db.matching caller onlyVerified := by
  refine List.filter_congr fun r hr => decide_eq_decide.mpr ?_
  have halike := h.of_mem hr
  rw [matches_onlyVerified]
  constructor
  · rintro ⟨hstatus, -, howner, -⟩
    exact ⟨(owner_statistics r.userId).mp howner, hstatus⟩
  · rintro ⟨hscope, hstatus⟩
    exact ⟨hstatus, halike.mp hstatus, (owner_statistics r.userId).mpr hscope,
      fun c hc => absurd hc (Option.not_mem_none c)⟩

omit [Lowercase] in
/-- The rows by currency sum up what the statistics look at. They are one
row for each group, and the groups are a partition. -/
theorem sumsListed_statsCurrency {scope : StatisticsScope} {rows : List CurrencyStatistics}
    (h : db.statsCurrency scope = .ok rows) : SumsListed rows (db.statisticsReceipts scope) := by
  obtain ⟨rows₀, hrows₀, rfl⟩ := map_eq_ok h
  obtain rfl := groupBy_eq_ok hrows₀
  have hperm := perm_orderBy ByTotal ((Tally.groups (fun r : ReceiptRecord =>
    r.currency) (db.statisticsReceipts scope)).map fun group => currencyRow group.1 group.2)
  have hcurrencies := hperm.map fun row : CurrencyStatistics => row.currency
  rw [List.map_map] at hcurrencies
  have hfst : ((Tally.groups (fun r : ReceiptRecord => r.currency)
      (db.statisticsReceipts scope)).map ((fun row : CurrencyStatistics => row.currency)
        ∘ fun group => currencyRow group.1 group.2))
      = ((db.statisticsReceipts scope).map fun r => r.currency).dedup :=
    Tally.map_fst_groups _ _
  refine ⟨?_, fun currency => ?_, fun row hrow => ?_⟩
  · have hsum := Tally.sumOver_groups (fun r : ReceiptRecord => r.currency) (fun _ => 1)
      (fun _ => True) (db.statisticsReceipts scope)
    rw [Tally.sumOver_true, Tally.sumOver_true] at hsum
    rw [(hperm.map _).sum_eq, List.map_map]
    simp only [List.map_const', List.sum_replicate, smul_eq_mul, mul_one] at hsum
    exact hsum
  · rw [hcurrencies.mem_iff, hfst, List.mem_dedup, List.mem_map]
  · obtain ⟨group, hgroup, rfl⟩ := List.mem_map.mp (hperm.mem_iff.mp hrow)
    obtain ⟨currency, -, rfl⟩ := List.mem_map.mp hgroup
    exact ⟨List.countP_eq_length_filter.symm, rfl⟩

omit [Lowercase] [Aggregation] in
/-- In which order receipts are listed does not matter for their sums. -/
theorem SumsListed.of_perm {rows : List CurrencyStatistics} {l l' : List ReceiptRecord}
    (h : SumsListed rows l) (hperm : l.Perm l') : SumsListed rows l' where
  all := h.all.trans hperm.length_eq
  currencies currency := (h.currencies currency).trans
    (exists_congr fun r => and_congr_left fun _ => hperm.mem_iff)
  each row hrow := by
    obtain ⟨hcount, htotal⟩ := h.each row hrow
    exact ⟨hcount.trans (hperm.countP_eq _), htotal.trans ((hperm.filter _).map _).sum_eq⟩

omit [Aggregation] in
/-- A page from the beginning that leaves out nothing. -/
theorem perm_of_listsReceipts {f : ReceiptFilters} (hcollection : f.collectionId = none)
    {limit : ℕ} {listed : List ReceiptRecord}
    (h : db.ListsReceipts caller f limit 0 (.ok listed))
    (hlimit : (db.matching caller f).length ≤ limit) : (db.matching caller f).Perm listed := by
  obtain ⟨-, sorted, hsorted, rfl⟩ := (listsReceipts_ok_iff hcollection).mp h
  have hlength : sorted.length ≤ limit := hsorted.perm.length_eq.trans_le hlimit
  show (db.matching caller f).Perm ((sorted.drop 0).take limit)
  rw [List.drop_zero, List.take_of_length_le hlength]
  exact hsorted.perm.symm

variable [CaseFolding]

omit [Aggregation] [CaseFolding] in
/-- What is selected has the flag. The receipts that a request names are
filtered by the flag, and the listed ones by the status. -/
theorem Db.VerifiedAlike.verified_of_selected (h : db.VerifiedAlike) {request : BenchmarkCreate}
    {ids : List UUID} (hselect : db.MaySelect request (.ok ids)) :
    ∀ id ∈ ids, db.IsVerified id := by
  cases hreceipts : request.receiptIds with
  | some given =>
    unfold Db.MaySelect at hselect
    rw [hreceipts] at hselect
    intro id hid
    rw [Except.ok.inj hselect] at hid
    exact of_decide_eq_true (List.mem_filter.mp hid).2
  | none =>
    obtain ⟨-, herror⟩ | ⟨-, sorted, hsorted, hids⟩ := (maySelect_iff hreceipts).mp hselect
    · exact absurd herror (by simp)
    · intro id hid
      rw [Except.ok.inj hids] at hid
      obtain ⟨r, hr, rfl, -⟩ := (selected_spec request.selectionLimit hsorted).2 id hid
      obtain ⟨hmem, hstatus⟩ := List.mem_filter.mp hr
      refine ⟨r, ?_, (h.of_mem hmem).mp (of_decide_eq_true hstatus)⟩
      exact Option.filter_eq_some_iff.mpr
        ⟨Table.get?_eq_some_iff.mpr ⟨hmem, rfl⟩, decide_eq_true (.inl rfl)⟩

omit [Lowercase] [Aggregation] in
theorem expectedReceipt_ne_of_isVerified {id : UUID} (h : db.IsVerified id) :
    db.expectedReceipt id ≠ .error (.valueError "Benchmark data must be a verified receipt") := by
  obtain ⟨r, hr, hverified⟩ := h
  unfold Db.expectedReceipt Db.getReceiptWithDetails
  rw [Option.mem_def.mp hr]
  dsimp only [Option.map_some]
  rw [if_pos hverified]
  intro herror
  cases hvalid : Receipt.modelValidate _ with
  | error e => rw [hvalid] at herror; exact absurd herror (by simp [Except.mapError])
  | ok receipt => rw [hvalid] at herror; exact absurd herror (by simp [Except.mapError])

/-- **Everybody goes by the same receipts** if the columns are alike. This
is the only use that is made of it. -/
theorem Db.VerifiedAlike.oneVerdict (h : db.VerifiedAlike) : db.OneVerdict where
  columns := h
  statistics caller rows limit listed hrows hlisted hlimit := by
    have hsums := sumsListed_statsCurrency hrows
    rw [h.statisticsReceipts_eq] at hsums
    exact hsums.of_perm (perm_of_listsReceipts rfl hlisted hlimit)
  search caller query found hfound := by
    obtain ⟨pattern, hpattern, hok⟩ := bind_eq_ok.mp hfound
    obtain rfl := Except.ok.inj hok
    refine ((perm_orderBy _ _).map productPurchase).trans (List.Perm.of_eq ?_)
    refine congrArg (List.map productPurchase) (List.filter_congr fun p hp => ?_)
    obtain ⟨item, -, hjoin⟩ := List.mem_filterMap.mp hp
    obtain ⟨r, hr, rfl⟩ := Option.map_eq_some_iff.mp hjoin
    have halike := h item.receiptId r hr
    have hsame : pattern = searchPattern query := eq_of_text hpattern
    rw [hsame]
    refine decide_eq_decide.mpr (and_congr_left fun _ => ?_)
    rw [matches_onlyVerified]
    exact ⟨fun hs => ⟨hs.2.2, hs.1⟩, fun hm => ⟨hm.2, halike.mp hm.2, hm.1⟩⟩
  selection request ids hselect id hid :=
    expectedReceipt_ne_of_isVerified (h.verified_of_selected hselect id hid)

end Consumers

/-! ## Every run -/

section Run

variable [CaseFolding]

omit [CaseFolding] in
/-- A statement of a world is one of its database. -/
theorem World.afterStatement_eq {w w' : World} {statement : CollectionStatement}
    (h : w.afterStatement statement = some w') :
    ∃ db, w.db.afterStatement statement = some db
      ∧ w' = { w with db := db, issued := statement.fresh ++ w.issued } := by
  unfold World.afterStatement at h
  split at h
  · obtain ⟨db, hdb, rfl⟩ := Option.map_eq_some_iff.mp h
    exact ⟨db, hdb, rfl⟩
  · exact absurd h (by simp)

/-- **Whoever asks, the same receipts are verified** in every state that
is reached: the two columns are alike, the statistics count and sum up
what is listed, a search looks at what is listed, and a benchmark selects
nothing that it refuses. -/
theorem oneVerdict_of_run [Lowercase] [Aggregation] {settings : Settings} {files : Files}
    {clock : Timestamp} {s : Threads Op.Ret Exn World}
    (run : Transition.Reachable (TenantStep settings) ⟨World.initial files clock, []⟩ s) :
    s.shared.db.OneVerdict := by
  have halike : s.shared.db.VerifiedAlike := by
    refine Threads.invariant_of_calls (I := fun w : World => w.db.VerifiedAlike) ?_ ?_
      (Handler.careful_tenantHandler settings) ?_ run
    · exact fun _ op hop w c r w' hinv hexec => World.verifiedAlike_exec hinv hop hexec
    · intro w statement w' hinv hstep
      obtain ⟨db, hdb, rfl⟩ := World.afterStatement_eq hstep
      exact Db.VerifiedAlike.of_eq hinv (Db.afterStatement_spec hdb).receipts
    · exact fun receiptId r hr =>
        absurd hr (by simp [World.initial, Db.empty, Table.empty, Table.get?])
  exact halike.oneVerdict

end Run

/-! ## A receipt that is verified -/

section Verified

local instance asciiFoldingOfVerification : CaseFolding := asciiFolding

local instance asciiLowercaseOfVerification : Lowercase := asciiLowercase

local instance plainAggregationOfVerification : Aggregation := plainAggregation

/-- A photo is uploaded, and the receipt is verified. -/
def verifying : List (Threads.Action TenantRequest Choice ⊕ CollectionStatement) :=
  [.inl (.start (.request (.upload photo))),
    .inl (.advance 0 (smoothly 1 [])), .inl (.advance 0 (smoothly 2 [])),
    .inl (.advance 0 (smoothly 3 [1])), .inl (.advance 0 (smoothly 4 [])),
    .inl (.advance 0 (smoothly 5 [])), .inl (.advance 0 (smoothly 6 [2])),
    .inl (.start (.request (.verifyReceipt ⟨1, false⟩ 2))),
    .inl (.advance 1 (smoothly 7 [])), .inl (.advance 1 (smoothly 8 [])),
    .inl (.advance 1 (smoothly 9 [])), .inl (.advance 1 (smoothly 10 [])),
    .inl (.advance 1 (smoothly 11 []))]

/-- **A receipt is verified**, and everybody goes by it. -/
theorem oneVerdict_of_run_verifying :
    ∃ s, Transition.Reachable (TenantStep plainSettings) ⟨World.initial photoFiles 0, []⟩ s
      ∧ s.shared.db.matching ⟨1, false⟩ onlyVerified ≠ [] ∧ s.shared.db.OneVerdict := by
  obtain ⟨s, run, hverified⟩ :
      ∃ s, Transition.Reachable (TenantStep plainSettings) ⟨World.initial photoFiles 0, []⟩ s
        ∧ s.shared.db.matching ⟨1, false⟩ onlyVerified ≠ [] :=
    Transition.Run.of_exec verifying (by decide +kernel)
  exact ⟨s, run, hverified, oneVerdict_of_run run⟩

end Verified

end VisionBill
