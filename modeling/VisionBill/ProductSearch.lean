import VisionBill.ReceiptLists

/-!
# Searching for a text

Both searches put the user's text between two `%` and hand it to `ILIKE`.
That finds the texts that contain it if no character of it means anything
in a pattern (`like_surrounded_iff`). Every other text is also found where
it is not: `unescape` writes down what a pattern matches in as few
characters as possible, which is never more than the pattern has, and it
is the pattern itself only if there is nothing to unescape
(`unescape_not_infix`).

## Which queries are searched for exactly

A query is given, and the question is whether the search for it finds what
contains it and nothing else, whatever is stored. The answer is a
condition on the query alone: it has no `%`, no `_` and no backslash
(`search_exact_iff`). One direction is about every database. For the other
it is enough to have one, with a single item whose description is what the
pattern matches and which does not contain the query (`shelf`).

Both searches are looked at together, the one for products and the one of
the list of receipts, since they have the pattern in common. For the list
there is a limit and an offset besides, and what is compared is every page
of it.

## Letters without case

The server lowers texts character by character, and leaves the characters
of patterns alone; more is not assumed of it (`Lowercase.Characterwise`).
A server for ASCII is one (`characterwise_asciiLowercase`).
-/

namespace VisionBill

/-! ## Patterns

A pattern matches a text character by character, with two characters that
stand for others and one that takes their meaning away. -/

/-- A character that means something in a pattern: a wildcard, or the
escape. -/
def IsSpecial (c : Char) : Prop := c = '%' ∨ c = '_' ∨ c = '\\'

instance : DecidablePred IsSpecial := fun c =>
  inferInstanceAs (Decidable (c = '%' ∨ c = '_' ∨ c = '\\'))

/-- A character that means nothing has to be the next one of the text. So
far the pattern and the text are read side by side. -/
theorem like_cons {c : Char} (hc : ¬ IsSpecial c) (p t : List Char) :
    like (c :: p) t = (t.head? == some c && like p t.tail) := by
  unfold IsSpecial at hc
  simp only [not_or] at hc
  rw [like.eq_def]
  split
  · next heq => exact absurd heq (by simp)
  · next heq => exact absurd (List.cons.inj heq).1 hc.1
  · next heq => exact absurd (List.cons.inj heq).1 hc.2.1
  · next heq => exact absurd (List.cons.inj heq).1 hc.2.2
  · next heq =>
    obtain ⟨rfl, rfl⟩ := List.cons.inj heq
    rfl

theorem like_percent (p t : List Char) : like ('%' :: p) t = t.tails.any (like p) := rfl

/-- Any text begins with nothing. -/
theorem like_singleton_percent (t : List Char) : like ['%'] t = true :=
  List.any_eq_true.mpr ⟨[], (List.mem_tails [] t).mpr (List.nil_suffix), rfl⟩

/-- A pattern that only ends in a wildcard matches what begins with the
rest. The induction is on the pattern, which has no other wildcard. -/
theorem like_append_percent_iff {p : List Char} (hp : ∀ c ∈ p, ¬ IsSpecial c) (t : List Char) :
    like (p ++ ['%']) t = true ↔ p <+: t := by
  induction p generalizing t with
  | nil => exact iff_of_true (like_singleton_percent t) List.nil_prefix
  | cons c p ih =>
    obtain ⟨hc, hp⟩ := List.forall_mem_cons.mp hp
    rw [List.cons_append, like_cons hc]
    cases t with
    | nil => simp
    | cons a t =>
      rw [List.cons_prefix_cons, Bool.and_eq_true, List.tail_cons, ih hp]
      refine and_congr ?_ Iff.rfl
      rw [List.head?_cons, beq_iff_eq, Option.some_inj, eq_comm]

/-- **A text between two wildcards** matches what contains it, if no
character of it means anything. The first wildcard stands for what is
before a tail of it, and the rest of the pattern for a prefix of that
tail. -/
theorem like_surrounded_iff {p : List Char} (hp : ∀ c ∈ p, ¬ IsSpecial c) (t : List Char) :
    like ('%' :: p ++ ['%']) t = true ↔ p <:+: t := by
  rw [List.cons_append, like_percent, List.any_eq_true, List.infix_iff_prefix_suffix]
  refine exists_congr fun s => ?_
  rw [List.mem_tails, like_append_percent_iff hp, and_comm]

/-- A text that is matched by a pattern before a last `%`, which a
backslash at the end of the pattern makes an ordinary character. -/
def unescape : List Char → List Char
  | [] => []
  | '%' :: p => unescape p
  | '_' :: p => '%' :: unescape p
  | ['\\'] => ['%']
  | '\\' :: c :: p => c :: unescape p
  | c :: p => c :: unescape p

/-- A character that means nothing stays. -/
theorem unescape_cons {c : Char} (hc : ¬ IsSpecial c) (p : List Char) :
    unescape (c :: p) = c :: unescape p := by
  unfold IsSpecial at hc
  simp only [not_or] at hc
  rw [unescape.eq_def]
  split
  · next heq => exact absurd heq (by simp)
  · next heq => exact absurd (List.cons.inj heq).1 hc.1
  · next heq => exact absurd (List.cons.inj heq).1 hc.2.1
  · next heq => exact absurd (List.cons.inj heq).1 hc.2.2
  · next heq => exact absurd (List.cons.inj heq).1 hc.2.2
  · next heq =>
    obtain ⟨rfl, rfl⟩ := List.cons.inj heq
    rfl

/-- The last case of `unescape`. -/
theorem not_isSpecial_of_cases {c : Char} {p : List Char} (h₁ : c = '%' → False)
    (h₂ : c = '_' → False) (h₃ : c = '\\' → p = [] → False)
    (h₄ : ∀ d q, c = '\\' → p = d :: q → False) : ¬ IsSpecial c := by
  rintro (hc | hc | hc)
  · exact h₁ hc
  · exact h₂ hc
  · cases p with
    | nil => exact h₃ hc rfl
    | cons d q => exact h₄ d q hc rfl

/-- Unescaping makes a text no longer: every character of it has taken at
least one of the pattern. -/
theorem length_unescape_le (p : List Char) : (unescape p).length ≤ p.length := by
  induction p using unescape.induct with
  | case1 => exact Nat.le_refl _
  | case2 p ih => exact Nat.le_succ_of_le ih
  | case3 p ih => exact Nat.succ_le_succ ih
  | case4 => exact Nat.le_refl _
  | case5 c p ih => exact Nat.succ_le_succ (Nat.le_succ_of_le ih)
  | case6 c p h₁ h₂ h₃ h₄ ih =>
    rw [unescape.eq_6 c p h₁ h₂ h₃ h₄]
    exact Nat.succ_le_succ ih

/-- What is unescaped is matched. -/
theorem like_unescape (p : List Char) : like (p ++ ['%']) (unescape p) = true := by
  induction p using unescape.induct with
  | case1 => exact like_singleton_percent []
  | case2 p ih =>
    exact List.any_eq_true.mpr ⟨unescape p, (List.mem_tails _ _).mpr List.suffix_rfl, ih⟩
  | case3 p ih => exact ih
  | case4 => rfl
  | case5 c p ih =>
    show ((c :: unescape p).head? == some c && like (p ++ ['%']) (unescape p)) = true
    rw [ih]
    simp
  | case6 c p h₁ h₂ h₃ h₄ ih =>
    have hc : ¬ IsSpecial c := not_isSpecial_of_cases h₁ h₂ h₃ h₄
    rw [unescape_cons hc, List.cons_append, like_cons hc, List.tail_cons, ih]
    simp

/-- Only what means nothing is the same unescaped. A wildcard is left out
or becomes another character, and a backslash goes. -/
theorem not_isSpecial_of_unescape_eq {p : List Char} (h : unescape p = p) :
    ∀ c ∈ p, ¬ IsSpecial c := by
  induction p using unescape.induct with
  | case1 => exact fun c hc => absurd hc List.not_mem_nil
  | case2 p ih =>
    have hlen := length_unescape_le p
    have heq : (unescape p).length = p.length + 1 := congrArg List.length h
    omega
  | case3 p ih => exact absurd (List.cons.inj h).1 (by decide)
  | case4 => exact absurd (List.cons.inj h).1 (by decide)
  | case5 c p ih =>
    have hlen := length_unescape_le p
    have heq : (unescape p).length + 1 = p.length + 1 + 1 := congrArg List.length h
    omega
  | case6 c p h₁ h₂ h₃ h₄ ih =>
    have hc : ¬ IsSpecial c := not_isSpecial_of_cases h₁ h₂ h₃ h₄
    rw [unescape_cons hc] at h
    exact List.forall_mem_cons.mpr ⟨hc, ih (List.cons.inj h).2⟩

/-- **Any other text is found where it is not**: what is unescaped is not
longer than the pattern, so it would have to be the pattern to contain it,
and it is not. -/
theorem unescape_not_infix {p : List Char} {c : Char} (hc : c ∈ p) (hspecial : IsSpecial c) :
    ¬ p <:+: unescape p := by
  intro hinfix
  have heq : p = unescape p := hinfix.eq_of_length_le (length_unescape_le p)
  exact not_isSpecial_of_unescape_eq heq.symm c hc hspecial

/-- What is unescaped has no new characters, but a `%` perhaps. So it can
be stored if the query can. -/
theorem mem_unescape {p : List Char} {c : Char} (h : c ∈ unescape p) : c = '%' ∨ c ∈ p := by
  induction p using unescape.induct with
  | case1 => exact .inr h
  | case2 p ih => exact (ih h).imp id (List.mem_cons_of_mem _)
  | case3 p ih =>
    cases h with
    | head => exact .inl rfl
    | tail _ h => exact (ih h).imp id (List.mem_cons_of_mem _)
  | case4 => exact .inl (List.mem_singleton.mp h)
  | case5 d p ih =>
    cases h with
    | head => exact .inr (List.mem_cons_of_mem _ List.mem_cons_self)
    | tail _ h => exact (ih h).imp id fun h => List.mem_cons_of_mem _ (List.mem_cons_of_mem _ h)
  | case6 d p h₁ h₂ h₃ h₄ ih =>
    rw [unescape.eq_6 d p h₁ h₂ h₃ h₄] at h
    cases h with
    | head => exact .inr List.mem_cons_self
    | tail _ h => exact (ih h).imp id (List.mem_cons_of_mem _)

/-! ## The search for products -/

/-- `ProductPurchase`. The quantity is printed as the number that is
stored. -/
structure ProductPurchase where
  receiptId : UUID
  description : String
  merchantName : String
  date : Date
  time : Option String
  quantity : ℚ
  unitPrice : ℚ
  currency : String

/-- `_product_purchase_from_record`. Prices are those of the row, and what
was searched for is not looked at again. -/
def productPurchase (p : LineItemRecord × ReceiptRecord) : ProductPurchase where
  receiptId := p.1.receiptId
  description := p.1.description
  merchantName := p.2.merchantName
  date := p.2.date
  time := p.2.time.map Time.isoformat
  quantity := p.1.quantity
  unitPrice := p.1.unitPrice
  currency := p.2.currency

/-- A time of day in microseconds. -/
def Time.micros (t : Time) : ℕ :=
  ((t.hour * 60 + t.minute) * 60 + t.second) * 1000000 + t.microsecond

/-- By what purchases are sorted, in descending order and missing times
last. -/
def purchaseKey (p : LineItemRecord × ReceiptRecord) :
    Date ×ₗ WithBot ℕ ×ₗ Timestamp ×ₗ UUID ×ₗ UUID :=
  toLex (p.2.date, toLex (p.2.time.map Time.micros, toLex (p.2.createdAt, toLex (p.2.id, p.1.id))))

/-- A receipt that a product search may show to a caller. -/
def ReceiptRecord.IsSearched (r : ReceiptRecord) (caller : Caller) : Prop :=
  r.status = .verified ∧ r.verified = true ∧ caller.Scope r.userId

instance (r : ReceiptRecord) (caller : Caller) : Decidable (r.IsSearched caller) :=
  inferInstanceAs (Decidable (r.status = .verified ∧ r.verified = true ∧ caller.Scope r.userId))

namespace Db

/-- `line_items AS li JOIN receipts AS r ON r.id = li.receipt_id`. -/
def purchases (db : Db) : List (LineItemRecord × ReceiptRecord) :=
  db.lineItems.rows.filterMap fun item => (db.receipts.get? item.receiptId).map fun r => (item, r)

variable [Lowercase]

/-- `search_products`: the purchases whose description matches, of
receipts that the caller may see. A text that cannot be sent raises before
anything is looked at. -/
def searchProducts (db : Db) (query : String) (caller : Caller) :
    Except DbError (List ProductPurchase) := do
  let pattern ← text (searchPattern query)
  let rows := db.purchases.filter fun p =>
    p.2.IsSearched caller ∧ ilike p.1.description pattern = true
  return (orderBy (fun p q => purchaseKey q ≤ purchaseKey p) rows).map productPurchase

end Db

/-! ## What is contained

Letters are compared without their case. Lowering a text letter by letter
keeps what it contains, which is all that is asked of it here. -/

/-- A text in a text, whatever the case of their letters. -/
def ContainsText [Lowercase] (s query : String) : Prop :=
  Lowercase.lower query.toList <:+: Lowercase.lower s.toList

instance [Lowercase] (s query : String) : Decidable (ContainsText s query) :=
  inferInstanceAs (Decidable (_ <:+: _))

/-- The server lowers character by character, and neither touches nor
makes the characters of patterns. What it makes of other characters is
left open. -/
class Lowercase.Characterwise [Lowercase] : Prop where
  lower_append : ∀ l l' : List Char, lower (l ++ l') = lower l ++ lower l'
  lower_special : ∀ c, IsSpecial c → lower [c] = [c]
  eq_of_special : ∀ c d, IsSpecial d → d ∈ lower [c] → c = d
  lower_of_mem_lower : ∀ (l : List Char) (c : Char), c ∈ lower l → lower [c] = [c]

/-- No character of a text means anything to the server, and the text can
be sent. The characters are the two wildcards and the backslash. It
depends on the text alone, so a user could be told before the search. -/
def IsPlain (query : String) : Prop :=
  (∀ c ∈ query.toList, ¬ IsSpecial c) ∧ IsSendable query

instance (query : String) : Decidable (IsPlain query) :=
  @instDecidableAnd _ _ (List.decidableBAll _ query.toList) inferInstance

section Contains

variable [Lowercase] [Lowercase.Characterwise]

open Lowercase Lowercase.Characterwise

theorem lower_nil : lower ([] : List Char) = [] := by
  have h := lower_append ([] : List Char) []
  rw [List.append_nil] at h
  simpa using h

/-- What is lowered is lowered once and for all. -/
theorem lower_eq_self {l : List Char} (h : ∀ c ∈ l, lower [c] = [c]) : lower l = l := by
  induction l with
  | nil => exact lower_nil
  | cons c l ih =>
    obtain ⟨hc, hl⟩ := List.forall_mem_cons.mp h
    rw [← List.singleton_append, lower_append, hc, ih hl]

theorem mem_lower_of_special {l : List Char} {c : Char} (hc : IsSpecial c) :
    c ∈ lower l ↔ c ∈ l := by
  induction l with
  | nil => rw [lower_nil]
  | cons d l ih =>
    rw [← List.singleton_append, lower_append, List.mem_append, List.mem_append, ih,
      List.mem_singleton]
    refine or_congr ⟨fun h => (eq_of_special d c hc h).symm, ?_⟩ Iff.rfl
    rintro rfl
    rw [lower_special c hc]
    exact List.mem_singleton_self c

/-- The pattern of a search, in lower case. -/
theorem lower_searchPattern (query : String) :
    lower (searchPattern query).toList = '%' :: lower query.toList ++ ['%'] := by
  have hpercent : lower "%".toList = ['%'] := lower_special '%' (.inl rfl)
  unfold searchPattern
  rw [String.toList_append, String.toList_append, lower_append, lower_append, hpercent]
  rfl

/-- **A plain text** is found where it is contained. Both sides are made
lower first, so the server and the specification compare the same
letters. -/
theorem ilike_searchPattern_iff {query : String} (hquery : ∀ c ∈ query.toList, ¬ IsSpecial c)
    (s : String) : ilike s (searchPattern query) = true ↔ ContainsText s query := by
  unfold ilike
  rw [lower_searchPattern]
  refine like_surrounded_iff (fun c hc hspecial => ?_) _
  exact hquery c ((mem_lower_of_special hspecial).mp hc) hspecial

/-- **Any other text** is found in a text that does not contain it. That
is the query itself, its wildcards left out or replaced, and without its
backslashes. -/
theorem exists_ilike_not_contains {query : String} {c : Char} (hc : c ∈ query.toList)
    (hspecial : IsSpecial c) :
    ∃ s, ilike s (searchPattern query) = true ∧ ¬ ContainsText s query := by
  have hlower : lower (unescape (lower query.toList)) = unescape (lower query.toList) := by
    refine lower_eq_self fun d hd => ?_
    obtain rfl | hd := mem_unescape hd
    · exact lower_special '%' (.inl rfl)
    · exact lower_of_mem_lower _ d hd
  refine ⟨String.ofList (unescape (lower query.toList)), ?_, ?_⟩
  · unfold ilike
    rw [lower_searchPattern, String.toList_ofList, hlower]
    refine List.any_eq_true.mpr ⟨_, (List.mem_tails _ _).mpr List.suffix_rfl, like_unescape _⟩
  · unfold ContainsText
    rw [String.toList_ofList, hlower]
    exact unescape_not_infix ((mem_lower_of_special hspecial).mpr hc) hspecial

end Contains

/-! ## Both searches

The two searches look at different columns, with the same pattern. So each
finds exactly what contains the query under the same condition. -/

namespace Db

variable [Lowercase]

/-- The purchases of a caller whose description contains a text, and no
others are found. In which order is not part of it. The text is what the
user has typed, and not a pattern. -/
def FindsExactly (db : Db) (caller : Caller) (query : String) : Prop :=
  ∃ l, db.searchProducts query caller = .ok l
    ∧ l.Perm ((db.purchases.filter fun p =>
      p.2.IsSearched caller ∧ ContainsText p.1.description query).map productPurchase)

/-- The receipts of a caller whose merchant or number contains a text, and
no others are listed, page by page. It is said of every limit and every
offset, so that no page is an exception. -/
def ListsExactly (db : Db) (caller : Caller) (query : String) : Prop :=
  ∀ limit offset, limit ≤ int8Max → offset ≤ int8Max → ∀ answer,
    db.ListsReceipts caller { search := some query } limit offset answer
      ↔ ∃ sorted, Pages.Listing (fun r : ReceiptRecord => r.date)
          (db.receipts.rows.filter fun r => caller.Scope r.userId
            ∧ (ContainsText r.merchantName query ∨ ∃ n ∈ r.receiptNumber, ContainsText n query))
          sorted
        ∧ answer = .ok (Pages.page sorted limit offset)

/-- What is found for a text that can be sent. -/
theorem searchProducts_eq (db : Db) (caller : Caller) {query : String} (h : IsSendable query) :
    db.searchProducts query caller = .ok ((orderBy (fun p q => purchaseKey q ≤ purchaseKey p)
      (db.purchases.filter fun p => p.2.IsSearched caller
        ∧ ilike p.1.description (searchPattern query) = true)).map productPurchase) := by
  unfold searchProducts
  rw [show text (searchPattern query) = .ok (searchPattern query) from
    if_neg (isSendable_searchPattern.mpr h)]
  rfl

/-- A text that cannot be sent is not searched for. -/
theorem searchProducts_of_not_isSendable (db : Db) (caller : Caller) {query : String}
    (h : ¬ IsSendable query) : db.searchProducts query caller = .error .dataError := by
  unfold searchProducts
  rw [show text (searchPattern query) = .error .dataError from
    if_pos (not_not.mp (mt isSendable_searchPattern.mp h))]
  rfl

/-- A plain text is searched for exactly. -/
theorem findsExactly_of_isPlain [Lowercase.Characterwise] (db : Db) (caller : Caller)
    {query : String} (h : IsPlain query) : db.FindsExactly caller query := by
  refine ⟨_, db.searchProducts_eq caller h.2, ?_⟩
  refine ((perm_orderBy _ _).trans (List.Perm.of_eq ?_)).map productPurchase
  refine List.filter_congr fun p _ => ?_
  rw [decide_eq_decide, ilike_searchPattern_iff h.1]

theorem listsExactly_of_isPlain [Lowercase.Characterwise] (db : Db) (caller : Caller)
    {query : String} (h : IsPlain query) (hne : query ≠ "") : db.ListsExactly caller query := by
  intro limit offset hlimit hoffset answer
  have haccepted : ({ search := some query } : ReceiptFilters).IsAccepted limit offset :=
    ⟨⟨fun l hl => absurd hl (Option.not_mem_none l), fun s hs => Option.some.inj hs ▸ h.2⟩,
      hlimit, hoffset⟩
  have hmatching : db.matching caller { search := some query }
      = db.receipts.rows.filter fun r => caller.Scope r.userId
        ∧ (ContainsText r.merchantName query ∨ ∃ n ∈ r.receiptNumber, ContainsText n query) := by
    refine List.filter_congr fun r _ => ?_
    have hcontains : r.Contains query
        ↔ ContainsText r.merchantName query ∨ ∃ n ∈ r.receiptNumber, ContainsText n query :=
      or_congr (ilike_searchPattern_iff h.1 _) (exists_congr fun n =>
        and_congr Iff.rfl (ilike_searchPattern_iff h.1 n))
    rw [decide_eq_decide, ← hcontains]
    refine and_congr Iff.rfl ⟨fun hall => hall.2.2.2 query rfl hne, fun hquery =>
      ⟨by simp, by simp, by simp, fun s hs _ => Option.some.inj hs ▸ hquery⟩⟩
  cases answer with
  | error e =>
    rw [listsReceipts_error_iff rfl]
    exact iff_of_false (fun herror => herror.1 haccepted) fun ⟨_, _, heq⟩ => absurd heq (by simp)
  | ok l =>
    rw [listsReceipts_ok_iff rfl, hmatching, and_iff_right haccepted]
    exact exists_congr fun sorted => and_congr Iff.rfl ⟨congrArg Except.ok, Except.ok.inj⟩

end Db

theorem filter_singleton {α : Type*} (p : α → Prop) [DecidablePred p] (a : α) :
    (List.filter (fun x => p x) [a]).length = if p a then 1 else 0 := by
  split <;> simp [*]

/-- A user's verified receipt with one item. A search that is wrong about
any text at all is wrong here, with that text for the description. -/
def shelf (description : String) : Db :=
  { Db.empty with
    receipts := (Db.empty.receipts.insert
      { emptyRow 1 1 with status := .verified, verified := true }).getD Db.empty.receipts
    lineItems := (Db.empty.lineItems.insert {
      id := 1
      receiptId := 1
      description := description
      originalDescription := description
      spendingCategory := .unknown
      categorySource := .unknown
      quantity := 1
      unitPrice := 0
      totalPrice := 0
      tags := []
      position := 0 }).getD Db.empty.lineItems }

section Search

variable [Lowercase]

/-- A text that is found where it is not is not searched for exactly. The
one item is found, and it should not be. -/
theorem not_findsExactly_shelf {s query : String} (hfound : ilike s (searchPattern query) = true)
    (hnot : ¬ ContainsText s query) : ¬ (shelf s).FindsExactly ⟨1, false⟩ query := by
  rintro ⟨l, hl, hperm⟩
  have hsendable : IsSendable query := by
    by_contra h
    rw [Db.searchProducts_of_not_isSendable _ _ h] at hl
    exact absurd hl (by simp)
  rw [Db.searchProducts_eq _ _ hsendable] at hl
  obtain rfl := Except.ok.inj hl
  obtain ⟨p, hpurchases, hsearched, hdescription⟩ : ∃ p, (shelf s).purchases = [p]
      ∧ p.2.IsSearched ⟨1, false⟩ ∧ p.1.description = s :=
    ⟨_, rfl, ⟨rfl, rfl, .inr rfl⟩, rfl⟩
  have hlen := hperm.length_eq
  rw [List.length_map, List.length_map, (perm_orderBy _ _).length_eq, hpurchases,
    filter_singleton, filter_singleton, if_pos (by rw [hdescription]; exact ⟨hsearched, hfound⟩),
    if_neg (by rw [hdescription]; exact fun h => hnot h.2)] at hlen
  exact absurd hlen (by decide)

/-- **Searches find what contains the text** of exactly those queries in
which no character means anything to the server. The condition is on the
query only: for each query outside it there is a database in which the
search is wrong. -/
theorem search_exact_iff [Lowercase.Characterwise] (query : String) :
    (∀ (db : Db) (caller : Caller), db.FindsExactly caller query
        ∧ (query ≠ "" → db.ListsExactly caller query))
      ↔ IsPlain query := by
  constructor
  · intro hall
    refine ⟨fun c hc hspecial => ?_, ?_⟩
    · obtain ⟨s, hfound, hnot⟩ := exists_ilike_not_contains hc hspecial
      exact not_findsExactly_shelf hfound hnot (hall (shelf s) ⟨1, false⟩).1
    · by_contra hsendable
      obtain ⟨l, hl, -⟩ := (hall Db.empty ⟨1, false⟩).1
      rw [Db.searchProducts_of_not_isSendable _ _ hsendable] at hl
      exact absurd hl (by simp)
  · intro hplain db caller
    exact ⟨db.findsExactly_of_isPlain caller hplain, db.listsExactly_of_isPlain caller hplain⟩

end Search

section Examples

local instance asciiLowercaseOfProductSearch : Lowercase := asciiLowercase

/-- A letter of ASCII is lowered to one that is lower, and any other
character to itself. -/
theorem toLower_cases (c : Char) : c.toLower = c ∨ c.toLower.isLower = true := by
  unfold Char.toLower
  split
  · next h =>
    obtain ⟨hge, hle⟩ := h
    refine .inr ?_
    show (decide (c.val + ('a'.val - 'A'.val) ≥ 'a'.val)
      && decide (c.val + ('a'.val - 'A'.val) ≤ 'z'.val)) = true
    simp only [UInt32.le_iff_toNat_le, ge_iff_le, Bool.and_eq_true, decide_eq_true_eq,
      UInt32.toNat_add] at hge hle ⊢
    have hA : 'A'.val.toNat = 65 := rfl
    have hZ : 'Z'.val.toNat = 90 := rfl
    have ha : 'a'.val.toNat = 97 := rfl
    have hz : 'z'.val.toNat = 122 := rfl
    have hd : ('a'.val - 'A'.val).toNat = 32 := rfl
    omega
  · exact .inl rfl

theorem toLower_of_isLower {c : Char} (h : c.isLower = true) : c.toLower = c := by
  unfold Char.toLower
  refine dif_neg fun hupper => ?_
  have hlower : (decide (c.val ≥ 'a'.val) && decide (c.val ≤ 'z'.val)) = true := h
  rw [Bool.and_eq_true, decide_eq_true_eq] at hlower
  exact absurd (UInt32.le_trans hlower.1 hupper.2) (by decide)

/-- A server that lowers the letters of ASCII does so character by
character. With this the hypotheses about the server are satisfiable. -/
theorem characterwise_asciiLowercase : Lowercase.Characterwise where
  lower_append := fun _ _ => List.map_append
  lower_special := by
    rintro c (rfl | rfl | rfl) <;> rfl
  eq_of_special := by
    intro c d hd hmem
    obtain rfl := List.mem_singleton.mp hmem
    obtain heq | hlower := toLower_cases c
    · exact heq.symm
    · rcases hd with h | h | h <;> exact absurd (h ▸ hlower) (by decide)
  lower_of_mem_lower := by
    intro l c hc
    obtain ⟨d, -, rfl⟩ := List.mem_map.mp hc
    refine congrArg (fun c => [c]) ?_
    obtain heq | hlower := toLower_cases d
    · exact congrArg Char.toLower heq
    · exact toLower_of_isLower hlower

/-- Both searches, for a word and for a text with a wildcard. -/
theorem search_exact_iff_example :
    (shelf "Whole Milk").FindsExactly ⟨1, false⟩ "milk"
      ∧ (shelf "Whole Milk").ListsExactly ⟨1, false⟩ "milk" :=
  have _ := characterwise_asciiLowercase
  ((search_exact_iff "milk").mpr (by decide) (shelf "Whole Milk") ⟨1, false⟩).imp id
    fun h => h (by decide)

/-- A search for products at 50 % finds a pack of 500 g. -/
theorem search_products_percent : ¬ (shelf "500 g Pasta").FindsExactly ⟨1, false⟩ "50%" :=
  have hfound : ilike "500 g Pasta" (searchPattern "50%") = true := by decide +kernel
  have hnot : ¬ ContainsText "500 g Pasta" "50%" := by decide +kernel
  not_findsExactly_shelf hfound hnot

end Examples

end VisionBill
