import VisionBill.Lib.Table
import VisionBill.Receipt
import Mathlib.Data.List.Sort

/-!
# The database

The tables of the receipts, the images and the collections, as the
migrations leave them, and the conversions that a value undergoes on its
way into a column. A statement that raises has no effect, and a
transaction in which one raises is rolled back, so the operations return
the new database or an error.

The program writes amounts as `float(x)`; the driver sends the exact value
of that float, and the column rounds it (`amountColumn`). The tables of
users and of benchmarks are not part of the model.

## Columns

What is stored is not what was sent. An amount goes through a float and is
rounded to two places, a quantity to four; a time is parsed; a text must
have no NUL character and must fit its column, where spaces at the end may
be cut off. A column that does not take a value raises, and then the
statement has written nothing. All this is in one function for each type
of column, and the functions for whole rows are made of these
(`ReceiptFields.values`). Texts are either stored as they are or refused
(`eq_of_varchar_iff`), amounts are not.

## Rows

A table is a list of rows with distinct keys, and a query without
`ORDER BY` answers in the order of the list. Nothing can be concluded from
that order, and statements about such queries are up to permutation.
`ORDER BY` is a stable sort: rows that the order does not tell apart stay
as they are.

## Errors

An error is what the caller sees: the class of the exception, since
handlers are chosen by it, and its message where the source writes one.
What the server says of a violated constraint is not part of it.
-/

namespace VisionBill

section Database

variable [CaseFolding]

/-! ## Errors

What a statement raises. The texts of the server do not matter, except
where the program or a test looks at them, and so most errors are only
told apart by their class. -/

/-- What the database layer raises. A `ValueError` of the layer itself and
an error of the server are told apart, since the routes answer
differently. -/
inductive DbError
  /-- `ValueError`, with its message. -/
  | valueError (message : String)
  /-- The `ValueError` of `Time.fromisoformat` on a text. -/
  | isoformat (text : String)
  /-- A value that its column does not admit. -/
  | dataError
  /-- `UniqueViolationError`. -/
  | uniqueViolation
  /-- `ForeignKeyViolationError`. -/
  | foreignKeyViolation
  /-- `UndefinedTableError`. -/
  | undefinedTable
  /-- Any other failure of a statement, of the connection for instance. -/
  | failed
  deriving DecidableEq, Repr

omit [CaseFolding] in
/-- What a sequence of steps that may raise has done, when it has not. -/
theorem bind_eq_ok {ε α β : Type} {x : Except ε α} {f : α → Except ε β} {b : β} :
    x >>= f = .ok b ↔ ∃ a, x = .ok a ∧ f a = .ok b := by
  cases x with
  | error e => exact ⟨fun h => absurd h (by simp [bind, Except.bind]), fun ⟨_, h, _⟩ => by simp at h⟩
  | ok a => exact ⟨fun h => ⟨a, rfl, h⟩, fun ⟨_, h, hf⟩ => Except.ok.inj h ▸ hf⟩

omit [CaseFolding] in
/-- A step that does not raise. -/
theorem bind_of_ok {ε α β : Type} {x : Except ε α} {f : α → Except ε β} {a : α} (h : x = .ok a) :
    x >>= f = f a := by
  rw [h]
  rfl

omit [CaseFolding] in
theorem map_bind_except {ε α β γ : Type} {x : Except ε α} {f : α → Except ε β} {g : β → γ} :
    (x >>= f).map g = x >>= fun a => (f a).map g := by
  cases x <;> rfl

omit [CaseFolding] in
theorem map_eq_ok {ε α β : Type} {x : Except ε α} {f : α → β} {b : β} (h : x.map f = .ok b) :
    ∃ a, x = .ok a ∧ f a = b := by
  cases x with
  | error e => exact absurd h (by simp [Except.map])
  | ok a => exact ⟨a, rfl, Except.ok.inj h⟩

section MapM

variable {ε α β γ : Type} {f : α → Except ε β} {l : List α} {l' : List β}

omit [CaseFolding] in
/-- What a loop that may raise returns, where it returns: one value for
each element, in their order. The lists of rows that are written are all
made like this. -/
theorem mapM_eq_ok_iff : l.mapM f = .ok l' ↔ List.Forall₂ (fun a b => f a = .ok b) l l' := by
  induction l generalizing l' with
  | nil =>
    rw [List.mapM_nil, List.forall₂_nil_left_iff]
    exact ⟨fun h => (Except.ok.inj h).symm, fun h => h ▸ rfl⟩
  | cons a l ih =>
    rw [List.mapM_cons, List.forall₂_cons_left_iff, bind_eq_ok]
    constructor
    · rintro ⟨b, hb, h⟩
      obtain ⟨bs, hbs, h⟩ := bind_eq_ok.mp h
      exact ⟨b, bs, hb, ih.mp hbs, (Except.ok.inj h).symm⟩
    · rintro ⟨b, bs, hb, hbs, rfl⟩
      exact ⟨b, hb, (bind_eq_ok (x := l.mapM f)).mpr ⟨bs, ih.mpr hbs, rfl⟩⟩

omit [CaseFolding] in
theorem mapM_of_eq {g : α → β} (h : ∀ a ∈ l, f a = .ok (g a)) : l.mapM f = .ok (l.map g) := by
  rw [mapM_eq_ok_iff, List.forall₂_map_right_iff, List.forall₂_same]
  exact h

omit [CaseFolding] in
theorem mapM_isOk (h : ∀ a ∈ l, ∃ b, f a = .ok b) : ∃ l', l.mapM f = .ok l' := by
  induction l with
  | nil => exact ⟨[], rfl⟩
  | cons a l ih =>
    obtain ⟨b, hb⟩ := h a List.mem_cons_self
    obtain ⟨bs, hbs⟩ := ih fun a' ha' => h a' (List.mem_cons_of_mem a ha')
    refine ⟨b :: bs, ?_⟩
    rw [List.mapM_cons, hb]
    exact (bind_eq_ok (x := l.mapM f)).mpr ⟨bs, hbs, rfl⟩

omit [CaseFolding] in
theorem map_of_mapM {g : β → γ} {h : α → γ} (hf : ∀ a ∈ l, ∀ b, f a = .ok b → g b = h a)
    (hl : l.mapM f = .ok l') : l'.map g = l.map h := by
  have hforall := mapM_eq_ok_iff.mp hl
  clear hl
  induction hforall with
  | nil => rfl
  | cons hab _ ih =>
    rw [List.map_cons, List.map_cons, hf _ List.mem_cons_self _ hab,
      ih fun a ha => hf a (List.mem_cons_of_mem _ ha)]

end MapM

/-- A check of what an operation returns. It is decidable, for operations
on a concrete database. -/
def Returns {ε α : Type} (x : Except ε (Option α)) (p : α → Prop) : Prop :=
  match x with
  | .ok (some a) => p a
  | _ => False

instance {ε α : Type} (x : Except ε (Option α)) (p : α → Prop) [DecidablePred p] :
    Decidable (Returns x p) :=
  match x with
  | .ok (some a) => inferInstanceAs (Decidable (p a))
  | .ok none | .error _ => inferInstanceAs (Decidable False)

omit [CaseFolding] in
theorem exists_of_returns {ε α : Type} {x : Except ε (Option α)} {p : α → Prop}
    (h : Returns x p) : ∃ a, x = .ok (some a) ∧ p a := by
  unfold Returns at h
  split at h
  · exact ⟨_, rfl, h⟩
  · exact h.elim

/-- An error that is a `ValueError`. -/
def DbError.IsValueError : DbError → Prop
  | .valueError _ | .isoformat _ => True
  | _ => False

instance : DecidablePred DbError.IsValueError := fun e => by
  cases e <;> unfold DbError.IsValueError <;> infer_instance

/-! ## Rows

The tables of the service as they are after all migrations, each with the
columns that some modelled function reads or writes. -/

/-- A UUID. -/
abbrev UUID := ℕ

/-- The status of a receipt. The flag `verified` says the same a second
time, and other code reads the one or the other. -/
inductive ReceiptStatus
  | unverified | verified
  deriving DecidableEq, Repr

/-- Where the category of a line item comes from. A category that is saved
again as it was keeps its source. -/
inductive CategorySource
  | llm | history | user | unknown
  deriving DecidableEq, Repr

/-- The status of an image. Only pending and failed images, and those
whose claim has expired, are analysed by the worker. -/
inductive ImageStatus
  | pending | processing | analyzed | failed | timedOut | unreadable
  deriving DecidableEq, Repr

/-- The columns of a receipt that come from its contents. The others say
who owns it, where it comes from and what has become of it. -/
structure ReceiptValues where
  confidence : ℤ
  merchantName : String
  merchantAddress : Option String
  receiptNumber : Option String
  date : Date
  time : Option Time
  currency : String
  category : String
  subtotal : ℚ
  discountTotal : ℚ
  taxTotal : ℚ
  tip : Option ℚ
  total : ℚ
  paymentMethod : String
  deriving DecidableEq

/-- A row of `receipts`. The values that come from a receipt are a
structure of their own, since inserting and updating write all of them,
and nothing else writes any. -/
structure ReceiptRecord extends ReceiptValues where
  id : UUID
  status : ReceiptStatus
  verified : Bool
  imageId : Option UUID
  userId : Option UUID
  createdAt : Timestamp
  deriving DecidableEq

/-- A row of `line_items`. Only category codes are ever written, so the
column has the type of the categories here. The position is the place of
the item in its receipt. -/
structure LineItemRecord where
  id : UUID
  receiptId : UUID
  description : String
  originalDescription : String
  spendingCategory : SpendingCategory
  categorySource : CategorySource
  quantity : ℚ
  unitPrice : ℚ
  totalPrice : ℚ
  tags : List String
  position : ℕ
  deriving DecidableEq

/-- A row of `taxes`. The rate may be stored as a `NaN`. -/
structure TaxRecord where
  id : UUID
  receiptId : UUID
  name : String
  rate : Option PyDecimal
  amount : ℚ
  deriving DecidableEq

/-- `ImagePart`. A submission may have several photos, and all of them but
the first are stored as a list of such parts. -/
structure ImagePart where
  imagePath : String
  thumbnailPath : Option String := none
  originalFilename : Option String := none
  mediaType : Option String := none
  sizeBytes : Option ℕ := none
  deriving DecidableEq

/-- A row of `images`. It refers to the receipt that was made of it, and
the receipt refers to it; the two are written by different statements. -/
structure ImageRecord where
  id : UUID
  originalFilename : Option String
  mediaType : Option String
  sizeBytes : Option ℕ
  imagePath : Option String
  thumbnailPath : Option String
  status : ImageStatus
  error : Option String
  receiptId : Option UUID
  bypassReview : Bool
  userId : Option UUID
  createdAt : Timestamp
  analyzedAt : Option Timestamp
  processingAt : Option Timestamp
  additionalImages : List ImagePart
  modelId : Option String
  deriving DecidableEq

/-- A row of `collections`. A user has at most one active collection,
which new receipts are put into. -/
structure CollectionRecord where
  id : UUID
  userId : UUID
  name : String
  color : Option String
  startDate : Option Date
  endDate : Option Date
  active : Bool
  createdAt : Timestamp
  deriving DecidableEq

/-- A row of `receipt_collections`. It names no user, so a link may join
what belongs to different users. -/
structure Link where
  receiptId : UUID
  collectionId : UUID
  deriving DecidableEq

/-- The unique key of `item_category_aliases`. It begins with the user, so
that what one user has taught the program is not found for another one. -/
structure AliasKey where
  userId : UUID
  merchantKey : String
  descriptionKey : String
  deriving DecidableEq

/-- A row of `item_category_aliases`. It is what a user has said about an
item, for all receipts of the same shop. -/
structure AliasRecord extends AliasKey where
  category : String
  deriving DecidableEq

/-- The database. The rows of a table that a query does not sort come in
the order of the list. Foreign keys are not fields of the structure: which
of them hold in every reachable state is proved. -/
structure Db where
  receipts : Table ReceiptRecord ReceiptRecord.id
  lineItems : Table LineItemRecord LineItemRecord.id
  taxes : Table TaxRecord TaxRecord.id
  images : Table ImageRecord ImageRecord.id
  collections : Table CollectionRecord CollectionRecord.id
  links : Table Link id
  aliases : Table AliasRecord AliasRecord.toAliasKey
  tags : List String

/-- The database as the migrations create it. The tags are those that a
migration inserts, and everything else is empty. -/
def Db.empty : Db where
  receipts := .empty
  lineItems := .empty
  taxes := .empty
  images := .empty
  collections := .empty
  links := .empty
  aliases := .empty
  tags := ["alcohol", "beverage", "coffee", "food", "fresh", "household", "hygiene", "office",
    "electronics", "gift", "pet", "travel", "subscription", "service", "other", "deposit"]

/-! ## Columns

A column takes what fits into it: numbers are rounded to its digits, texts
may lose trailing spaces, and everything else is refused. What a function
writes has passed its column, so rows hold nothing else. -/

/-- `float(x)`, by its exact value; `none` is an infinity. Most amounts
are not floats, so the value is another one, and the column decides what
becomes of it. -/
def float (x : ℚ) : Option ℚ :=
  let r := Rounding.floatRound 2 53 (-1074) x
  if 2 ^ 1024 ≤ |r| then none else some r

/-- A `NUMERIC(p, s)` column. It rounds to its places, and refuses what
then has too many digits before the point. -/
def numericColumn (p s : ℕ) (x : ℚ) : Except DbError ℚ :=
  let r := Rounding.halfAway (1 / 10 ^ s) x
  if |r| < 10 ^ (p - s) then .ok r else .error .dataError

/-- A number written as a `float` into a `NUMERIC(p, s)` column, which
holds no infinity. -/
def floatColumn (p s : ℕ) (x : ℚ) : Except DbError ℚ :=
  match float x with
  | some r => numericColumn p s r
  | none => .error .dataError

/-- An amount of money. Two roundings follow each other, one to a float
and one to cents, so a half cent may go down where decimals would go
up. -/
def amountColumn (x : ℚ) : Except DbError ℚ := floatColumn 14 2 x

/-- A quantity. -/
def quantityColumn : PyFloat → Except DbError ℚ
  | .finite repr _ => floatColumn 10 4 repr
  | _ => .error .dataError

/-- A tax rate. -/
def rateColumn : PyFloat → Except DbError PyDecimal
  | .finite repr _ => (floatColumn 6 4 repr).map .finite
  | .nan => .ok .nan
  | .inf _ => .error .dataError

/-- A text that is sent to the server, which accepts no NUL character. -/
def text (s : String) : Except DbError String :=
  if (Char.ofNat 0) ∈ s.toList then .error .dataError else .ok s

omit [CaseFolding] in
theorem eq_of_text {s s' : String} (h : text s = .ok s') : s' = s := by
  unfold text at h
  split at h
  · exact absurd h (by simp)
  · exact (Except.ok.inj h).symm

omit [CaseFolding] in
/-- A column that changes nothing changes nothing in a list either. -/
theorem eq_of_mapM {α : Type} {column : α → Except DbError α}
    (hcolumn : ∀ {a a'}, column a = .ok a' → a' = a) {l l' : List α}
    (h : l.mapM column = .ok l') : l' = l := by
  induction l generalizing l' with
  | nil => exact (Except.ok.inj h).symm
  | cons a l ih =>
    rw [List.mapM_cons] at h
    obtain ⟨a', ha, h⟩ := bind_eq_ok.mp h
    obtain ⟨l'', hl, h⟩ := bind_eq_ok.mp h
    rw [← Except.ok.inj h, hcolumn ha, ih hl]

/-- A `VARCHAR(n)` column: what exceeds it must be spaces, which are
dropped. Everything else that is too long is an error. -/
def varchar (n : ℕ) (s : String) : Except DbError String := do
  let s ← text s
  if (s.toList.drop n).all (· = ' ') then .ok (String.ofList (s.toList.take n))
  else .error .dataError

omit [CaseFolding] in
/-- What a `VARCHAR(n)` column holds are the first `n` characters. -/
theorem toList_of_varchar {n : ℕ} {s s' : String} (h : varchar n s = .ok s') :
    s'.toList = s.toList.take n := by
  obtain ⟨t, ht, h₁⟩ := bind_eq_ok.mp h
  obtain rfl := eq_of_text ht
  split at h₁
  · rw [← Except.ok.inj h₁, String.toList_ofList]
  · exact absurd h₁ (by simp)

omit [CaseFolding] in
/-- A text that fits its column is not changed by it, and no other is
kept. So a text that comes back as it was sent is one of at most that many
characters. -/
theorem eq_of_varchar_iff {n : ℕ} {s s' : String} (h : varchar n s = .ok s') :
    s' = s ↔ s.toList.length ≤ n := by
  rw [← String.toList_inj, toList_of_varchar h, List.take_eq_self_iff]

/-- A column that may be `NULL`. -/
def nullable {α β : Type} (column : α → Except DbError β) :
    Option α → Except DbError (Option β)
  | none => .ok none
  | some a => (column a).map some

omit [CaseFolding] in
theorem eq_of_nullable_text {s s' : Option String} (h : nullable text s = .ok s') : s' = s := by
  cases s with
  | none => exact (Except.ok.inj h).symm
  | some s =>
    obtain ⟨t, ht, rfl⟩ := map_eq_ok h
    rw [eq_of_text ht]

/-- `_receipt_time_value`. An empty text is no time, and any other text
that is none raises a `ValueError`. -/
def receiptTimeValue : Option String → Except DbError (Option Time)
  | none => .ok none
  | some s =>
    if s = "" then .ok none
    else
      match Time.fromisoformat s with
      | some t => .ok (some t)
      | none => .error (.isoformat s)

/-- The fourteen values of a receipt, as they are stored. The time is
parsed before anything is sent, and the columns are filled from the first
to the last, so the first one that refuses its value is the error. -/
def ReceiptFields.values (r : ReceiptFields) : Except DbError ReceiptValues := do
  let time ← receiptTimeValue r.time
  let merchantName ← varchar 255 r.merchantName
  let merchantAddress ← nullable text r.merchantAddress
  let receiptNumber ← nullable (varchar 100) r.receiptNumber
  let currency ← varchar 10 r.currency
  let category ← varchar 50 r.category.text
  let subtotal ← amountColumn r.subtotal
  let discountTotal ← amountColumn r.discountTotal
  let taxTotal ← amountColumn r.taxTotal
  let tip ← nullable amountColumn r.tip
  let total ← amountColumn r.total
  let paymentMethod ← varchar 50 r.paymentMethod.text
  return {
    confidence := r.confidence
    merchantName := merchantName
    merchantAddress := merchantAddress
    receiptNumber := receiptNumber
    date := r.date
    time := time
    currency := currency
    category := category
    subtotal := subtotal
    discountTotal := discountTotal
    taxTotal := taxTotal
    tip := tip
    total := total
    paymentMethod := paymentMethod }

/-! ## Reading and writing rows

Who asks decides which rows are found. Most statements have the condition
written into them, and it is the same one everywhere. -/

/-- Who asks: a user, and whether that user may see everything. The user
is always known; see `get_current_user`. -/
structure Caller where
  userId : UUID
  canSeeAll : Bool
  deriving DecidableEq

/-- The owner condition that a statement gets for a caller. A caller who
may see everything gets none. -/
def Caller.Scope (caller : Caller) (owner : Option UUID) : Prop :=
  caller.canSeeAll = true ∨ owner = some caller.userId

instance (caller : Caller) (owner : Option UUID) : Decidable (caller.Scope owner) :=
  inferInstanceAs (Decidable (_ ∨ _))

/-- `ORDER BY`: rows sorted by a relation, equal ones in their order. -/
def orderBy {α : Type} (le : α → α → Prop) [DecidableRel le] (l : List α) : List α :=
  l.insertionSort le

end Database

theorem perm_orderBy {α : Type} (le : α → α → Prop) [DecidableRel le] (l : List α) :
    (orderBy le l).Perm l := List.perm_insertionSort le l

@[simp] theorem mem_orderBy {α : Type} {le : α → α → Prop} [DecidableRel le] {l : List α} {a : α} :
    a ∈ orderBy le l ↔ a ∈ l := (perm_orderBy le l).mem_iff

/-! ## A database with one receipt -/

/-- The row of a receipt without amounts. -/
def emptyRow (id owner : UUID) : ReceiptRecord where
  confidence := 90
  merchantName := "Shop"
  merchantAddress := none
  receiptNumber := none
  date := emptyFields.date
  time := none
  currency := "EUR"
  category := "grocery"
  subtotal := 0
  discountTotal := 0
  taxTotal := 0
  tip := none
  total := 0
  paymentMethod := "cash"
  id := id
  status := .unverified
  verified := false
  imageId := none
  userId := some owner
  createdAt := 0

/-- A database with one receipt, of one user. -/
def oneReceipt : Db := { Db.empty with receipts := ⟨[emptyRow 1 1], List.nodup_singleton _⟩ }

end VisionBill
