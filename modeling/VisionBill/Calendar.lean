import Mathlib.Data.Int.Notation
import Mathlib.Data.Nat.Notation
import Mathlib.Order.Basic

/-!
# Dates and times

A Python `date` is a day of the proleptic Gregorian calendar between the
years 1 and 9999, and a `time` a time of day in microseconds.
`Time.fromisoformat` reads the ISO 8601 forms of a time; an offset from
UTC is checked, and dropped as the database driver drops it.

## One time, many texts

The column of a receipt's time has no text of its own: what is written is
parsed first, and what is read is printed by `isoformat`, which leaves the
microseconds out if there are none and never leaves the seconds out. So
`09:05` comes back as `09:05:00`, and whether a time comes back as it was
written depends on its form and not on its meaning.

A date has one text, so nothing is said of dates beyond their order and
the first day of their month. Points in time are integers: only their
order and the distance between two of them are ever used.
-/

namespace VisionBill

/-- `calendar.isleap`. -/
def isLeap (year : ℕ) : Bool :=
  year % 4 == 0 && (year % 100 != 0 || year % 400 == 0)

/-- The number of days of a month. -/
def daysInMonth (year month : ℕ) : ℕ :=
  if month = 2 then (if isLeap year then 29 else 28)
  else if month = 4 ∨ month = 6 ∨ month = 9 ∨ month = 11 then 30 else 31

/-- A day of the calendar. The bounds are those of the class, so that a
date that does not exist cannot be written down. -/
structure Date where
  year : ℕ
  month : ℕ
  day : ℕ
  valid : (1 ≤ year ∧ year ≤ 9999) ∧ (1 ≤ month ∧ month ≤ 12)
    ∧ 1 ≤ day ∧ day ≤ daysInMonth year month
  deriving DecidableEq

/-- Dates compare by year, month and day. -/
instance : LE Date := ⟨fun d e =>
  d.year < e.year ∨ d.year = e.year ∧ (d.month < e.month ∨ d.month = e.month ∧ d.day ≤ e.day)⟩

instance : LT Date := ⟨fun d e =>
  d.year < e.year ∨ d.year = e.year ∧ (d.month < e.month ∨ d.month = e.month ∧ d.day < e.day)⟩

instance (d e : Date) : Decidable (d ≤ e) :=
  inferInstanceAs (Decidable (_ ∨ _ ∧ (_ ∨ _ ∧ _)))

instance (d e : Date) : Decidable (d < e) :=
  inferInstanceAs (Decidable (_ ∨ _ ∧ (_ ∨ _ ∧ _)))

theorem Date.le_iff {d e : Date} : d ≤ e ↔
    d.year < e.year
      ∨ d.year = e.year ∧ (d.month < e.month ∨ d.month = e.month ∧ d.day ≤ e.day) := Iff.rfl

theorem Date.lt_iff {d e : Date} : d < e ↔
    d.year < e.year
      ∨ d.year = e.year ∧ (d.month < e.month ∨ d.month = e.month ∧ d.day < e.day) := Iff.rfl

theorem Date.ext {d e : Date} (hyear : d.year = e.year) (hmonth : d.month = e.month)
    (hday : d.day = e.day) : d = e := by
  cases d
  cases e
  cases hyear
  cases hmonth
  cases hday
  rfl

theorem one_le_daysInMonth (year month : ℕ) : 1 ≤ daysInMonth year month := by
  unfold daysInMonth
  split
  · split <;> decide
  · split <;> decide

/-- `date_trunc('month', d)::date`. -/
def Date.firstOfMonth (d : Date) : Date :=
  ⟨d.year, d.month, 1, d.valid.1, d.valid.2.1, Nat.le_refl 1, one_le_daysInMonth _ _⟩

/-- A time of day. Python's bounds are fields: a leap second is no
time. -/
structure Time where
  hour : ℕ
  minute : ℕ
  second : ℕ
  microsecond : ℕ
  valid : hour < 24 ∧ minute < 60 ∧ second < 60 ∧ microsecond < 1000000
  deriving DecidableEq

/-- A point in time, in microseconds, which is the resolution both of the
interpreter and of a `TIMESTAMPTZ` column. -/
abbrev Timestamp := ℤ

/-- `timedelta(seconds=n)`. -/
def seconds (n : ℤ) : ℤ := n * 1000000

/-! ## ISO 8601 times

`datetime.time.fromisoformat` reads more than what it prints: separators
may be left out, a fraction may have any number of digits, and an offset
may follow. It is modelled with all of that, since the time of a receipt
is whatever text the model answers. -/

/-- A decimal digit. -/
def digit? (c : Char) : Option ℕ :=
  if '0' ≤ c ∧ c ≤ '9' then some (c.toNat - '0'.toNat) else none

/-- A number of two digits, and what follows it. -/
def twoDigits : List Char → Option (ℕ × List Char)
  | c :: d :: l => do return (10 * (← digit? c) + (← digit? d), l)
  | _ => none

/-- A decimal mark and digits, of which six count; or nothing. Further
digits are dropped and not rounded, as `time.fromisoformat` does it. -/
def fraction? : List Char → Option ℕ
  | [] => some 0
  | mark :: l =>
    if (mark = '.' ∨ mark = ',') ∧ l ≠ [] then do
      let digits ← l.mapM digit?
      return (digits ++ List.replicate 6 0).take 6 |>.foldl (fun n d => 10 * n + d) 0
    else none

/-- Hours, with minutes, seconds and a fraction as far as they are given:
all separated by colons, or none. A fraction may follow seconds only. -/
def parseClock (l : List Char) : Option (ℕ × ℕ × ℕ × ℕ) := do
  let (hour, l) ← twoDigits l
  match l with
  | [] => return (hour, 0, 0, 0)
  | ':' :: l =>
    let (minute, l) ← twoDigits l
    match l with
    | [] => return (hour, minute, 0, 0)
    | ':' :: l =>
      let (second, l) ← twoDigits l
      return (hour, minute, second, ← fraction? l)
    | _ => none
  | l =>
    let (minute, l) ← twoDigits l
    match l with
    | [] => return (hour, minute, 0, 0)
    | l =>
      let (second, l) ← twoDigits l
      return (hour, minute, second, ← fraction? l)

/-- Whether a text is an offset from UTC of less than a day, or nothing.
Its value is not returned, since the column has no time zone. -/
def isZone : List Char → Bool
  | [] => true
  | ['Z'] => true
  | 'Z' :: _ => false
  | _ :: l =>
    match parseClock l with
    | some (hour, minute, second, _) => hour * 3600 + minute * 60 + second < 86400
    | none => false

/-- `Time.fromisoformat`; `none` is a `ValueError`. Digits are those of
ASCII, and a separator `T` may come first. -/
def Time.fromisoformat (s : String) : Option Time := do
  let l := match s.toList with
    | 'T' :: l => l
    | l => l
  let startsZone := fun c : Char => c = '+' ∨ c = '-' ∨ c = 'Z'
  let (hour, minute, second, microsecond) ← parseClock (l.takeWhile (¬ startsZone ·))
  if h : hour < 24 ∧ minute < 60 ∧ second < 60 ∧ microsecond < 1000000 then
    if isZone (l.dropWhile (¬ startsZone ·)) then some ⟨hour, minute, second, microsecond, h⟩
    else none
  else none

/-- A number with leading zeros. -/
def padded (width n : ℕ) : String :=
  String.ofList ((List.replicate width '0' ++ (Nat.repr n).toList).drop (Nat.repr n).length)

/-- `Time.isoformat`. Seconds are always printed, microseconds only if
there are any. -/
def Time.isoformat (t : Time) : String :=
  let clock := padded 2 t.hour ++ ":" ++ padded 2 t.minute ++ ":" ++ padded 2 t.second
  if t.microsecond = 0 then clock else clock ++ "." ++ padded 6 t.microsecond

example : (Time.fromisoformat "09:05").map Time.isoformat = some "09:05:00" := by decide

end VisionBill
