import Mathlib.Data.List.Induction

/-!
# Statements over named tables

A fragment of SQL: the rows of one of several tables that meet conditions
on columns and numbered parameters, with subqueries in `EXISTS`. Names are
resolved before anything is evaluated. A table that has an alias is known
by its alias only. A reference is looked up in the innermost `FROM` clause
first, and a column without a table must belong to exactly one table of
the innermost clause that has such a column.

Comparisons with `NULL` are not true, and the fragment has no negation, so
it is enough to say when a condition is true.

## Why names are resolved separately

A statement whose names do not resolve is refused before it reads a row,
so whether it runs at all is a matter of the schema and not of the data.
Hence there are two functions, one for the names (`Query.check`) and one
for the rows (`Query.rows`). The first is where a program that puts a
statement together from pieces of text can go wrong, and it does so on
every database alike.

## Parameters by position

A program that adds conditions one by one numbers their parameters and
collects the arguments in step (`Where.add`). What such a statement means
should not depend on the numbers: each condition sees its own argument,
whatever stands before and behind it (`Where.eval_filters`). That rests on
conditions being the same in their number (`Numbered`), which is shown by
going through them.

The rows come in no particular order. A statement that orders them is a
sorted selection, and sorting is not part of this fragment.
-/

namespace Sql

/-- A table in a `FROM` clause, with its alias if it has one. A table that
has an alias is hidden behind it, and its own name does not refer to it
any more. -/
structure Source where
  table : String
  correlation : Option String
  deriving DecidableEq

/-- The name by which a table in a `FROM` clause is known. -/
def Source.name (s : Source) : String := s.correlation.getD s.table

/-- A reference to a column, with or without the name of a table before
it. -/
structure Column where
  qualifier : Option String
  name : String
  deriving DecidableEq

/-- What is wrong with a reference. These are errors of the statement: no
row has been read when they occur. -/
inductive NameError
  | undefinedTable | undefinedColumn | ambiguousColumn
  deriving DecidableEq, Repr

/-- A `FROM` clause, with something that is known of each of its tables:
one of its rows, when a condition is evaluated. -/
abbrev Clause (ρ : Type) := List (Source × ρ)

/-- A condition. Parameters are numbered from one. Subqueries see the
sources of the query that they are in. -/
inductive Condition (Op : Type)
  /-- A column compared with a parameter. -/
  | compare (op : Op) (c : Column) (param : ℕ)
  /-- Two columns are equal. -/
  | equal (c d : Column)
  | and (p q : Condition Op)
  | or (p q : Condition Op)
  /-- `EXISTS (SELECT 1 FROM ... WHERE ...)`. -/
  | any (s : Source) (p : Condition Op)

/-- What tables there are, and what the operators mean. An operator
compares the value of a column with an argument; what values there are,
and how `NULL` is represented among them, is left to the schema. -/
structure Schema (ρ Value Op Arg : Type) where
  columns : String → List String
  value : ρ → String → Value
  /-- A value compared with an argument. -/
  compare : Op → Value → Arg → Bool
  /-- Two values that are known to be equal. -/
  equal : Value → Value → Bool

variable {ρ σ Value Op Arg : Type} (S : Schema ρ Value Op Arg) {c : Column}

/-- What a reference refers to, in clauses from the inside out. A table
that is named has to be in one of the clauses, and has to have the column.
A column alone goes to the innermost clause that has it, and must not have
two owners there. -/
def Column.find (columns : String → List String) (c : Column) :
    List (Clause ρ) → Except NameError ρ
  | [] => .error (if c.qualifier.isSome then .undefinedTable else .undefinedColumn)
  | clause :: outer =>
    match c.qualifier with
    | some name =>
      match clause.find? (fun s => s.1.name = name) with
      | some s => if c.name ∈ columns s.1.table then .ok s.2 else .error .undefinedColumn
      | none => c.find columns outer
    | none =>
      match clause.filter (fun s => c.name ∈ columns s.1.table) with
      | [] => c.find columns outer
      | [s] => .ok s.2
      | _ => .error .ambiguousColumn

/-- The names of a condition, resolved in clauses. A subquery adds a
clause inside, so it sees its own tables first and those around it after
that. -/
def Condition.check (columns : String → List String) :
    List (Clause Unit) → Condition Op → Except NameError Unit
  | clauses, compare _ c _ => c.find columns clauses
  | clauses, equal c d => do
    c.find columns clauses
    d.find columns clauses
  | clauses, and p q | clauses, or p q => do
    p.check columns clauses
    q.check columns clauses
  | clauses, any s p => p.check columns ([(s, ())] :: clauses)

/-- Whether a condition is true. It is asked of conditions whose names are
resolved; where one is not, or a parameter has no argument, it is not
true. -/
def Condition.eval (tables : String → List ρ) (args : List Arg) :
    List (Clause ρ) → Condition Op → Bool
  | clauses, compare op c i =>
    match c.find S.columns clauses, args[i - 1]? with
    | .ok row, some a => S.compare op (S.value row c.name) a
    | _, _ => false
  | clauses, equal c d =>
    match c.find S.columns clauses, d.find S.columns clauses with
    | .ok row, .ok row' => S.equal (S.value row c.name) (S.value row' d.name)
    | _, _ => false
  | clauses, and p q => p.eval tables args clauses && q.eval tables args clauses
  | clauses, or p q => p.eval tables args clauses || q.eval tables args clauses
  | clauses, any s p => (tables s.table).any fun row => p.eval tables args ([(s, row)] :: clauses)

/-- `SELECT target.* FROM sources WHERE conditions`. Order and limit are
not part of it: they do not change which rows are found. -/
structure Query (Op : Type) where
  sources : List Source
  target : String
  conditions : List (Condition Op)

namespace Query

/-- The names of a query, resolved. -/
def check (columns : String → List String) (q : Query Op) : Except NameError Unit := do
  if q.target ∉ q.sources.map Source.name then throw .undefinedTable
  q.conditions.forM (Condition.check columns [q.sources.map fun s => (s, ())])

/-- Rows for the tables of a `FROM` clause, in all combinations. -/
def clauses (tables : String → List ρ) : List Source → List (Clause ρ)
  | [] => [[]]
  | s :: l => (tables s.table).flatMap fun row => (clauses tables l).map ((s, row) :: ·)

/-- The rows that a query selects, in no particular order. -/
def rows (tables : String → List ρ) (args : List Arg) (q : Query Op) : List ρ :=
  ((clauses tables q.sources).filter fun clause =>
    q.conditions.all fun p => p.eval S tables args [clause]).filterMap fun clause =>
      (clause.find? fun s => s.1.name = q.target).map Prod.snd

end Query

/-- A condition with a parameter, and the argument that is meant for
it. -/
structure Filter (Op Arg : Type) where
  condition : ℕ → Condition Op
  arg : Arg

/-- Conditions, and the arguments for their parameters. They are collected
side by side, and a condition has to name the right one. -/
structure Where (Op Arg : Type) where
  conditions : List (Condition Op)
  args : List Arg

namespace Where

/-- The statement without conditions. -/
def empty : Where Op Arg := ⟨[], []⟩

/-- One more condition; its parameter gets the next number. -/
def add (w : Where Op Arg) (f : Filter Op Arg) : Where Op Arg :=
  ⟨w.conditions ++ [f.condition (w.args.length + 1)], w.args ++ [f.arg]⟩

/-- One more condition, if there is an argument for it. -/
def addFor {γ : Type} (w : Where Op Arg) (a : Option γ) (f : γ → Filter Op Arg) : Where Op Arg :=
  match a with
  | some a => w.add (f a)
  | none => w

end Where

/-! ## Names

A column is found in the sources of the query, or in those of the query
around it. A name that several sources have, or none, is an error of the
whole statement, whatever rows there are. -/

/-- A reference to a table that a clause has. -/
theorem Column.find_cons_of_find? {columns : String → List String} {clause : Clause ρ}
    {outer : List (Clause ρ)} {name : String} {s : Source × ρ} (hname : c.qualifier = some name)
    (hs : clause.find? (fun s => s.1.name = name) = some s) (hcolumn : c.name ∈ columns s.1.table) :
    c.find columns (clause :: outer) = .ok s.2 := by
  unfold find
  rw [hname]
  dsimp only
  rw [hs]
  exact if_pos hcolumn

/-- A column that only one table of a clause has. -/
theorem Column.find_cons_of_filter {columns : String → List String} {clause : Clause ρ}
    {outer : List (Clause ρ)} {s : Source × ρ} (hname : c.qualifier = none)
    (hs : clause.filter (fun s => c.name ∈ columns s.1.table) = [s]) :
    c.find columns (clause :: outer) = .ok s.2 := by
  unfold find
  rw [hname]
  dsimp only
  rw [hs]

/-- A table that no clause has. In particular this is so of a table that
has an alias there, if it is called by its own name. -/
theorem Column.find_undefinedTable {columns : String → List String} {clauses : List (Clause ρ)}
    {name : String} (hname : c.qualifier = some name)
    (h : ∀ clause ∈ clauses, ∀ s ∈ clause, s.1.name ≠ name) :
    c.find columns clauses = .error .undefinedTable := by
  induction clauses with
  | nil =>
    unfold find
    rw [hname]
    rfl
  | cons clause outer ih =>
    have hnone : clause.find? (fun s => s.1.name = name) = none :=
      List.find?_eq_none.mpr fun s hs => by simpa using h clause List.mem_cons_self s hs
    unfold find
    rw [hname]
    dsimp only
    rw [hnone]
    exact ih fun clause' hclause' => h clause' (List.mem_cons_of_mem _ hclause')

section Check

variable {columns : String → List String} {q : Query Op}

/-- Conditions that are resolved. -/
theorem checkAll_eq_ok {clauses : List (Clause Unit)} {l : List (Condition Op)}
    (h : ∀ p ∈ l, p.check columns clauses = .ok ()) :
    l.forM (Condition.check columns clauses) = .ok () := by
  induction l with
  | nil => rfl
  | cons p l ih =>
    show (p.check columns clauses >>= fun _ => l.forM (Condition.check columns clauses)) = .ok ()
    rw [h p List.mem_cons_self]
    exact ih fun p' hp' => h p' (List.mem_cons_of_mem p hp')

/-- A condition that is not resolved, after others that are. The first one
of its kind decides which error the server answers with. -/
theorem checkAll_eq_error {clauses : List (Clause Unit)} {l l' : List (Condition Op)}
    {p : Condition Op} {e : NameError} (h : ∀ p ∈ l, p.check columns clauses = .ok ())
    (hp : p.check columns clauses = .error e) :
    (l ++ p :: l').forM (Condition.check columns clauses) = .error e := by
  induction l with
  | nil =>
    show (p.check columns clauses >>= fun _ => l'.forM (Condition.check columns clauses)) = _
    rw [hp]
    rfl
  | cons p₁ l ih =>
    show (p₁.check columns clauses >>= fun _ =>
      (l ++ p :: l').forM (Condition.check columns clauses)) = _
    rw [h p₁ List.mem_cons_self]
    exact ih fun p' hp' => h p' (List.mem_cons_of_mem p₁ hp')

/-- A query whose names are resolved. -/
theorem Query.check_eq_ok (htarget : q.target ∈ q.sources.map Source.name)
    (h : ∀ p ∈ q.conditions, p.check columns [q.sources.map fun s => (s, ())] = .ok ()) :
    q.check columns = .ok () := by
  unfold check
  rw [if_neg (not_not.mpr htarget)]
  exact checkAll_eq_ok h

/-- A query of which one condition is not resolved, after others that are.
The error is that of the first such condition, and no row decides it. -/
theorem Query.check_eq_error {l l' : List (Condition Op)} {p : Condition Op} {e : NameError}
    (hconditions : q.conditions = l ++ p :: l') (htarget : q.target ∈ q.sources.map Source.name)
    (h : ∀ p ∈ l, p.check columns [q.sources.map fun s => (s, ())] = .ok ())
    (hp : p.check columns [q.sources.map fun s => (s, ())] = .error e) :
    q.check columns = .error e := by
  unfold check
  rw [if_neg (not_not.mpr htarget), hconditions]
  exact checkAll_eq_error h hp

end Check

/-! ## Numbered parameters

A condition names its argument by number, and the number is given when the
condition is added. So conditions that are added to a statement do not
disturb each other. -/

/-- Filters whose arguments have the numbers of their parameters. -/
def Where.filters : List (Filter Op Arg) → Where Op Arg := List.foldl add empty

section Where

variable {tables : String → List ρ} {clauses : List (Clause ρ)} {l : List (Filter Op Arg)}

/-- Whether a condition with its argument is true. -/
def Filter.holds (tables : String → List ρ) (clauses : List (Clause ρ)) (f : Filter Op Arg) : Bool :=
  (f.condition 1).eval S tables [f.arg] clauses

/-- Conditions that differ in the number of their parameter, and in
nothing else. A condition that takes an argument in several places takes
the same one everywhere. -/
inductive Numbered : (ℕ → Condition Op) → Prop
  | compare (op : Op) (c : Column) : Numbered (Condition.compare op c)
  | equal (c d : Column) : Numbered fun _ => Condition.equal c d
  | and {f g : ℕ → Condition Op} (hf : Numbered f) (hg : Numbered g) :
    Numbered fun n => (f n).and (g n)
  | or {f g : ℕ → Condition Op} (hf : Numbered f) (hg : Numbered g) :
    Numbered fun n => (f n).or (g n)
  | any {f : ℕ → Condition Op} (s : Source) (hf : Numbered f) :
    Numbered fun n => Condition.any s (f n)

/-- The number does not matter, where the argument is the same. -/
theorem Numbered.eval_eq {f : ℕ → Condition Op} (h : Numbered f) {args args' : List Arg} {n n' : ℕ}
    (hargs : args[n]? = args'[n']?) (clauses : List (Clause ρ)) :
    (f (n + 1)).eval S tables args clauses = (f (n' + 1)).eval S tables args' clauses := by
  induction h generalizing clauses with
  | compare op c =>
    simp only [Condition.eval, Nat.add_sub_cancel, hargs]
  | equal c d => rfl
  | and hf hg ihf ihg => exact congrArg₂ (· && ·) (ihf clauses) (ihg clauses)
  | or hf hg ihf ihg => exact congrArg₂ (· || ·) (ihf clauses) (ihg clauses)
  | any s hf ih =>
    exact congrArg (tables s.table).any (funext fun row => ih ([(s, row)] :: clauses))

/-- Filters, one after another. -/
theorem Where.add_filters (l : List (Filter Op Arg)) (f : Filter Op Arg) :
    (filters l).add f = filters (l ++ [f]) := by
  unfold filters
  rw [List.foldl_append]
  rfl

theorem Where.addFor_filters {γ : Type} (l : List (Filter Op Arg)) (a : Option γ)
    (f : γ → Filter Op Arg) : (filters l).addFor a f = filters (l ++ (a.map f).toList) := by
  cases a with
  | none => exact congrArg filters (List.append_nil l).symm
  | some a => exact add_filters l (f a)

theorem Where.args_filters (l : List (Filter Op Arg)) : (filters l).args = l.map Filter.arg := by
  induction l using List.reverseRecOn with
  | nil => rfl
  | append_singleton l f ih =>
    rw [← add_filters, List.map_append, ← ih]
    rfl

/-- Each filter keeps its number, so all conditions hold if each filter
does, whatever further arguments there are. These are for what follows the
conditions in a statement, such as its limit. -/
theorem Where.eval_filters (h : ∀ f ∈ l, Numbered f.condition) (more : List Arg) :
    ((filters l).conditions.all fun p => p.eval S tables ((filters l).args ++ more) clauses)
      = l.all (Filter.holds S tables clauses) := by
  induction l using List.reverseRecOn generalizing more with
  | nil => rfl
  | append_singleton l f ih =>
    have hf : (f.condition ((filters l).args.length + 1)).eval S tables
        ((filters l).args ++ ([f.arg] ++ more)) clauses = f.holds S tables clauses := by
      refine (h f (List.mem_append_right _ (List.mem_singleton.mpr rfl))).eval_eq S ?_ clauses
      simp
    rw [← add_filters, add]
    dsimp only
    rw [List.append_assoc, List.all_append, List.all_append,
      ih (fun f' hf' => h f' (List.mem_append_left _ hf')), List.all_cons, List.all_nil,
      List.all_cons, List.all_nil, hf]

/-- The conditions of filters are resolved if all of them are, with any
numbers. -/
theorem Where.forall_filters {P : Condition Op → Prop} (h : ∀ f ∈ l, ∀ n, P (f.condition n)) :
    ∀ p ∈ (filters l).conditions, P p := by
  induction l using List.reverseRecOn with
  | nil => exact fun p hp => absurd hp List.not_mem_nil
  | append_singleton l f ih =>
    rw [← add_filters]
    rintro p hp
    rcases List.mem_append.mp hp with hp | hp
    · exact ih (fun f' hf' => h f' (List.mem_append_left _ hf')) p hp
    · rw [List.mem_singleton.mp hp]
      exact h f (List.mem_append_right _ (List.mem_singleton.mpr rfl)) _

end Where

/-! ## Rows -/

section Rows

variable {tables : String → List ρ} {args : List Arg} {q : Query Op}

/-- The rows of one table that meet the conditions. For a single source
the product over the sources is the table itself. -/
theorem Query.rows_singleton (s : Source) (hsources : q.sources = [s]) (htarget : q.target = s.name) :
    q.rows S tables args = (tables s.table).filter fun row =>
      q.conditions.all fun p => p.eval S tables args [[(s, row)]] := by
  unfold rows
  rw [hsources, htarget]
  simp only [clauses, List.map_singleton]
  induction tables s.table with
  | nil => rfl
  | cons row l ih =>
    rw [List.flatMap_cons, List.singleton_append, List.filter_cons, List.filter_cons]
    split
    · rw [List.filterMap_cons_some (b := row) (by simp), ih]
    · exact ih

/-- The rows of a table that are selected with rows of another one. A row
comes as often as there are rows of the other table to go with it. -/
theorem Query.rows_pair (s s' : Source) (hsources : q.sources = [s, s'])
    (htarget : q.target = s.name) :
    q.rows S tables args = (tables s.table).flatMap fun row =>
      ((tables s'.table).filter fun row' => q.conditions.all fun p =>
        p.eval S tables args [[(s, row), (s', row')]]).map fun _ => row := by
  unfold rows
  rw [hsources, htarget]
  simp only [clauses, List.map_singleton]
  induction tables s.table with
  | nil => rfl
  | cons row l ih =>
    rw [List.flatMap_cons, List.filter_append, List.filterMap_append, ih, List.flatMap_cons]
    congr 1
    induction tables s'.table with
    | nil => rfl
    | cons row' l' ih' =>
      rw [List.flatMap_cons, List.singleton_append, List.map_cons, List.filter_cons,
        List.filter_cons]
      split
      · rw [List.filterMap_cons_some (b := row) (by simp), ih', List.map_cons]
      · exact ih'

end Rows

end Sql
