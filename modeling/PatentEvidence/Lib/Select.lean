/-
Queries over one table: `SELECT … WHERE column = value AND … ORDER BY …
LIMIT …`.

A query speaks of columns by name. The database looks every name up
before it reads a row, so whether a query can run depends on the table's
columns alone (`run_isOk_iff`): a name that is not there fails the query
on every content of the table, an empty one included.

How values compare is a parameter, and partial: values of different types
do not compare. A null satisfies no filter and sorts last.
-/
import Mathlib.Data.List.Sort
import PatentEvidence.Lib.Fallible

namespace PatentEvidence.Select

open Fallible

/-- A column: its name, and what a row holds in it, `none` for null. -/
structure Column (ρ ω : Type) where
  name : String
  cell : ρ → Option ω

inductive Direction
  | asc
  | desc

structure Query (ω : Type) where
  columns : List String
  filters : List (String × ω)
  orderBy : List (String × Direction)
  limit : Option Nat := none

inductive QueryError
  | undefinedColumn (name : String)
  deriving DecidableEq

/-- Every column a query speaks of. -/
def Query.names {ω : Type} (query : Query ω) : List String :=
  query.columns ++ query.filters.map Prod.fst ++ query.orderBy.map Prod.fst

variable {ρ ω : Type} (cmp : ω → ω → Option Ordering)
  (schema : List (Column ρ ω))

-- ============================================================= running

/-- The column of a name. -/
def resolve (name : String) : Except QueryError (ρ → Option ω) :=
  match schema.find? fun column => column.name = name with
  | some column => .ok column.cell
  | none => .error (.undefinedColumn name)

/-- `WHERE`. -/
def keeps (filters : List ((ρ → Option ω) × ω)) (row : ρ) : Bool :=
  filters.all fun (cell, value) =>
    match cell row with
    | some held => cmp held value = some .eq
    | none => false

def compareCells : Option ω → Option ω → Ordering
  | some a, some b => (cmp a b).getD .eq
  | some _, none => .lt
  | none, some _ => .gt
  | none, none => .eq

def Direction.apply : Direction → Ordering → Ordering
  | .asc, o => o
  | .desc, o => o.swap

/-- `ORDER BY`: the first column that tells the rows apart decides. -/
def compareRows (a b : ρ) :
    List ((ρ → Option ω) × Direction) → Ordering
  | [] => .eq
  | (cell, direction) :: order =>
      (direction.apply (compareCells cmp (cell a) (cell b))).then
        (compareRows a b order)

/-- A name the query puts something to, looked up. -/
def resolveWith {α : Type} (named : String × α) :
    Except QueryError ((ρ → Option ω) × α) := do
  return (← resolve schema named.1, named.2)

/-- The rows a query keeps, in its order and up to its limit. -/
def select (filters : List ((ρ → Option ω) × ω))
    (order : List ((ρ → Option ω) × Direction)) (limit : Option Nat)
    (rows : List ρ) : List ρ :=
  let sorted := (rows.filter (keeps cmp filters)).insertionSort fun a b =>
    compareRows cmp a b order ≠ .gt
  match limit with
  | some n => sorted.take n
  | none => sorted

/-- The rows a query answers. -/
def run (query : Query ω) (rows : List ρ) : Except QueryError (List ρ) := do
  let _ ← query.columns.mapM (resolve schema)
  let filters ← query.filters.mapM (resolveWith schema)
  let order ← query.orderBy.mapM (resolveWith schema)
  return select cmp filters order query.limit rows

@[simp] theorem compareCells_some (a b : ω) :
    compareCells cmp (some a) (some b) = (cmp a b).getD .eq := rfl

@[simp] theorem resolve_nil (name : String) :
    resolve ([] : List (Column ρ ω)) name = .error (.undefinedColumn name) := rfl

@[simp] theorem resolve_cons (column : Column ρ ω) (name : String) :
    resolve (column :: schema) name
      = if column.name = name then .ok column.cell else resolve schema name := by
  by_cases h : column.name = name
  · simp [resolve, h]
  · simp [resolve, h]

-- =========================================================== which can run

/-- A name resolves exactly if it is a column. -/
theorem resolve_isOk_iff {name : String} :
    (∃ cell, resolve schema name = .ok cell)
      ↔ name ∈ schema.map Column.name := by
  rw [resolve]
  cases hfind : schema.find? fun column => column.name = name with
  | some column =>
      have hname := List.find?_some hfind
      rw [decide_eq_true_eq] at hname
      exact iff_of_true ⟨_, rfl⟩
        (List.mem_map.mpr ⟨column, List.mem_of_find?_eq_some hfind, hname⟩)
  | none =>
      refine iff_of_false (fun ⟨_, h⟩ => nomatch h) fun hmem => ?_
      obtain ⟨column, hcolumn, hname⟩ := List.mem_map.mp hmem
      have := List.find?_eq_none.mp hfind column hcolumn
      exact this (decide_eq_true hname)

theorem resolveWith_eq_ok_iff {α : Type} {named : String × α}
    {resolved : (ρ → Option ω) × α} :
    resolveWith schema named = .ok resolved
      ↔ resolve schema named.1 = .ok resolved.1 ∧ named.2 = resolved.2 := by
  rw [resolveWith, bind_eq_ok]
  constructor
  · rintro ⟨cell, hcell, h⟩
    obtain rfl := pure_eq_ok.mp h
    exact ⟨hcell, rfl⟩
  · rintro ⟨hcell, hvalue⟩
    exact ⟨resolved.1, hcell, by rw [hvalue]; rfl⟩

theorem resolveWith_of_eq {α : Type} {name : String} {cell : ρ → Option ω}
    (h : resolve schema name = .ok cell) (value : α) :
    resolveWith schema (name, value) = .ok (cell, value) :=
  (resolveWith_eq_ok_iff schema).mpr ⟨h, rfl⟩

theorem resolveWith_isOk_iff {α : Type} {named : String × α} :
    (∃ resolved, resolveWith schema named = .ok resolved)
      ↔ named.1 ∈ schema.map Column.name := by
  rw [← resolve_isOk_iff]
  constructor
  · rintro ⟨resolved, h⟩
    exact ⟨resolved.1, ((resolveWith_eq_ok_iff schema).mp h).1⟩
  · rintro ⟨cell, hcell⟩
    exact ⟨(cell, named.2), (resolveWith_eq_ok_iff schema).mpr ⟨hcell, rfl⟩⟩

/-- A query runs exactly if all its names are columns; the rows do not
matter. -/
theorem run_isOk_iff {query : Query ω} {rows : List ρ} :
    (∃ answer, run cmp schema query rows = .ok answer)
      ↔ ∀ name ∈ query.names, name ∈ schema.map Column.name := by
  have hcolumns := exists_mapM_ok_iff (f := resolve schema) (l := query.columns)
  have hfilters :=
    exists_mapM_ok_iff (f := resolveWith schema) (l := query.filters)
  have horder :=
    exists_mapM_ok_iff (f := resolveWith schema) (l := query.orderBy)
  simp only [resolve_isOk_iff] at hcolumns
  simp only [resolveWith_isOk_iff] at hfilters horder
  have hnames : (∀ name ∈ query.names, name ∈ schema.map Column.name)
      ↔ (∀ name ∈ query.columns, name ∈ schema.map Column.name)
        ∧ (∀ named ∈ query.filters, named.1 ∈ schema.map Column.name)
        ∧ ∀ named ∈ query.orderBy, named.1 ∈ schema.map Column.name := by
    simp only [Query.names, List.append_assoc, List.forall_mem_append,
      List.forall_mem_map]
  rw [hnames, ← hcolumns, ← hfilters, ← horder]
  constructor
  · rintro ⟨answer, h⟩
    obtain ⟨columns, hcolumns, h⟩ := bind_eq_ok.mp h
    obtain ⟨filters, hfilters, h⟩ := bind_eq_ok.mp h
    obtain ⟨order, horder, -⟩ := bind_eq_ok.mp h
    exact ⟨⟨columns, hcolumns⟩, ⟨filters, hfilters⟩, order, horder⟩
  · rintro ⟨⟨columns, hcolumns⟩, ⟨filters, hfilters⟩, order, horder⟩
    rw [run, hcolumns, ok_bind, hfilters, ok_bind, horder, ok_bind]
    exact ⟨_, rfl⟩

/-- One name that is no column fails the query. -/
theorem run_eq_error {query : Query ω} (rows : List ρ) (name : String)
    (hname : name ∈ query.names) (hmissing : name ∉ schema.map Column.name) :
    ∃ missing,
      run cmp schema query rows = .error (.undefinedColumn missing) := by
  cases hrun : run cmp schema query rows with
  | ok answer =>
      have := (run_isOk_iff cmp schema).mp ⟨answer, hrun⟩
      exact absurd (this name hname) hmissing
  | error e =>
      cases e with
      | undefinedColumn missing => exact ⟨missing, rfl⟩

/-- A query whose names are looked up answers the rows it selects. -/
theorem run_eq_ok (query : Query ω) (rows : List ρ)
    {filters : List ((ρ → Option ω) × ω)}
    {order : List ((ρ → Option ω) × Direction)}
    (hcolumns : ∀ name ∈ query.columns, name ∈ schema.map Column.name)
    (hfilters : List.Forall₂
      (fun named resolved => resolveWith schema named = .ok resolved)
      query.filters filters)
    (horder : List.Forall₂
      (fun named resolved => resolveWith schema named = .ok resolved)
      query.orderBy order) :
    run cmp schema query rows
      = .ok (select cmp filters order query.limit rows) := by
  obtain ⟨columns, hcolumns⟩ := exists_mapM_ok_iff.mpr fun name hname =>
    (resolve_isOk_iff schema).mpr (hcolumns name hname)
  rw [run, hcolumns, ok_bind, mapM_eq_ok_iff.mpr hfilters, ok_bind,
    mapM_eq_ok_iff.mpr horder]
  rfl

/-- A query that keeps a row and is not limited to none answers one. -/
theorem select_ne_nil (filters : List ((ρ → Option ω) × ω))
    (order : List ((ρ → Option ω) × Direction)) (limit : Option Nat)
    {rows : List ρ} {row : ρ} (hrow : row ∈ rows)
    (hkeeps : keeps cmp filters row = true) (hlimit : limit ≠ some 0) :
    select cmp filters order limit rows ≠ [] := by
  have hsorted : (rows.filter (keeps cmp filters)).insertionSort
      (fun a b => compareRows cmp a b order ≠ .gt) ≠ [] := by
    have hmem := List.mem_filter.mpr ⟨hrow, hkeeps⟩
    exact List.ne_nil_of_mem ((List.mem_insertionSort _).mpr hmem)
  cases limit with
  | none => exact hsorted
  | some n =>
      rw [select, ne_eq, List.take_eq_nil_iff]
      exact not_or.mpr ⟨fun h => hlimit (congrArg some h), hsorted⟩

end PatentEvidence.Select
