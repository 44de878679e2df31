import Mathlib.Data.List.Basic
import Mathlib.Tactic.Common

/-!
# Tables with named columns

A row gives every column a value or `NULL`.  Statements name their columns, and the values come as
a list of parameters in the same order: `INSERT INTO t (...) VALUES (?, ...)`,
`UPDATE t SET c = ?, ... WHERE k = ?` with the parameter of the condition last, and
`SELECT * FROM t WHERE k = ?`, of which one row is fetched.  A statement that is refused gives
`none`.

A table that holds the rows of some records (`rows.map rowOf`) holds such rows after a statement
(`insert_map`, `update_map`), provided that the columns and the parameters of the statement are
aligned: `newRow` and `setRow` have to give the row of a record.  `map_change` and `find?_change`
are the rules for what an update leaves alone and what is found after it.
-/

namespace MarketplacePipeline.Sql

variable {C V R : Type*} [DecidableEq C] [DecidableEq V]

/-- A row; `none` is `NULL`. -/
abbrev Row (C V : Type*) := C → Option V

/-- The constraints of a table. -/
structure Schema (C : Type*) where
  /-- `PRIMARY KEY`. -/
  key : C
  /-- `NOT NULL`. -/
  notNull : List C

/-- The parameter for a column, if the statement names the column. -/
def paramOf (columns : List C) (params : List (Option V)) (c : C) : Option (Option V) :=
  (columns.zip params).lookup c

/-- The row that an `INSERT` makes, with `NULL` in the columns that it does not name. -/
def newRow (columns : List C) (params : List (Option V)) : Row C V :=
  fun c => (paramOf columns params c).join

/-- A row after `SET`. -/
def setRow (columns : List C) (params : List (Option V)) (row : Row C V) : Row C V :=
  fun c => (paramOf columns params c).getD (row c)

/-- The condition `c = ?`; nothing is equal to `NULL`. -/
def equals (c : C) (value : Option V) (row : Row C V) : Bool :=
  value.isSome && decide (row c = value)

/-- The row meets the `NOT NULL` constraints. -/
def Schema.admits (schema : Schema C) (row : Row C V) : Bool :=
  schema.notNull.all fun c => (row c).isSome

/-- `INSERT INTO t (columns) VALUES (?, ...)`. -/
def insert (schema : Schema C) (columns : List C) (params : List (Option V))
    (rows : List (Row C V)) : Option (List (Row C V)) :=
  let row := newRow columns params
  if columns.length = params.length ∧ schema.admits row = true ∧
      rows.any (equals schema.key (row schema.key)) = false then
    some (rows ++ [row])
  else none

/-- `UPDATE t SET c = ?, ... WHERE k = ?`, for columns other than the primary key. -/
def update (schema : Schema C) (columns : List C) (k : C) (params : List (Option V))
    (rows : List (Row C V)) : Option (List (Row C V)) :=
  let value := params[columns.length]?.join
  let rows' := rows.map fun row => if equals k value row then setRow columns params row else row
  if params.length = columns.length + 1 ∧ rows'.all schema.admits = true then some rows' else none

/-- `SELECT * FROM t WHERE k = ?`, of which one row is fetched. -/
def select (k : C) (value : Option V) (rows : List (Row C V)) : Option (Row C V) :=
  rows.find? (equals k value)

/-! ### Rows of records -/

section Records

variable {schema : Schema C} {columns : List C} {params : List (Option V)} {rowOf : R → Row C V}

/-- An `INSERT` that is aligned adds the row of the record, unless its key is taken. -/
theorem insert_map {record : R} (hlength : columns.length = params.length)
    (hrow : newRow columns params = rowOf record) (hadmits : schema.admits (rowOf record) = true)
    (records : List R) :
    insert schema columns params (records.map rowOf) =
      if records.any (fun other => equals schema.key (rowOf record schema.key) (rowOf other)) then
        none
      else some ((records ++ [record]).map rowOf) := by
  unfold insert
  dsimp only
  rw [hrow, hadmits, List.any_map, List.map_append, List.map_singleton]
  by_cases htaken : (records.any fun other =>
      equals schema.key (rowOf record schema.key) (rowOf other)) = true
  · rw [if_pos htaken, if_neg]
    rintro ⟨-, -, hfree⟩
    exact absurd (htaken.symm.trans hfree) (by simp)
  · rw [if_neg htaken, if_pos]
    exact ⟨hlength, rfl, by simpa using htaken⟩

/-- An `UPDATE` that is aligned changes the records under the key. -/
theorem update_map {k : C} {change : R → R} (hlength : params.length = columns.length + 1)
    (hrow : ∀ record, setRow columns params (rowOf record) = rowOf (change record))
    (hadmits : ∀ record, schema.admits (rowOf record) = true) (records : List R) :
    update schema columns k params (records.map rowOf) =
      some ((records.map fun record =>
        if equals k params[columns.length]?.join (rowOf record) then change record
        else record).map rowOf) := by
  have hrows : (records.map rowOf).map (fun row =>
      if equals k params[columns.length]?.join row then setRow columns params row else row) =
      (records.map fun record =>
        if equals k params[columns.length]?.join (rowOf record) then change record
        else record).map rowOf := by
    rw [List.map_map, List.map_map]
    apply List.map_congr_left
    intro record _
    rw [Function.comp_apply, Function.comp_apply, hrow, apply_ite rowOf]
  unfold update
  dsimp only
  rw [hrows, if_pos]
  exact ⟨hlength, by simp [hadmits]⟩

omit [DecidableEq C] in
theorem select_map (k : C) (value : Option V) (records : List R) :
    select k value (records.map rowOf) =
      (records.find? fun record => equals k value (rowOf record)).map rowOf := by
  unfold select
  rw [List.find?_map]
  rfl

end Records

/-! ### Changes of some rows -/

/-- What a change leaves alone stays the same in every row. -/
theorem map_change {K : Type*} (f : R → K) (change : R → R) (hf : ∀ row, f (change row) = f row)
    (p : R → Prop) [DecidablePred p] (rows : List R) :
    (rows.map fun row => if p row then change row else row).map f = rows.map f := by
  rw [List.map_map]
  apply List.map_congr_left
  intro row _
  rw [Function.comp_apply]
  split_ifs
  · exact hf row
  · rfl

/-- What a lookup by key finds after the rows under one key were changed. -/
theorem find?_change {K : Type*} [DecidableEq K] (key : R → K) (change : R → R)
    (hkey : ∀ row, key (change row) = key row) (k k' : K) (rows : List R) :
    (rows.map fun row => if key row = k' then change row else row).find? (fun row => key row = k) =
      if k = k' then (rows.find? fun row => key row = k).map change
      else rows.find? fun row => key row = k := by
  rw [List.find?_map]
  -- a change leaves the key alone, so that the same row is found
  have hkeys : ((fun row : R => decide (key row = k)) ∘
      fun row => if key row = k' then change row else row) = fun row => decide (key row = k) := by
    funext row
    rw [Function.comp_apply]
    split_ifs
    · rw [hkey]
    · rfl
  rw [hkeys]
  cases hrow : rows.find? fun row => key row = k with
  | none => simp
  | some row =>
    have hk : key row = k := by simpa using List.find?_some hrow
    rw [Option.map_some, Option.map_some, hk]
    split_ifs <;> rfl

end MarketplacePipeline.Sql
