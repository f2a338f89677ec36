import JumpscaleX.Library.UniqueMap
import JumpscaleX.Library.Stateful
import JumpscaleX.JSXObject

/-!
# The index of a model

The SQL table behind a model and the statements that the generated index class
sends to it.  A table cannot hold two rows that share a value in a unique
column, and its rows have declared columns only.
-/

namespace JumpscaleX

open Fallible

structure Column where
  name : String
  unique : Bool
  deriving DecidableEq

/-- A row without its id. -/
structure Row where
  nid : Nat
  cols : List (String × Cell)
  deriving DecidableEq

def Row.cell (row : Row) (name : String) : Option Cell :=
  (row.cols.find? (fun col => col.1 = name)).map Prod.snd

/-- Two rows have the same value in a unique column.  Null is equal to
nothing. -/
def Row.Clash (columns : List Column) (row other : Row) : Prop :=
  ∃ column ∈ columns, column.unique = true ∧
    row.cell column.name = other.cell column.name ∧
    row.cell column.name ≠ none ∧ row.cell column.name ≠ some .null

instance (columns : List Column) : DecidableRel (Row.Clash columns) :=
  fun _ _ => inferInstanceAs (Decidable (∃ column ∈ columns, _))

instance (columns : List Column) : Std.Symm (Row.Clash columns) where
  symm := by
    rintro row other ⟨column, member, unique, same, present, notNull⟩
    exact ⟨column, member, unique, same.symm, same ▸ present, same ▸ notNull⟩

structure Table where
  columns : List Column
  rows : UniqueMap Nat Row (Row.Clash columns)

/-- A row has every column and none of its values is null. -/
def Row.Complete (columns : List Column) (row : Row) : Prop :=
  ∀ column ∈ columns,
    row.cell column.name ≠ none ∧ row.cell column.name ≠ some .null

instance (columns : List Column) (row : Row) :
    Decidable (Row.Complete columns row) :=
  inferInstanceAs (Decidable (∀ column ∈ columns, _))

namespace Table

def create (columns : List Column) : Table :=
  ⟨columns, .empty⟩

def lookup (table : Table) (id : Nat) : Option Row :=
  table.rows.lookup id

/-- The first column that is null in a row. -/
def nullColumn (table : Table) (row : Row) : String :=
  ((table.columns.find? (fun column =>
    decide (row.cell column.name = none ∨
      row.cell column.name = some .null))).map Column.name).getD ""

/-- The first unique column in which a row clashes with another one. -/
def clashColumn (table : Table) (id : Nat) (row : Row) : String :=
  ((table.columns.find? (fun column =>
    decide (∃ entry ∈ table.rows.map.entries, entry.1 ≠ id ∧
      Row.Clash [column] row entry.2))).map Column.name).getD ""

/-- Check the constraints of the table and put the row. -/
def putRow (table : Table) (id : Nat) (row : Row) : Except Exn Table := do
  ensure (∀ col ∈ row.cols, ∃ column ∈ table.columns, column.name = col.1)
    (.operationalError "no such column")
  ensure (row.Complete table.columns)
    (.integrityError (.notNull (table.nullColumn row)))
  if free : table.rows.Free id row then
    return { table with rows := table.rows.put id row free }
  else
    throw (.integrityError (.unique (table.clashColumn id row)))

/-- `get_or_none`, then `create` or `update`.  An update keeps the columns
that it does not set. -/
def set (table : Table) (id : Nat) (row : Row) : Except Exn Table :=
  match table.lookup id with
  | none => table.putRow id row
  | some present =>
      table.putRow id { row with
        cols := row.cols ++ present.cols.filter (fun col =>
          (row.cell col.1).isNone) }

def deleteById (table : Table) (id : Nat) : Table :=
  { table with rows := table.rows.erase id }

def deleteByNid (table : Table) (nid : Nat) : Table :=
  { table with rows := table.rows.filter (fun _ row => decide (row.nid ≠ nid)) }

def deleteByCell (table : Table) (name : String) (cell : Cell) : Table :=
  { table with
    rows := table.rows.filter (fun _ row =>
      decide (row.cell name ≠ some cell ∨ cell = .null)) }

end Table

/-! ## The generated index class -/

/-- The value that the index reads for a column.  For a number of a sub-object
it asks the object for an attribute that is called after the column. -/
def JSXObject.columnValue (obj : JSXObject) (field : IndexField) :
    Except Exn PyVal :=
  match field.attr with
  | none => obj.getattr field.name
  | some (prop, sub) =>
      if field.jumpscaletype.NAME = "numeric" then
        match obj.schema.property? field.name with
        | some own =>
            if own.jumpscaletype.NAME = "numeric" then obj.readProp own
            else obj.getattr (field.name ++ "_usd")
        | none => obj.getattr (field.name ++ "_usd")
      else do
        match ← obj.getattr prop with
        | .jsx _ props =>
            match props.find? (fun item => item.1 = sub) with
            | some item => return item.2
            | none => throw (.attributeError sub)
        | _ => throw (.attributeError sub)

/-- A pair of the dict that `_sql_index_set` sends. -/
def JSXObject.indexColumn (obj : JSXObject) (field : IndexField) :
    Except Exn (String × Cell) := do
  let value ← obj.columnValue field
  let cell ← field.jumpscaletype.columnValue value
  return (field.name, cell)

/-- The row of an object. -/
def JSXObject.indexRow (obj : JSXObject) (fields : List IndexField) :
    Except Exn Row := do
  let cols ← fields.mapM obj.indexColumn
  return { nid := obj.nid, cols := cols }

/-- Two objects that read the same have the same row. -/
theorem JSXObject.indexRow_congr {obj other : JSXObject}
    (schema : obj.schema = other.schema) (nid : obj.nid = other.nid)
    (reads : ∀ prop ∈ obj.schema.properties,
      obj.readProp prop = other.readProp prop)
    (fields : List IndexField) : obj.indexRow fields = other.indexRow fields := by
  have getattr : ∀ name, obj.getattr name = other.getattr name := by
    intro name
    unfold JSXObject.getattr
    rw [← schema]
    cases found : obj.schema.property? name with
    | none => rfl
    | some prop => exact reads prop (Schema.property?_mem found).1
  have own : ∀ name, obj.schema.property? name = other.schema.property? name := by
    intro name
    rw [schema]
  have columns : obj.indexColumn = other.indexColumn := by
    funext field
    have value : obj.columnValue field = other.columnValue field := by
      simp only [JSXObject.columnValue, getattr, ← own]
      cases found : obj.schema.property? field.name with
      | none => rfl
      | some prop => simp only [reads prop (Schema.property?_mem found).1]
    simp only [JSXObject.indexColumn, value]
  simp only [JSXObject.indexRow, columns, nid]

private theorem mapM_indexColumn_names {obj : JSXObject}
    {fields : List IndexField} {cols : List (String × Cell)}
    (done : fields.mapM obj.indexColumn = .ok cols) :
    cols.map Prod.fst = fields.map IndexField.name := by
  induction fields generalizing cols with
  | nil =>
      simp only [List.mapM_nil, pure_eq_ok_iff] at done
      simp [← done]
  | cons field rest induction =>
      simp only [List.mapM_cons, bind_eq_ok_iff, pure_eq_ok_iff] at done
      obtain ⟨col, first, others, later, rfl⟩ := done
      simp only [JSXObject.indexColumn, bind_eq_ok_iff, pure_eq_ok_iff] at first
      obtain ⟨_, _, _, _, rfl⟩ := first
      simp [induction later]

/-- A row has one value for every column of the index, in the same order. -/
theorem JSXObject.indexRow_names {obj : JSXObject} {fields : List IndexField}
    {row : Row} (done : obj.indexRow fields = .ok row) :
    row.cols.map Prod.fst = fields.map IndexField.name ∧ row.nid = obj.nid := by
  simp only [JSXObject.indexRow, bind_eq_ok_iff, pure_eq_ok_iff] at done
  obtain ⟨cols, columns, rfl⟩ := done
  exact ⟨mapM_indexColumn_names columns, rfl⟩

/-! ## Facts about tables -/

namespace Table

@[simp] theorem lookup_create (columns : List Column) (id : Nat) :
    (create columns).lookup id = none := rfl

theorem putRow_eq_ok {table reached : Table} {id : Nat} {row : Row}
    (done : table.putRow id row = .ok reached) :
    reached.columns = table.columns ∧ row.Complete table.columns ∧
      ∀ other, reached.lookup other =
        if other = id then some row else table.lookup other := by
  simp only [putRow, bind_eq_ok_iff, ensure_eq_ok_iff, exists_const] at done
  obtain ⟨_, complete, done⟩ := done
  split at done
  · rename_i free
    simp only [pure_eq_ok_iff] at done
    subst done
    refine ⟨rfl, complete, ?_⟩
    intro other
    exact UniqueMap.lookup_put _ id other row free
  · cases done

/-- A row that sets every column of the present one replaces it. -/
theorem set_eq_putRow {table : Table} {id : Nat} {row : Row}
    (covers : ∀ present, table.lookup id = some present →
      present.cols.map Prod.fst = row.cols.map Prod.fst) :
    table.set id row = table.putRow id row := by
  unfold set
  cases found : table.lookup id with
  | none => rfl
  | some present =>
      have names := covers present found
      have nothing : present.cols.filter (fun col =>
          (row.cell col.1).isNone) = [] := by
        rw [List.filter_eq_nil_iff]
        intro col member
        have named : col.1 ∈ row.cols.map Prod.fst := by
          rw [← names]
          exact List.mem_map.mpr ⟨col, member, rfl⟩
        obtain ⟨other, otherMember, same⟩ := List.mem_map.mp named
        simp only [Row.cell, Option.isNone_map, Option.isNone_iff_eq_none,
          List.find?_eq_none, decide_eq_true_eq]
        intro absent
        exact absent other otherMember same
      simp only [nothing, List.append_nil]

theorem lookup_deleteById (table : Table) (id other : Nat) :
    (table.deleteById id).lookup other =
      if other = id then none else table.lookup other :=
  UniqueMap.lookup_erase table.rows id other

theorem lookup_deleteByNid_eq_some_iff {table : Table} {nid id : Nat}
    {row : Row} :
    (table.deleteByNid nid).lookup id = some row ↔
      table.lookup id = some row ∧ row.nid ≠ nid :=
  UniqueMap.lookup_filter_eq_some_iff.trans (and_congr_right' decide_eq_true_iff)

theorem lookup_deleteByCell_eq_some_iff {table : Table} {name : String}
    {cell : Cell} {id : Nat} {row : Row} :
    (table.deleteByCell name cell).lookup id = some row ↔
      table.lookup id = some row ∧ (row.cell name ≠ some cell ∨ cell = .null) :=
  UniqueMap.lookup_filter_eq_some_iff.trans (and_congr_right' decide_eq_true_iff)

/-- Two rows of a table that share a value in a unique column are one row. -/
theorem eq_of_clash {table : Table} {id other : Nat} {row row' : Row}
    (found : table.lookup id = some row) (found' : table.lookup other = some row')
    (clash : row.Clash table.columns row') : id = other :=
  table.rows.apart found found' clash

end Table

end JumpscaleX
