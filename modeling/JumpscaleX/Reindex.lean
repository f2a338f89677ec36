import JumpscaleX.Maintenance
import JumpscaleX.Reading

/-!
# Indexing a stored object

What `set` without the store does to the table of a model: the rows that have
the id or the name of the object go, and its row is put.
-/

namespace JumpscaleX

open Fallible Stateful

/-! ## The name column -/

namespace SchemaProperty

theorem subIndexField_name_ne (prop : SchemaProperty) (field : IndexField) :
    (subIndexField prop field).name ≠ "name" := by
  intro same
  have chars := congrArg String.toList same
  have underscore : '_' ∈ (subIndexField prop field).name.toList := by
    simp [subIndexField]
  rw [chars] at underscore
  revert underscore
  decide

/-- A column that is called `name` is the one of the property itself. -/
theorem mem_indexSqlList_name {field : IndexField} {props : List SchemaProperty}
    (member : field ∈ indexSqlList props) (named : field.name = "name") :
    ∃ prop ∈ props, prop.name = "name" ∧ field = prop.indexField := by
  induction props with
  | nil => cases member
  | cons head rest induction =>
      simp only [indexSqlList, List.mem_append] at member
      rcases member with here | later
      · obtain ⟨nr, name, jumpscaletype, index, unique, sub⟩ := head
        unfold indexSql at here
        split at here
        · have same := List.mem_singleton.mp here
          subst same
          exact ⟨_, List.mem_cons_self, named, rfl⟩
        · split at here
          · cases here
          · obtain ⟨inner, _, rfl⟩ := List.mem_map.mp here
            exact (subIndexField_name_ne _ inner named).elim
      · obtain ⟨prop, inRest, isName, same⟩ := induction later
        exact ⟨prop, List.mem_cons_of_mem _ inRest, isName, same⟩

end SchemaProperty

/-- The column `name` of a schema holds the property and is unique. -/
theorem Schema.nameField {schema : Schema} {field : IndexField}
    (member : field ∈ schema.propertiesIndexSql) (named : field.name = "name") :
    field.attr = none ∧ field.unique = true := by
  obtain ⟨prop, inProps, isName, rfl⟩ :=
    SchemaProperty.mem_indexSqlList_name member named
  exact ⟨rfl, schema.nameUnique prop inProps isName⟩

/-- The values of a row are the columns of the object, found by their names. -/
theorem JSXObject.indexRow_find {obj : JSXObject} {fields : List IndexField}
    {row : Row} (done : obj.indexRow fields = .ok row) {name : String}
    {field : IndexField}
    (found : fields.find? (fun field => field.name = name) = some field) :
    ∃ cell, obj.indexColumn field = .ok (name, cell) ∧ row.cell name = some cell := by
  simp only [indexRow, bind_eq_ok_iff, pure_eq_ok_iff] at done
  obtain ⟨cols, columns, rfl⟩ := done
  induction fields generalizing cols with
  | nil => cases found
  | cons head rest induction =>
      simp only [List.mapM_cons, bind_eq_ok_iff, pure_eq_ok_iff] at columns
      obtain ⟨col, first, others, later, rfl⟩ := columns
      have headName : col.1 = head.name := by
        simp only [indexColumn, bind_eq_ok_iff, pure_eq_ok_iff] at first
        obtain ⟨_, _, _, _, rfl⟩ := first
        rfl
      by_cases here : head.name = name
      · rw [List.find?_cons_of_pos (by simpa using here), Option.some.injEq] at found
        subst found
        refine ⟨col.2, ?_, ?_⟩
        · rw [first, ← here, ← headName]
        · simp [Row.cell, headName, here]
      · rw [List.find?_cons_of_neg (by simpa using here)] at found
        obtain ⟨cell, column, value⟩ := induction found others later
        refine ⟨cell, column, ?_⟩
        have different : ¬ col.1 = name := by rw [headName]; exact here
        simpa [Row.cell, different] using value

namespace BCDBModel

/-- The name by which `index.delete` looks for rows to delete, if any. -/
def DeletedName (obj : JSXObject) (model : Model) (name : Option Cell) : Prop :=
  if obj.schema.hasName then ∃ cell, nameCell model obj = .ok cell ∧ name = some cell
  else name = none

/-- The name that is looked for stands in the row of the object. -/
theorem deletedName_iff {obj : JSXObject} {schema : Schema} {row : Row}
    (done : obj.indexRow schema.propertiesIndexSql = .ok row)
    {name : Option Cell} :
    DeletedName obj schema.model name ↔
      if obj.schema.hasName then
        (∃ field ∈ schema.propertiesIndexSql, field.name = "name") ∧
          name = row.cell "name" ∧ name ≠ none
      else name = none := by
  unfold DeletedName
  split
  · unfold nameCell
    cases found : schema.propertiesIndexSql.find? (fun field => field.name = "name") with
    | none =>
        have absent := List.find?_eq_none.mp found
        have noColumn : ¬ ∃ field ∈ schema.propertiesIndexSql, field.name = "name" := by
          rintro ⟨field, member, named⟩
          exact absent field member (by simpa using named)
        simp [Schema.model, found, noColumn]
    | some field =>
        have member := List.mem_of_find?_eq_some found
        have named : field.name = "name" := by simpa using List.find?_some found
        have isColumn : ∃ field ∈ schema.propertiesIndexSql, field.name = "name" :=
          ⟨field, member, named⟩
        obtain ⟨cell, column, value⟩ := JSXObject.indexRow_find done found
        simp only [JSXObject.indexColumn, JSXObject.columnValue,
          (Schema.nameField member named).1, bind_eq_ok_iff, pure_eq_ok_iff,
          Prod.mk.injEq] at column
        obtain ⟨read, got, _, converted, _, rfl⟩ := column
        rw [named] at got
        simp only [Schema.model, found, bind_eq_ok_iff, got, Except.ok.injEq,
          exists_eq_left', converted, isColumn, true_and, value]
        constructor
        · rintro rfl
          exact ⟨rfl, by simp⟩
        · rintro ⟨rfl, _⟩
          rfl
  · exact Iff.rfl

end BCDBModel

/-! ## The table -/

theorem BCDB.writeTable_eq_ok_iff {bcdb reached : BCDB} {model : Model}
    {change : Table → Except Exn Table} :
    bcdb.writeTable model change = .ok reached ↔
      bcdb.indexReadonly = false ∧ ∃ table table',
        bcdb.tables model.key = some table ∧ change table = .ok table' ∧
        bcdb.setTable model.key table' = reached := by
  unfold BCDB.writeTable
  cases found : bcdb.tables model.key with
  | none => simp
  | some table =>
      simp only [bind_eq_ok_iff, ensure_eq_ok_iff, exists_const, pure_eq_ok_iff,
        Option.some.injEq, exists_eq_left', exists_and_left]

namespace Table

/-- What `index.delete` leaves of a table. -/
def without (table : Table) (id : Nat) (name : Option Cell) : Table :=
  match name with
  | none => table.deleteById id
  | some cell => (table.deleteById id).deleteByCell "name" cell

theorem without_columns (table : Table) (id : Nat) (name : Option Cell) :
    (table.without id name).columns = table.columns := by
  cases name <;> rfl

theorem lookup_without_eq_some_iff {table : Table} {id other : Nat}
    {name : Option Cell} {row : Row} :
    (table.without id name).lookup other = some row ↔
      other ≠ id ∧ table.lookup other = some row ∧
        ∀ cell, name = some cell → row.cell "name" ≠ some cell ∨ cell = .null := by
  have erased : (table.deleteById id).lookup other = some row ↔
      other ≠ id ∧ table.lookup other = some row := by
    rw [lookup_deleteById]
    by_cases same : other = id <;> simp [same]
  cases name with
  | none => simp [without, erased]
  | some cell => simp [without, lookup_deleteByCell_eq_some_iff, erased, and_assoc]

/-- A complete row with the columns of the table is put when it clashes with no
other row. -/
theorem putRow_of_free {table : Table} {id : Nat} {row : Row}
    (declared : row.cols.map Prod.fst = table.columns.map Column.name)
    (complete : row.Complete table.columns)
    (free : ∀ other row', table.lookup other = some row' → other ≠ id →
      ¬ row.Clash table.columns row') :
    ∃ reached, table.putRow id row = .ok reached := by
  have names : ∀ col ∈ row.cols, ∃ column ∈ table.columns, column.name = col.1 := by
    intro col member
    have named : col.1 ∈ table.columns.map Column.name := by
      rw [← declared]
      exact List.mem_map.mpr ⟨col, member, rfl⟩
    obtain ⟨column, isColumn, same⟩ := List.mem_map.mp named
    exact ⟨column, isColumn, same⟩
  have isFree : table.rows.Free id row := UniqueMap.free_iff.mpr free
  unfold putRow
  rw [ensure_of names, ensure_of complete]
  simp [isFree, bind, Except.bind, pure, Except.pure]

end Table

namespace BCDBModel

/-- `index.set` on an object with an id. -/
theorem indexSet_eq_ok_iff {url : Url} {session reached : Session} {value : PUnit}
    {id : Nat} (named : session.obj.id = some id) (notFirst : id ≠ 0) :
    indexSet url session = .ok value reached ↔
      session.obj.nid ≠ 0 ∧ session.bcdb.indexReadonly = false ∧
      ∃ model row table table', session.bcdb.models.find url = some model ∧
        session.obj.indexRow model.index = .ok row ∧
        session.bcdb.tables model.key = some table ∧
        table.set id row = .ok table' ∧
        { session with bcdb := session.bcdb.setTable model.key table' } =
          reached := by
  simp only [indexSet, get_seq, seq_eq_ok_iff, attempt_eq_ok_iff,
    ensure_eq_ok_iff, Session.onBcdb, onPart_eq_ok_iff, query_eq_ok_iff,
    advance_eq_ok_iff, BCDB.model_eq_ok_iff, BCDB.writeTable_eq_ok_iff, named,
    Option.getD_some]
  constructor
  · rintro ⟨_, _, ⟨_, rfl⟩, _, _, ⟨nid, rfl⟩, model, _, ⟨_, ⟨found, rfl⟩, rfl⟩,
      row, _, ⟨read, rfl⟩, _, ⟨writable, table, table', present, set, rfl⟩, rfl⟩
    exact ⟨nid, writable, model, row, table, table', found, read, present, set, rfl⟩
  · rintro ⟨nid, writable, model, row, table, table', found, read, present, set, rfl⟩
    exact ⟨(), _, ⟨notFirst, rfl⟩, (), _, ⟨nid, rfl⟩, model, _, ⟨_, ⟨found, rfl⟩, rfl⟩,
      row, _, ⟨read, rfl⟩, _, ⟨writable, table, table', present, set, rfl⟩, rfl⟩

theorem indexDeleteById_eq_ok_iff {url : Url} {id : Nat} {bcdb reached : BCDB}
    {value : PUnit} :
    indexDeleteById url id bcdb = .ok value reached ↔
      bcdb.indexReadonly = false ∧ ∃ model table,
        bcdb.models.find url = some model ∧ bcdb.tables model.key = some table ∧
        bcdb.setTable model.key (table.deleteById id) = reached := by
  simp only [indexDeleteById, advance_eq_ok_iff, bind_eq_ok_iff,
    BCDB.model_eq_ok_iff, BCDB.writeTable_eq_ok_iff, Except.ok.injEq]
  constructor
  · rintro ⟨model, found, writable, table, _, present, rfl, rfl⟩
    exact ⟨writable, model, table, found, present, rfl⟩
  · rintro ⟨writable, model, table, found, present, rfl⟩
    exact ⟨model, found, writable, table, _, present, rfl, rfl⟩

theorem indexDeleteByName_eq_ok_iff {url : Url} {obj : JSXObject}
    {bcdb reached : BCDB} {value : PUnit} :
    indexDeleteByName url obj bcdb = .ok value reached ↔
      bcdb.indexReadonly = false ∧ ∃ model cell table,
        bcdb.models.find url = some model ∧ nameCell model obj = .ok cell ∧
        bcdb.tables model.key = some table ∧
        bcdb.setTable model.key (table.deleteByCell "name" cell) = reached := by
  simp only [indexDeleteByName, seq_eq_ok_iff, query_eq_ok_iff, attempt_eq_ok_iff,
    advance_eq_ok_iff, BCDB.model_eq_ok_iff, BCDB.writeTable_eq_ok_iff,
    Except.ok.injEq]
  constructor
  · rintro ⟨model, _, ⟨found, rfl⟩, cell, _, ⟨read, rfl⟩, writable, table, _, present,
      rfl, rfl⟩
    exact ⟨writable, model, cell, table, found, read, present, rfl⟩
  · rintro ⟨writable, model, cell, table, found, read, present, rfl⟩
    exact ⟨model, bcdb, ⟨found, rfl⟩, cell, bcdb, ⟨read, rfl⟩, writable, table, _,
      present, rfl, rfl⟩

/-- `index.delete` on an object with an id. -/
theorem indexDelete_eq_ok_iff {url : Url} {session reached : Session}
    {value : PUnit} {id : Nat} (named : session.obj.id = some id) :
    indexDelete url session = .ok value reached ↔
      session.bcdb.indexReadonly = false ∧
      ∃ model table name, session.bcdb.models.find url = some model ∧
        session.bcdb.tables model.key = some table ∧
        DeletedName session.obj model name ∧
        { session with
          bcdb := session.bcdb.setTable model.key (table.without id name) } =
            reached := by
  simp only [indexDelete, get_seq, named, seq_eq_ok_iff, Session.onBcdb,
    onPart_eq_ok_iff, indexDeleteById_eq_ok_iff, runIf_eq_ok_iff,
    indexDeleteByName_eq_ok_iff]
  unfold DeletedName
  constructor
  · rintro ⟨_, _, ⟨_, ⟨writable, model, table, found, present, rfl⟩, rfl⟩, byName⟩
    refine ⟨writable, model, table, ?_⟩
    rcases byName with ⟨hasName, _, ⟨_, model', cell, table', found', read, present',
      rfl⟩, rfl⟩ | ⟨noName, rfl⟩
    · simp only [BCDB.setTable_models] at found'
      rw [found, Option.some.injEq] at found'
      subst found'
      simp only [BCDB.setTable_tables_self, Option.some.injEq] at present'
      subst present'
      refine ⟨some cell, found, present, ?_, ?_⟩
      · rw [if_pos hasName]
        exact ⟨cell, read, rfl⟩
      · rw [BCDB.setTable_setTable]
        rfl
    · refine ⟨none, found, present, ?_, rfl⟩
      rw [if_neg noName]
  · rintro ⟨writable, model, table, name, found, present, isName, rfl⟩
    refine ⟨(), { session with
      bcdb := session.bcdb.setTable model.key (table.deleteById id) },
      ⟨_, ⟨writable, model, table, found, present, rfl⟩, rfl⟩, ?_⟩
    by_cases hasName : session.obj.schema.hasName = true
    · rw [if_pos hasName] at isName
      obtain ⟨cell, read, rfl⟩ := isName
      refine .inl ⟨hasName, session.bcdb.setTable model.key (table.without id (some cell)),
        ⟨?_, model, cell, table.deleteById id, ?_, read, ?_, ?_⟩, rfl⟩
      · simpa only [BCDB.setTable_indexReadonly] using writable
      · simpa only [BCDB.setTable_models] using found
      · simp only [BCDB.setTable_tables_self]
      · simp only [BCDB.setTable_setTable, Table.without]
    · rw [if_neg hasName] at isName
      subst isName
      exact .inr ⟨hasName, rfl⟩

/-- `set` without the store on an object with an id: the rows with its id and
its name go, and its row comes. -/
theorem set_index_eq_ok_iff {url : Url} {session reached : Session}
    {value : PUnit} {id : Nat} (named : session.obj.id = some id)
    (notFirst : id ≠ 0) :
    set url true false session = .ok value reached ↔
      session.obj.nid ≠ 0 ∧ session.bcdb.indexReadonly = false ∧
      ∃ model row table table' name, session.bcdb.models.find url = some model ∧
        session.obj.indexRow model.index = .ok row ∧
        session.bcdb.tables model.key = some table ∧
        DeletedName session.obj model name ∧
        (table.without id name).set id row = .ok table' ∧
        { session with bcdb := session.bcdb.setTable model.key table' } =
          reached := by
  have split : set url true false session = .ok value reached ↔
      session.obj.nid ≠ 0 ∧ ∃ between,
        indexDelete url session = .ok () between ∧
        indexSet url between = .ok () reached := by
    simp only [set, setWith, setIndex, get_seq, seq_eq_ok_iff, attempt_eq_ok_iff,
      ensure_eq_ok_iff, runIf_eq_ok_iff, rename_eq_ok_iff, Bool.false_eq_true,
      false_and, false_or, not_false_eq_true, true_and, not_true_eq_false, or_false]
    constructor
    · rintro ⟨_, _, ⟨nid, rfl⟩, _, _, rfl, _, between, deleted, indexed⟩
      exact ⟨nid, between, deleted, indexed⟩
    · rintro ⟨nid, between, deleted, indexed⟩
      exact ⟨(), session, ⟨nid, rfl⟩, (), session, rfl, (), between, deleted, indexed⟩
  have named' : ∀ bcdb : BCDB,
      ({ session with bcdb := bcdb } : Session).obj.id = some id := fun _ => named
  rw [split]
  constructor
  · rintro ⟨nid, between, deleted, indexed⟩
    obtain ⟨writable, model, table, name, found, present, isName, rfl⟩ :=
      (indexDelete_eq_ok_iff named).mp deleted
    obtain ⟨_, _, model', row, table'', table', found', read, present', set, rfl⟩ :=
      (indexSet_eq_ok_iff (named' _) notFirst).mp indexed
    simp only [BCDB.setTable_models] at found'
    rw [found, Option.some.injEq] at found'
    subst found'
    simp only [BCDB.setTable_tables_self, Option.some.injEq] at present'
    subst present'
    exact ⟨nid, writable, model, row, table, table', name, found, read, present,
      isName, set, by simp only [BCDB.setTable_setTable]⟩
  · rintro ⟨nid, writable, model, row, table, table', name, found, read, present,
      isName, set, rfl⟩
    refine ⟨nid, { session with
      bcdb := session.bcdb.setTable model.key (table.without id name) }, ?_, ?_⟩
    · exact (indexDelete_eq_ok_iff named).mpr
        ⟨writable, model, table, name, found, present, isName, rfl⟩
    · refine (indexSet_eq_ok_iff (named' _) notFirst).mpr ⟨nid, ?_, model, row,
        table.without id name, table', ?_, read, ?_, set, ?_⟩
      · simpa only [BCDB.setTable_indexReadonly] using writable
      · simpa only [BCDB.setTable_models] using found
      · simp only [BCDB.setTable_tables_self]
      · simp only [BCDB.setTable_setTable]

end BCDBModel

end JumpscaleX
