import JumpscaleX.Agreement
import JumpscaleX.Reindex

/-!
# The steps of a rebuild

While a rebuild runs, the models in memory are new ones of the newest schemas,
and every row stands under the id of an entry that was walked over.
-/

namespace JumpscaleX

open Fallible Stateful PartitionedIndex

/-! ## The object of a record -/

theorem Record.read_indexRow (record : Record) (id : Nat) (schema : Schema)
    (fields : List IndexField) :
    (record.read id schema).indexRow fields =
      (record.toObj schema).indexRow fields :=
  JSXObject.indexRow_congr rfl rfl (fun _ _ => rfl) fields

theorem SchemaFactory.model_url {factory : SchemaFactory} {url : Url}
    {schema : Schema} (loaded : factory.schemasLoaded url = some schema) :
    schema.model.schema.url = url :=
  factory.urlNamed loaded

namespace BCDB

/-- The models in memory are those of the newest schemas of some urls, every
one has its table, and all rows stand under the given ids. -/
structure Tidy (start : BCDB) (known : Url → Prop) (ids : List Nat)
    (bcdb : BCDB) : Prop where
  same : SameStore start bcdb
  models : ∀ url, bcdb.HasModel url ↔ known url
  newest : ∀ url model, bcdb.models.find url = some model →
    ∃ schema, start.schemaFactory.schemasLoaded url = some schema ∧
      model = schema.model
  table : ∀ url model, bcdb.models.find url = some model →
    ∃ table, bcdb.tables model.key = some table
  owned : ∀ key table, bcdb.tables key = some table →
    ∃ url model, bcdb.models.find url = some model ∧ model.key = key ∧
      table.columns = model.columns
  rows : ∀ key table id row, bcdb.tables key = some table →
    table.lookup id = some row → id ∈ ids ∧ row.Complete table.columns

theorem Tidy.congr {start bcdb : BCDB} {known known' : Url → Prop}
    {ids : List Nat} (tidy : Tidy start known ids bcdb)
    (same : ∀ url, known url ↔ known' url) : Tidy start known' ids bcdb :=
  { tidy with models := fun url => (tidy.models url).trans (same url) }

/-- The model in memory is the one of the newest schema. -/
theorem Tidy.find_eq {start bcdb : BCDB} {known : Url → Prop} {ids : List Nat}
    (tidy : Tidy start known ids bcdb) {url : Url} {schema : Schema}
    (loaded : start.schemaFactory.schemasLoaded url = some schema)
    (isKnown : known url) : bcdb.models.find url = some schema.model := by
  obtain ⟨model, found⟩ := (tidy.models url).mpr isKnown
  obtain ⟨newest, loaded', rfl⟩ := tidy.newest url model found
  rw [loaded, Option.some.injEq] at loaded'
  rw [found, loaded']

/-- Adding the model of a newest schema. -/
theorem Tidy.addModel {start bcdb : BCDB} {known : Url → Prop} {ids : List Nat}
    (tidy : Tidy start known ids bcdb) (writable : start.readonly = false)
    {url : Url} {schema : Schema}
    (loaded : start.schemaFactory.schemasLoaded url = some schema) :
    Tidy start (fun other => known other ∨ other = url) ids
      (bcdb.addModel schema.model) := by
  have isUrl := SchemaFactory.model_url loaded
  have find : ∀ other, (bcdb.addModel schema.model).models.find other =
      if other = url then some schema.model else bcdb.models.find other := by
    intro other
    rw [addModel_models, Models.find_add, isUrl]
  have isMaster : bcdb.readonly = false := tidy.same.readonly.trans writable
  have tables : ∀ key table, (bcdb.addModel schema.model).tables key = some table ↔
      bcdb.tables key = some table ∨ bcdb.tables key = none ∧
        key = schema.model.key ∧ table = Table.create schema.model.columns := by
    intro key table
    rw [addModel_tables, isMaster]
    cases present : bcdb.tables schema.model.key with
    | none =>
        simp only [Bool.not_false, Option.isNone_none, Bool.and_self, if_true]
        by_cases here : key = schema.model.key
        · subst here
          simp [present, eq_comm]
        · simp [here]
    | some present' =>
        simp only [Option.isNone_some, Bool.and_false, Bool.false_eq_true, if_false]
        constructor
        · exact .inl
        · rintro (found | ⟨absent, rfl, _⟩)
          · exact found
          · rw [present] at absent
            cases absent
  -- the model that was found before is still the one of its url
  have still : ∀ other model, bcdb.models.find other = some model →
      (bcdb.addModel schema.model).models.find other = some model := by
    intro other model found
    rw [find]
    split
    · rename_i isOther
      obtain ⟨newest, loaded', rfl⟩ := tidy.newest other model found
      rw [isOther, loaded, Option.some.injEq] at loaded'
      rw [loaded']
    · exact found
  refine ⟨tidy.same.trans (addModel_sameStore _ _), ?_, ?_, ?_, ?_, ?_⟩
  · intro other
    rw [← tidy.models other]
    unfold HasModel
    rw [find]
    by_cases here : other = url <;> simp [here]
  · intro other model found
    rw [find] at found
    split at found
    · rename_i isOther
      cases found
      exact ⟨schema, by rw [isOther]; exact loaded, rfl⟩
    · exact tidy.newest other model found
  · intro other model found
    rw [find] at found
    split at found
    · cases found
      cases present : bcdb.tables schema.model.key with
      | none => exact ⟨_, (tables _ _).mpr (.inr ⟨present, rfl, rfl⟩)⟩
      | some table => exact ⟨table, (tables _ _).mpr (.inl present)⟩
    · obtain ⟨table, present⟩ := tidy.table other model found
      exact ⟨table, (tables _ _).mpr (.inl present)⟩
  · intro key table present
    rcases (tables key table).mp present with present | ⟨_, rfl, rfl⟩
    · obtain ⟨other, model, found, isKey, columns⟩ := tidy.owned key table present
      exact ⟨other, model, still other model found, isKey, columns⟩
    · exact ⟨url, schema.model, by rw [find, if_pos rfl], rfl, rfl⟩
  · intro key table id row present found
    rcases (tables key table).mp present with present | ⟨_, _, rfl⟩
    · exact tidy.rows key table id row present found
    · cases found

/-- Looking up the model of a newest schema adds it when it is missing. -/
theorem Tidy.modelGet {start bcdb : BCDB} {known : Url → Prop} {ids : List Nat}
    (tidy : Tidy start known ids bcdb) (writable : start.readonly = false)
    {schema : Schema}
    (loaded : start.schemaFactory.schemasLoaded schema.url = some schema) :
    ∃ between, bcdb.modelGet schema = .ok between ∧
      Tidy start (fun other => known other ∨ other = schema.url) ids between ∧
      (between = bcdb ∨ ¬ bcdb.HasModel schema.url ∧
        between = bcdb.addModel schema.model) := by
  cases found : bcdb.models.find schema.url with
  | some model =>
      obtain ⟨newest, loaded', rfl⟩ := tidy.newest _ model found
      rw [loaded, Option.some.injEq] at loaded'
      subst loaded'
      refine ⟨bcdb, ?_, tidy.congr ?_, .inl rfl⟩
      · simp only [BCDB.modelGet, found, schemaChange_eq_self found rfl]
      · intro url
        constructor
        · exact .inl
        · rintro (isKnown | rfl)
          · exact isKnown
          · exact (tidy.models _).mp ⟨_, found⟩
  | none =>
      refine ⟨bcdb.addModel schema.model, ?_, tidy.addModel writable loaded,
        .inr ⟨?_, rfl⟩⟩
      · simp only [BCDB.modelGet, found]
        exact modelAdd_eq_ok_iff.mpr
          ⟨schema, by rw [tidy.same.schemaFactory]; exact loaded, rfl⟩
      · rintro ⟨model, present⟩
        rw [found] at present
        cases present

/-- Replacing the table of a model by one with the same columns. -/
theorem Tidy.setTable {start bcdb : BCDB} {known : Url → Prop}
    {ids ids' : List Nat} (tidy : Tidy start known ids bcdb)
    {key : String} {table table' : Table} (present : bcdb.tables key = some table)
    (columns : table'.columns = table.columns) (more : ∀ id ∈ ids, id ∈ ids')
    (rows : ∀ id row, table'.lookup id = some row →
      id ∈ ids' ∧ row.Complete table'.columns) :
    Tidy start known ids' (bcdb.setTable key table') := by
  have tables : ∀ other found, (bcdb.setTable key table').tables other = some found →
      other = key ∧ found = table' ∨ bcdb.tables other = some found := by
    intro other found isTable
    by_cases here : other = key
    · subst here
      rw [setTable_tables_self, Option.some.injEq] at isTable
      exact .inl ⟨rfl, isTable.symm⟩
    · rw [setTable_tables_of_ne _ _ _ here] at isTable
      exact .inr isTable
  refine ⟨?_, tidy.models, tidy.newest, ?_, ?_, ?_⟩
  · exact ⟨tidy.same.storclient, tidy.same.schemaFactory, tidy.same.readonly,
      tidy.same.indexReadonly⟩
  · intro url model found
    rw [setTable_models] at found
    by_cases here : model.key = key
    · exact ⟨table', by rw [here, setTable_tables_self]⟩
    · obtain ⟨other, isTable⟩ := tidy.table url model found
      exact ⟨other, by rw [setTable_tables_of_ne _ _ _ here]; exact isTable⟩
  · intro other found isTable
    rw [setTable_models]
    rcases tables other found isTable with ⟨rfl, rfl⟩ | isTable
    · rw [columns]
      exact tidy.owned other table present
    · exact tidy.owned other found isTable
  · intro other found id row isTable isRow
    rcases tables other found isTable with ⟨rfl, rfl⟩ | isTable
    · exact rows id row isRow
    · obtain ⟨member, complete⟩ := tidy.rows other found id row isTable isRow
      exact ⟨more id member, complete⟩

/-! ## One entry -/

theorem onSet_eq_ok_iff {url : Url} {obj : JSXObject} {bcdb reached : BCDB}
    {value : PUnit} {id : Nat} (named : obj.id = some id) (notFirst : id ≠ 0) :
    ({ obj := obj, acl := .none } : JSXObjectRoot).on
        (BCDBModel.set url true false) bcdb = .ok value reached ↔
      obj.nid ≠ 0 ∧ bcdb.indexReadonly = false ∧
      ∃ model row table table' name, bcdb.models.find url = some model ∧
        obj.indexRow model.index = .ok row ∧
        bcdb.tables model.key = some table ∧
        BCDBModel.DeletedName obj model name ∧
        (table.without id name).set id row = .ok table' ∧
        bcdb.setTable model.key table' = reached := by
  have session : ∀ root : JSXObjectRoot, root.obj = obj →
      ({ root with bcdb := bcdb } : Session).obj.id = some id := by
    rintro root rfl
    exact named
  simp only [JSXObjectRoot.on, onPart_eq_ok_iff,
    BCDBModel.set_index_eq_ok_iff (session { obj := obj, acl := .none } rfl) notFirst]
  constructor
  · rintro ⟨_, ⟨nid, writable, model, row, table, table', name, found, read, present,
      isName, set, rfl⟩, rfl⟩
    exact ⟨nid, writable, model, row, table, table', name, found, read, present,
      isName, set, rfl⟩
  · rintro ⟨nid, writable, model, row, table, table', name, found, read, present,
      isName, set, rfl⟩
    exact ⟨_, ⟨nid, writable, model, row, table, table', name, found, read, present,
      isName, set, rfl⟩, rfl⟩

/-- What indexing an entry does to a tidy database. -/
theorem Tidy.rebuildEntry_eq_ok_iff {start bcdb reached : BCDB}
    {known : Url → Prop} {ids : List Nat} {value : PUnit}
    (tidy : Tidy start known ids bcdb) (writable : start.readonly = false)
    (indexWritable : start.indexReadonly = false)
    {id : Nat} {record : Record} (notFirst : id ≠ 0)
    (own : record.bdata.objId = 0 ∨ record.bdata.objId = id) :
    rebuildEntry (id, .record record) bcdb = .ok value reached ↔
      ∃ schema, start.schemaFactory.schemasMd5 record.bdata.md5 = some schema ∧
        start.schemaFactory.schemasLoaded schema.url = some schema ∧
        record.nid ≠ 0 ∧
        ∃ between row table table' name, bcdb.modelGet schema = .ok between ∧
          (record.toObj schema).indexRow schema.propertiesIndexSql = .ok row ∧
          between.tables schema.model.key = some table ∧
          BCDBModel.DeletedName (record.read id schema) schema.model name ∧
          (table.without id name).set id row = .ok table' ∧
          between.setTable schema.model.key table' = reached := by
  have indexed : ∀ schema between,
      start.schemaFactory.schemasLoaded schema.url = some schema →
      bcdb.modelGet schema = .ok between →
      between.models.find schema.url = some schema.model ∧
        between.indexReadonly = false := by
    intro schema between loaded got
    obtain ⟨between', got', tidy', _⟩ := tidy.modelGet writable loaded
    rw [got, Except.ok.injEq] at got'
    subst got'
    exact ⟨tidy'.find_eq loaded (.inr rfl),
      tidy'.same.indexReadonly.trans indexWritable⟩
  have factory := tidy.same.schemaFactory
  simp only [rebuildEntry, seq_eq_ok_iff, advance_eq_ok_iff,
    unserialize_none_eq_ok_iff, factory]
  constructor
  · rintro ⟨_, between, ⟨schema, current, loaded, got, rfl⟩, _, between', again, done⟩
    have same : between' = between := by
      have loaded' : between.schemaFactory.schemasLoaded schema.url = some schema := by
        rw [(modelGet_sameStore got).schemaFactory, factory]
        exact loaded
      have unchanged := modelGet_again (by rw [factory]; exact loaded) got
      exact Except.ok.inj (again.symm.trans unchanged)
    subst same
    obtain ⟨nid, _, model, row, table, table', name, found, read, present, isName,
      set, rfl⟩ := (onSet_eq_ok_iff (Record.read_id notFirst own) notFirst).mp done
    have isModel := (indexed schema between' loaded got).1
    change between'.models.find schema.url = some model at found
    rw [isModel, Option.some.injEq] at found
    subst found
    rw [Record.read_indexRow] at read
    exact ⟨schema, current, loaded, nid, between', row, table, table', name, got, read,
      present, isName, set, rfl⟩
  · rintro ⟨schema, current, loaded, nid, between, row, table, table', name, got, read,
      present, isName, set, rfl⟩
    obtain ⟨found, isMaster⟩ := indexed schema between loaded got
    have unchanged := modelGet_again (by rw [factory]; exact loaded) got
    refine ⟨_, between, ⟨schema, current, loaded, got, rfl⟩, (), between, unchanged, ?_⟩
    refine (onSet_eq_ok_iff (Record.read_id notFirst own) notFirst).mpr
      ⟨nid, isMaster, schema.model, row, table, table', name, found, ?_, present,
        isName, set, rfl⟩
    rw [Record.read_indexRow]
    exact read

/-- Deleting the rows of an id leaves none, so putting one is an insertion. -/
theorem set_without_eq_putRow (table : Table) (id : Nat) (name : Option Cell)
    (row : Row) :
    (table.without id name).set id row = (table.without id name).putRow id row := by
  apply Table.set_eq_putRow
  intro present found
  exact ((Table.lookup_without_eq_some_iff.mp found).1 rfl).elim

/-- An entry that can be indexed: it was stored under the newest version, it
has a nid, and the name of its object, if any, is a column. -/
def Indexable (start : BCDB) (record : Record) : Prop :=
  ∃ schema, start.schemaFactory.schemasMd5 record.bdata.md5 = some schema ∧
    start.schemaFactory.schemasLoaded schema.url = some schema ∧ record.nid ≠ 0 ∧
    (schema.hasName = true → ∃ field ∈ schema.propertiesIndexSql, field.name = "name")

theorem Tidy.rebuildEntry {start bcdb reached : BCDB} {known : Url → Prop}
    {ids : List Nat} {value : PUnit} (tidy : Tidy start known ids bcdb)
    (writable : start.readonly = false) (indexWritable : start.indexReadonly = false)
    {id : Nat} {record : Record} (notFirst : id ≠ 0)
    (own : record.bdata.objId = 0 ∨ record.bdata.objId = id)
    (done : rebuildEntry (id, .record record) bcdb = .ok value reached) :
    start.Indexable record ∧
      Tidy start
        (fun url => known url ∨ start.urlOf (.record record) = some url)
        (ids ++ [id]) reached := by
  obtain ⟨schema, current, loaded, nid, between, row, table, table', name, got, read,
    present, isName, set, rfl⟩ :=
      (tidy.rebuildEntry_eq_ok_iff writable indexWritable notFirst own).mp done
  refine ⟨⟨schema, current, loaded, nid, ?_⟩, ?_⟩
  · intro hasName
    have isName' := (BCDBModel.deletedName_iff
      ((Record.read_indexRow record id schema _).trans read)).mp isName
    have hasName' : (record.read id schema).schema.hasName = true := hasName
    rw [if_pos hasName'] at isName'
    exact isName'.1
  · obtain ⟨between', got', tidy', _⟩ := tidy.modelGet writable loaded
    rw [got, Except.ok.injEq] at got'
    subst got'
    have sameUrl : ∀ url, (known url ∨ url = schema.url) ↔
        (known url ∨ start.urlOf (.record record) = some url) := by
      intro url
      simp only [urlOf, current, Option.map_some, Option.some.injEq,
        eq_comm (a := url)]
    rw [set_without_eq_putRow] at set
    obtain ⟨columns, complete, lookups⟩ := Table.putRow_eq_ok set
    rw [Table.without_columns] at columns complete
    refine (tidy'.congr sameUrl).setTable present columns
      (fun other member => List.mem_append_left _ member) ?_
    intro other row' found
    rw [lookups] at found
    rw [columns]
    split at found
    · rename_i same
      cases found
      exact ⟨by simp [same], complete⟩
    · have found' := (Table.lookup_without_eq_some_iff.mp found).2.1
      obtain ⟨member, complete'⟩ := tidy'.rows _ _ _ _ present found'
      exact ⟨List.mem_append_left _ member, complete'⟩

end BCDB

end JumpscaleX
