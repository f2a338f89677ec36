import JumpscaleX.RebuildTotal
import JumpscaleX.Evolution
import JumpscaleX.Namespace

/-!
# Rebuilding the index of one model

`index_rebuild` of a model destroys rows of its table and then walks over the
ids that are left in that table.  A row that was destroyed is not among them,
so its object is not indexed again.
-/

namespace JumpscaleX

open Fallible Stateful

theorem Table.eq_of_lookup {left right : Table} (columns : left.columns = right.columns)
    (same : ∀ id, left.lookup id = right.lookup id) : left = right := by
  cases left
  cases right
  cases columns
  congr 1
  exact UniqueMap.ext same

namespace BCDB

/-- The table of a model agrees with the store: every object of the model can
be read and has its row, and every row is the one of an object of the model.
The columns were generated from a version of the schema and are never null. -/
structure Indexing (bcdb : BCDB) (url : Url) (model : Model) (table : Table) : Prop where
  found : bcdb.models.find url = some model
  present : bcdb.tables model.key = some table
  columns : table.columns = model.columns
  generated : ∃ version : Schema, model.index = version.propertiesIndexSql
  complete : ∀ id row, table.lookup id = some row → row.Complete model.columns
  indexed : ∀ id record, bcdb.Holds id record → bcdb.urlOf (.record record) = some url →
    ∃ obj row, BCDBModel.get url (some id) bcdb = .ok obj bcdb ∧ obj.id = some id ∧
      obj.indexRow model.index = .ok row ∧ table.lookup id = some row
  stored : ∀ id row, table.lookup id = some row →
    ∃ record, bcdb.Holds id record ∧ bcdb.urlOf (.record record) = some url

def IndexAgrees (bcdb : BCDB) (url : Url) : Prop :=
  ∃ model table, bcdb.Indexing url model table

/-- The rebuild returns.  The store is the same, the index agrees with it
again, and every query finds the ids that it found before. -/
def IndexRestored (bcdb : BCDB) (url : Url) (nid : Nat) : Prop :=
  ∃ reached, BCDBModel.indexRebuild url nid bcdb = .ok () reached ∧
    reached.storclient = bcdb.storclient ∧ reached.IndexAgrees url ∧
    ∀ nid' kwargs, BCDBModel.findIds url nid' kwargs reached =
      BCDBModel.findIds url nid' kwargs bcdb

/-- An object gets through `set` without the store: it has a nid, and when it
has a name then the name is a column of its model. -/
def Reindexable (model : Model) (obj : JSXObject) : Prop :=
  obj.nid ≠ 0 ∧
    (obj.schema.hasName = true → ∃ field ∈ model.index, field.name = "name")

/-- The index can be written, the rows that are destroyed are those of no
object, and every object of the model gets through `set`. -/
def NothingDestroyed (bcdb : BCDB) (url : Url) (nid : Nat) : Prop :=
  bcdb.indexReadonly = false ∧
    ∀ id obj model, BCDBModel.get url (some id) bcdb = .ok obj bcdb →
      bcdb.models.find url = some model →
      nid ≠ 0 ∧ obj.nid ≠ nid ∧ Reindexable model obj

/-! ## Reading in a database with the same store -/

theorem urlOf_congr {bcdb state : BCDB} (same : SameStore bcdb state) (stored : Stored) :
    state.urlOf stored = bcdb.urlOf stored := by
  cases stored <;> simp [urlOf, same.schemaFactory]

theorem holds_congr {bcdb state : BCDB} (same : SameStore bcdb state) {id : Nat}
    {record : Record} : state.Holds id record ↔ bcdb.Holds id record := by
  unfold Holds
  rw [same.storclient]

end BCDB

namespace BCDBModel

/-- `get` depends on the store, the schemas and the model alone. -/
theorem get_of_sameStore {bcdb state reached : BCDB} {url : Url} {id : Nat}
    {obj : JSXObject} (done : get url (some id) bcdb = .ok obj reached)
    (same : BCDB.SameStore bcdb state)
    (models : state.models.find url = bcdb.models.find url) :
    get url (some id) state = .ok obj state := by
  obtain ⟨_, model, record, loaded, found, named, lookup, loads, isUrl, version, rfl⟩ :=
    get_eq_ok done
  have modelUrl := bcdb.models.named found
  rw [← models] at found
  rw [← same.storclient, Option.getD_some] at lookup
  rw [← same.schemaFactory] at loads
  have asked : schemaOf url state = .ok model.schema := by
    simp [schemaOf, BCDB.model, found, Except.map]
  have data : storedData id state = .ok (.record record) := by
    simp [storedData, lookup, Stored.truthy]
  have read := BCDB.unserialize_of_model id (by rw [modelUrl]; exact found)
    (by rw [modelUrl]; exact loads) (isUrl.trans modelUrl.symm) version
  simp only [get, seq_eq_ok_iff, attempt_eq_ok_iff, ensure_eq_ok_iff,
    query_eq_ok_iff, return_eq_ok_iff, Option.getD_some]
  exact ⟨PUnit.unit, state, ⟨named, rfl⟩, _, state, ⟨data, rfl⟩, _, state, ⟨asked, rfl⟩,
    _, state, read, _, state, ⟨asked, rfl⟩, PUnit.unit, state,
    ⟨⟨isUrl.trans modelUrl.symm, version⟩, rfl⟩, rfl, rfl⟩

/-- What stands under an id that `get` reads is a record of the model's url. -/
theorem holds_of_get {bcdb reached : BCDB} {url : Url} {id : Nat} {obj : JSXObject}
    (done : get url (some id) bcdb = .ok obj reached) :
    ∃ record, bcdb.Holds id record ∧ bcdb.urlOf (.record record) = some url := by
  obtain ⟨_, model, record, loaded, _, named, lookup, loads, isUrl, _, _⟩ := get_eq_ok done
  obtain ⟨schema, newest, known, isNewest, rfl⟩ := SchemaFactory.loads_eq_ok_iff.mp loads
  refine ⟨record, ⟨named, lookup⟩, ?_⟩
  have sameUrl : newest.url = schema.url := bcdb.schemaFactory.urlNamed isNewest
  have isSchema : schema.url = url := sameUrl.symm.trans isUrl
  simp [BCDB.urlOf, known, isSchema]

/-- Indexing an object that is in the store. -/
theorem reindex_eq_ok_iff {bcdb reached : BCDB} {url : Url} {id : Nat} {obj : JSXObject}
    {value : PUnit} (read : get url (some id) bcdb = .ok obj bcdb)
    (named : obj.id = some id) :
    reindex url id bcdb = .ok value reached ↔
      obj.nid ≠ 0 ∧ bcdb.indexReadonly = false ∧
      ∃ model row table table' name, bcdb.models.find url = some model ∧
        obj.indexRow model.index = .ok row ∧ bcdb.tables model.key = some table ∧
        DeletedName obj model name ∧ (table.without id name).set id row = .ok table' ∧
        bcdb.setTable model.key table' = reached := by
  obtain ⟨_, _, _, _, _, notFirst, _⟩ := get_eq_ok read
  rw [Option.getD_some] at notFirst
  have sequel : reindex url id bcdb =
      ({ obj := obj, acl := .none } : JSXObjectRoot).on (set url true false) bcdb := by
    rw [reindex, seq_of_ok read]
  rw [sequel, JSXObjectRoot.on, onPart_eq_ok_iff]
  constructor
  · rintro ⟨session, done, rfl⟩
    obtain ⟨nid, writable, model, row, table, table', name, found, isRow, present, isName,
      set, rfl⟩ := (set_index_eq_ok_iff named notFirst).mp done
    exact ⟨nid, writable, model, row, table, table', name, found, isRow, present, isName,
      set, rfl⟩
  · rintro ⟨nid, writable, model, row, table, table', name, found, isRow, present, isName,
      set, rfl⟩
    refine ⟨_, (set_index_eq_ok_iff named notFirst).mpr ⟨nid, writable, model, row, table,
      table', name, found, isRow, present, isName, set, rfl⟩, rfl⟩

end BCDBModel

namespace BCDB

variable {bcdb : BCDB} {url : Url} {model : Model} {table : Table} {nid : Nat}

/-! ## When nothing is destroyed -/

theorem DeletedName_congr {obj : JSXObject} {model model' : Model} {name : Option Cell}
    (same : model.index = model'.index) :
    BCDBModel.DeletedName obj model name ↔ BCDBModel.DeletedName obj model' name := by
  unfold BCDBModel.DeletedName BCDBModel.nameCell
  rw [same]

/-- An object that has its row is indexed as it was. -/
theorem Indexing.reindex_eq_self (indexing : bcdb.Indexing url model table)
    (writable : bcdb.indexReadonly = false) {id : Nat} {obj : JSXObject}
    (read : BCDBModel.get url (some id) bcdb = .ok obj bcdb)
    (reindexable : Reindexable model obj) :
    BCDBModel.reindex url id bcdb = .ok () bcdb := by
  obtain ⟨record, holds, belongs⟩ := BCDBModel.holds_of_get read
  obtain ⟨obj', row, read', named, isRow, lookup⟩ := indexing.indexed id record holds belongs
  rw [read, EStateM.Result.ok.injEq] at read'
  obtain ⟨rfl, _⟩ := read'
  obtain ⟨version, generated⟩ := indexing.generated
  have columns : model.columns = version.model.columns := by
    simp [Model.columns, Schema.model, generated]
  have complete := indexing.complete id row lookup
  have own := indexing.columns.trans columns
  rw [columns] at complete
  -- no other row of the table clashes with the one of the object
  obtain ⟨name, table', isName, set, lookups⟩ :=
    set_without_of_free id obj (by rw [← generated]; exact isRow) complete
      (fun hasName => by rw [← generated]; exact reindexable.2 hasName) own
      (fun other row' inTable different clash =>
        different (Table.eq_of_clash lookup inTable clash).symm)
  have same : table' = table := by
    apply Table.eq_of_lookup
    · rw [set_without_eq_putRow] at set
      rw [(Table.putRow_eq_ok set).1, Table.without_columns]
    · intro other
      rw [lookups]
      split
      · rename_i here
        rw [here, lookup]
      · rfl
  subst same
  have unchanged : bcdb.setTable model.key table' = bcdb := by
    simp [setTable, ← indexing.present]
  exact (BCDBModel.reindex_eq_ok_iff read named).mpr
    ⟨reindexable.1, writable, model, row, table', table', name, indexing.found, isRow,
      indexing.present, (DeletedName_congr generated).mpr isName, set, unchanged⟩

/-- The rows that the destruction at the start of the rebuild leaves. -/
def destroyed (model : Model) (table : Table) (nid : Nat) : Table :=
  if nid ≠ 0 then table.deleteByNid nid else Table.create model.columns

theorem lookup_destroyed_eq_some_iff {id : Nat} {row : Row} :
    (destroyed model table nid).lookup id = some row ↔
      nid ≠ 0 ∧ table.lookup id = some row ∧ row.nid ≠ nid := by
  unfold destroyed
  split
  · rename_i given
    rw [Table.lookup_deleteByNid_eq_some_iff]
    exact (and_iff_right given).symm
  · rename_i zero
    simp [zero]

theorem Indexing.indexDestroy (indexing : bcdb.Indexing url model table)
    (writable : bcdb.indexReadonly = false) (nid : Nat) :
    BCDBModel.indexDestroy url (some nid) bcdb =
      .ok () (bcdb.setTable model.key (destroyed model table nid)) := by
  simp [BCDBModel.indexDestroy, advance_eq_ok_iff, bind_eq_ok_iff, model_eq_ok_iff,
    writeTable_eq_ok_iff, indexing.found, indexing.present, writable, destroyed]

/-- A row of the table is the one of an object that can be read. -/
theorem Indexing.read (indexing : bcdb.Indexing url model table) {id : Nat} {row : Row}
    (lookup : table.lookup id = some row) :
    ∃ obj, BCDBModel.get url (some id) bcdb = .ok obj bcdb ∧ obj.id = some id ∧
      obj.nid = row.nid := by
  obtain ⟨record, holds, belongs⟩ := indexing.stored id row lookup
  obtain ⟨obj, row', read, named, isRow, lookup'⟩ := indexing.indexed id record holds belongs
  rw [lookup, Option.some.injEq] at lookup'
  subst lookup'
  exact ⟨obj, read, named, (JSXObject.indexRow_names isRow).2.symm⟩

/-- The rebuild in which no row goes walks over the whole table and leaves it. -/
theorem Indexing.restored (indexing : bcdb.Indexing url model table)
    (safe : bcdb.NothingDestroyed url nid) : bcdb.IndexRestored url nid := by
  obtain ⟨writable, spared⟩ := safe
  have whole : destroyed model table nid = table := by
    apply Table.eq_of_lookup
    · unfold destroyed
      split
      · rfl
      · exact indexing.columns.symm
    · intro id
      apply Option.ext
      intro row
      rw [lookup_destroyed_eq_some_iff]
      constructor
      · rintro ⟨_, lookup, _⟩
        exact lookup
      · intro lookup
        obtain ⟨obj, read, _, sameNid⟩ := indexing.read lookup
        obtain ⟨given, different, _⟩ := spared id obj model read indexing.found
        exact ⟨given, lookup, sameNid ▸ different⟩
  have destroy := indexing.indexDestroy writable nid
  have unchanged : bcdb.setTable model.key table = bcdb := by
    simp [setTable, ← indexing.present]
  rw [whole, unchanged] at destroy
  have isTable : BCDBModel.tableOf url bcdb = .ok table :=
    BCDBModel.tableOf_eq_ok_iff.mpr ⟨model, indexing.found, indexing.present⟩
  obtain ⟨ids, query⟩ : ∃ ids, BCDBModel.findIds url (some nid) [] bcdb = .ok ids := by
    simp [BCDBModel.findIds, isTable, bind, Except.bind, ensure, pure, Except.pure]
  have isId := (BCDBModel.mem_findIds query).2
  have again : ∀ id ∈ ids, BCDBModel.reindex url id bcdb = .ok () bcdb := by
    intro id member
    obtain ⟨row, atId⟩ := BCDBModel.matches_nil.mp ((isId id).mp member)
    obtain ⟨model', table', found, present, lookup⟩ := rowAt_eq_some_iff.mp atId
    cases indexing.found.symm.trans found
    cases indexing.present.symm.trans present
    obtain ⟨obj, read, _, _⟩ := indexing.read lookup
    exact indexing.reindex_eq_self writable read
      (spared id obj model read indexing.found).2.2
  obtain ⟨reached, walk, same⟩ : ∃ reached,
      ids.forM (BCDBModel.reindex url) bcdb = .ok () reached ∧ reached = bcdb := by
    apply forM_total (fun _ state => state = bcdb)
    · rintro front id back state split rfl
      exact ⟨state, again id (by simp [split]), rfl⟩
    · rfl
  subst same
  refine ⟨reached, ?_, rfl, ⟨model, table, indexing⟩, fun _ _ => rfl⟩
  rw [BCDBModel.indexRebuild, seq_of_ok destroy, seq_of_ok (query_eq_ok_iff.mpr ⟨query, rfl⟩)]
  exact walk

/-! ## What the walk leaves -/

/-- Along the walk over some ids the store and the models are the same, no
other id gets a row, and every object that was walked over got through. -/
structure Walked (bcdb : BCDB) (url : Url) (model : Model) (ids front : List Nat)
    (state : BCDB) : Prop where
  same : SameStore bcdb state
  models : state.models = bcdb.models
  rows : ∃ table, state.tables model.key = some table ∧
    ∀ id, id ∉ ids → table.lookup id = none
  through : ∀ id ∈ front, ∀ obj, BCDBModel.get url (some id) bcdb = .ok obj bcdb →
    Reindexable model obj

/-- The object that comes up next is indexed. -/
theorem Walked.reindex {ids front : List Nat} {id : Nat} {state reached : BCDB}
    {obj : JSXObject} {value : PUnit}
    (walked : Walked bcdb url model ids front state)
    (found : bcdb.models.find url = some model) (inside : id ∈ ids)
    (read : BCDBModel.get url (some id) bcdb = .ok obj bcdb) (named : obj.id = some id)
    (done : BCDBModel.reindex url id state = .ok value reached) :
    Walked bcdb url model ids (front ++ [id]) reached := by
  have read' := BCDBModel.get_of_sameStore read walked.same (by rw [walked.models])
  obtain ⟨nid, _, model', row, table, table', name, found', isRow, present, isName, set,
    rfl⟩ := (BCDBModel.reindex_eq_ok_iff read' named).mp done
  rw [walked.models, found, Option.some.injEq] at found'
  subst found'
  constructor
  · exact walked.same.trans (setTable_sameStore ..)
  · rw [setTable_models, walked.models]
  · obtain ⟨table'', present', outside⟩ := walked.rows
    cases present.symm.trans present'
    refine ⟨table', setTable_tables_self .., ?_⟩
    intro other absent
    have different : other ≠ id := by
      rintro rfl
      exact absent inside
    rw [set_without_eq_putRow] at set
    rw [(Table.putRow_eq_ok set).2.2, if_neg different]
    cases kept : (table.without id name).lookup other with
    | none => rfl
    | some row' =>
        have before := (Table.lookup_without_eq_some_iff.mp kept).2.1
        rw [outside other absent] at before
        cases before
  · intro other member obj' read''
    rcases List.mem_append.mp member with earlier | now
    · exact walked.through other earlier obj' read''
    · rw [List.mem_singleton.mp now, read, EStateM.Result.ok.injEq] at read''
      obtain ⟨rfl, _⟩ := read''
      refine ⟨nid, ?_⟩
      intro hasName
      rw [BCDBModel.DeletedName, if_pos hasName] at isName
      obtain ⟨cell, isCell, _⟩ := isName
      simp only [BCDBModel.nameCell, bind_eq_ok_iff] at isCell
      obtain ⟨value, _, column⟩ := isCell
      split at column
      · rename_i field isField
        exact ⟨field, List.mem_of_find?_eq_some isField,
          by simpa using List.find?_some isField⟩
      · cases column

/-- When the index is restored then no row was destroyed: it would not have
come back. -/
theorem Indexing.spared (indexing : bcdb.Indexing url model table)
    (restored : bcdb.IndexRestored url nid) : bcdb.NothingDestroyed url nid := by
  obtain ⟨reached, done, _, ⟨model', table', after⟩, _⟩ := restored
  simp only [BCDBModel.indexRebuild, seq_eq_ok_iff, query_eq_ok_iff] at done
  obtain ⟨_, between, destroy, ids, _, ⟨query, rfl⟩, walk⟩ := done
  have writable : bcdb.indexReadonly = false := by
    simp only [BCDBModel.indexDestroy, advance_eq_ok_iff, bind_eq_ok_iff,
      writeTable_eq_ok_iff] at destroy
    obtain ⟨_, _, writable, _⟩ := destroy
    exact writable
  rw [indexing.indexDestroy writable, EStateM.Result.ok.injEq] at destroy
  obtain ⟨_, rfl⟩ := destroy
  have isId : ∀ id, id ∈ ids ↔ ∃ row, (destroyed model table nid).lookup id = some row := by
    intro id
    rw [(BCDBModel.mem_findIds query).2, BCDBModel.matches_nil]
    simp [rowAt, indexing.found]
  -- the walk, with the objects as they were read before the rebuild
  have walked : Walked bcdb url model ids ids reached := by
    refine forM_trace (fun front state => Walked bcdb url model ids front state)
      ?_ ?_ walk
    · intro front id back state later value split before step
      have inside : id ∈ ids := by simp [split]
      obtain ⟨row, left⟩ := (isId id).mp inside
      obtain ⟨obj, read, named, _⟩ :=
        indexing.read (lookup_destroyed_eq_some_iff.mp left).2.1
      exact before.reindex indexing.found inside read named step
    · constructor
      · exact setTable_sameStore ..
      · rw [setTable_models]
      · refine ⟨_, setTable_tables_self .., ?_⟩
        intro id absent
        rw [isId, not_exists] at absent
        exact Option.eq_none_iff_forall_ne_some.mpr absent
      · intro id member
        cases member
  refine ⟨writable, ?_⟩
  intro id obj other read found
  cases indexing.found.symm.trans found
  obtain ⟨record, holds, belongs⟩ := BCDBModel.holds_of_get read
  -- the object has its row at the end, so it had one after the destruction
  obtain ⟨_, row, _, _, _, lookup⟩ := after.indexed id record
    ((holds_congr walked.same).mpr holds) ((urlOf_congr walked.same _).trans belongs)
  have inside : id ∈ ids := by
    by_contra absent
    obtain ⟨last, present, outside⟩ := walked.rows
    have isModel := after.found
    rw [walked.models, indexing.found, Option.some.injEq] at isModel
    subst isModel
    cases after.present.symm.trans present
    rw [outside id absent] at lookup
    cases lookup
  obtain ⟨row', left⟩ := (isId id).mp inside
  obtain ⟨given, before, different⟩ := lookup_destroyed_eq_some_iff.mp left
  obtain ⟨obj', read', _, sameNid⟩ := indexing.read before
  rw [read, EStateM.Result.ok.injEq] at read'
  obtain ⟨rfl, _⟩ := read'
  exact ⟨given, sameNid ▸ different, walked.through id inside obj read⟩

/-- A rebuild restores the index exactly when it destroys no row. -/
theorem indexRestored_iff (agrees : bcdb.IndexAgrees url) :
    bcdb.IndexRestored url nid ↔ bcdb.NothingDestroyed url nid := by
  obtain ⟨model, table, indexing⟩ := agrees
  exact ⟨indexing.spared, indexing.restored⟩

/-! ## One object of nid 1 -/

/-- The record that `afterSet` holds. -/
def recordOne : Record where
  nid := 1
  aclId := some 0
  bdata := { objId := 0, md5 := "1", message := .insert .empty 1 (.str "a") }

theorem afterSet_holds {id : Nat} {record : Record} (holds : afterSet.Holds id record) :
    id = 1 ∧ record = recordOne := by
  have entries : afterSet.storclient.kvs =
      .insert (.insert .empty 0 .init) 1 (.record recordOne) := rfl
  obtain ⟨notFirst, present⟩ := holds
  rw [StorClient.get, entries, OrderedMap.lookup_insert, OrderedMap.lookup_insert,
    if_neg notFirst, OrderedMap.lookup_empty] at present
  split at present
  · rename_i isOne
    cases present
    exact ⟨isOne, rfl⟩
  · cases present

theorem afterSet_indexing : ∃ table,
    afterSet.Indexing "test.one" (nameSchema "test.one" "1").model table := by
  have put : ∃ table, afterSet.tables (nameSchema "test.one" "1").model.key = some table ∧
      (Table.create (nameSchema "test.one" "1").model.columns).putRow 1
        { nid := 1, cols := [("name", .text "a")] } = .ok table := ⟨_, rfl, rfl⟩
  obtain ⟨table, present, put⟩ := put
  obtain ⟨columns, complete, lookups⟩ := Table.putRow_eq_ok put
  have only : ∀ id row, table.lookup id = some row →
      id = 1 ∧ row = { nid := 1, cols := [("name", .text "a")] } := by
    intro id row lookup
    rw [lookups, Table.lookup_create] at lookup
    split at lookup
    · rename_i isOne
      cases lookup
      exact ⟨isOne, rfl⟩
    · cases lookup
  refine ⟨table, ?_⟩
  constructor
  · rfl
  · exact present
  · exact columns
  · exact ⟨nameSchema "test.one" "1", rfl⟩
  · intro id row lookup
    rw [(only id row lookup).2]
    exact complete
  · intro id record holds _
    obtain ⟨rfl, _⟩ := afterSet_holds holds
    exact ⟨_, _, rfl, rfl, rfl, lookups 1⟩
  · intro id row lookup
    rw [(only id row lookup).1]
    exact ⟨recordOne, ⟨Nat.one_ne_zero, rfl⟩, rfl⟩

/-- An object of nid 1 loses its row when the index is rebuilt for nid 1. -/
theorem rebuild_loses_row : afterSet.IndexAgrees "test.one" ∧
    ¬ afterSet.IndexRestored "test.one" 1 := by
  obtain ⟨table, indexing⟩ := afterSet_indexing
  refine ⟨⟨_, table, indexing⟩, ?_⟩
  intro restored
  obtain ⟨_, spared⟩ := indexing.spared restored
  exact (spared 1 _ _ rfl rfl).2.1 rfl

/-- A rebuild for nid 2 leaves the object its row. -/
theorem rebuild_for_other_nid : afterSet.IndexRestored "test.one" 2 := by
  obtain ⟨table, indexing⟩ := afterSet_indexing
  refine (indexRestored_iff ⟨_, table, indexing⟩).mpr ⟨rfl, ?_⟩
  intro id obj model read found
  obtain ⟨record, holds, _⟩ := BCDBModel.holds_of_get read
  obtain ⟨rfl, _⟩ := afterSet_holds holds
  have isObj : ∃ other, BCDBModel.get "test.one" (some 1) afterSet = .ok other afterSet ∧
      other.nid = 1 := ⟨_, rfl, rfl⟩
  obtain ⟨other, read', nid⟩ := isObj
  rw [read, EStateM.Result.ok.injEq] at read'
  obtain ⟨rfl, _⟩ := read'
  cases (show some (nameSchema "test.one" "1").model = some model from found)
  refine ⟨by decide, by rw [nid]; decide, by rw [nid]; decide, fun _ => ?_⟩
  exact ⟨_, List.mem_singleton.mpr rfl, rfl⟩

end BCDB

end JumpscaleX
