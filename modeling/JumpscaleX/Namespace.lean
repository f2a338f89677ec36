import JumpscaleX.AgreementRuns
import JumpscaleX.Maintenance
import JumpscaleX.Rebuild

/-!
# Namespaces

The nid that queries and maintenance of a model take.  No query looks at it, so
a model keeps its namespaces apart only as long as it has one.
-/

namespace JumpscaleX

open Fallible Stateful

namespace BCDB

/-- The row under an id satisfies the comparisons of a query. -/
def Matches (bcdb : BCDB) (url : Url) (kwargs : DataDict) (id : Nat) : Prop :=
  ∃ row values, bcdb.rowAt url id = some row ∧
    kwargs.mapM BCDBModel.bindItem = .ok values ∧
    BCDBModel.rowMatches values id row = true

/-- The row of a model under an id has the nid, and so has the record. -/
def InNamespace (bcdb : BCDB) (url : Url) (nid id : Nat) : Prop :=
  (∃ row, bcdb.rowAt url id = some row ∧ row.nid = nid) ∧
    ∀ record, bcdb.storclient.get id = some (.record record) → record.nid = nid

/-- The records and rows of all other nids are still there. -/
structure KeepsOthers (nid : Nat) (bcdb reached : BCDB) : Prop where
  records : ∀ id record, bcdb.storclient.get id = some (.record record) →
    record.nid ≠ nid → reached.storclient.get id = some (.record record)
  rows : ∀ url id row, bcdb.rowAt url id = some row → row.nid ≠ nid →
    reached.rowAt url id = some row

theorem KeepsOthers.refl (nid : Nat) (bcdb : BCDB) : KeepsOthers nid bcdb bcdb :=
  ⟨fun _ _ stored _ => stored, fun _ _ _ found _ => found⟩

/-- The queries with a nid find the objects of that nid, and all of them, and
`destroy` and `index_rebuild` with a nid leave the other ones alone. -/
structure Isolates (bcdb : BCDB) (url : Url) (nid : Nat) : Prop where
  ids : ∀ kwargs ids, BCDBModel.findIds url (some nid) kwargs bcdb = .ok ids →
    ∀ id, id ∈ ids ↔ bcdb.InNamespace url nid id ∧ bcdb.Matches url kwargs id
  number : ∀ kwargs number,
    BCDBModel.count url (some nid) kwargs bcdb = .ok number →
    ∃ ids : List Nat, ids.Nodup ∧ ids.length = number ∧
      ∀ id, id ∈ ids ↔ bcdb.InNamespace url nid id ∧ bcdb.Matches url kwargs id
  objects : ∀ kwargs objs reached,
    BCDBModel.find url (some nid) kwargs bcdb = .ok objs reached →
    (∀ obj ∈ objs, obj.nid = nid) ∧
      ∀ obj, obj ∈ objs ↔ ∃ id, bcdb.InNamespace url nid id ∧
        bcdb.Matches url kwargs id ∧ BCDBModel.get url (some id) bcdb = .ok obj bcdb
  walk : ∀ objs reached, BCDBModel.iterate url nid bcdb = .ok objs reached →
    (∀ obj ∈ objs, obj.nid = nid) ∧
      ∀ obj, obj ∈ objs ↔ ∃ id, bcdb.InNamespace url nid id ∧
        BCDBModel.get url (some id) bcdb = .ok obj bcdb
  destroy : KeepsOthers nid bcdb (final (BCDBModel.destroy url nid) bcdb)
  rebuild : KeepsOthers nid bcdb (final (BCDBModel.indexRebuild url nid) bcdb)

/-- All objects of a model have the nid. -/
def OneNamespace (bcdb : BCDB) (url : Url) (nid : Nat) : Prop :=
  ∀ id row, bcdb.rowAt url id = some row → bcdb.InNamespace url nid id

end BCDB

/-! ## What the queries find -/

namespace BCDBModel

theorem tableOf_eq_ok_iff {url : Url} {bcdb : BCDB} {table : Table} :
    tableOf url bcdb = .ok table ↔ ∃ model,
      bcdb.models.find url = some model ∧ bcdb.tables model.key = some table := by
  simp only [tableOf, bind_eq_ok_iff, BCDB.model_eq_ok_iff]
  constructor
  · rintro ⟨model, found, done⟩
    refine ⟨model, found, ?_⟩
    split at done
    · rename_i present
      rw [present, Except.ok.inj done]
    · cases done
  · rintro ⟨model, found, present⟩
    exact ⟨model, found, by rw [present]⟩

/-- A query finds the rows that satisfy its comparisons, each one once. -/
theorem mem_findIds {url : Url} {nid : Option Nat} {kwargs : DataDict}
    {bcdb : BCDB} {ids : List Nat} (done : findIds url nid kwargs bcdb = .ok ids) :
    ids.Nodup ∧ ∀ id, id ∈ ids ↔ bcdb.Matches url kwargs id := by
  simp only [findIds, bind_eq_ok_iff, tableOf_eq_ok_iff, ensure_eq_ok_iff,
    pure_eq_ok_iff] at done
  obtain ⟨table, ⟨model, found, present⟩, values, bound, _, _, rfl⟩ := done
  constructor
  · refine List.Nodup.map_on ?_ ?_
    · intro entry member other otherMember same
      have inTable := table.rows.map.lookup_eq_some_iff.mpr (List.mem_filter.mp member).1
      have inTable' := table.rows.map.lookup_eq_some_iff.mpr
        (List.mem_filter.mp otherMember).1
      rw [same, inTable', Option.some.injEq] at inTable
      exact Prod.ext same inTable.symm
    · exact (table.rows.map.sorted.imp (fun less same => by
        rw [same] at less
        exact Nat.lt_irrefl _ less)).filter _
  · intro id
    simp only [List.mem_map, List.mem_filter, Prod.exists, exists_and_right,
      exists_eq_right, BCDB.Matches, BCDB.rowAt_eq_some_iff]
    constructor
    · rintro ⟨row, member, isMatch⟩
      exact ⟨row, values, ⟨model, table, found, present,
        OrderedMap.lookup_eq_some_iff.mpr member⟩, bound, isMatch⟩
    · rintro ⟨row, values', ⟨model', table', found', present', lookup⟩, bound', isMatch⟩
      rw [found, Option.some.injEq] at found'
      rw [← found', present, Option.some.injEq] at present'
      rw [bound, Except.ok.injEq] at bound'
      rw [present', bound']
      exact ⟨row, OrderedMap.lookup_eq_some_iff.mp lookup, isMatch⟩

/-- Without comparisons a query finds all rows. -/
theorem findIds_all {url : Url} {bcdb : BCDB} {id : Nat} {row : Row}
    (nid : Option Nat) (found : bcdb.rowAt url id = some row) :
    ∃ ids, findIds url nid [] bcdb = .ok ids := by
  obtain ⟨model, table, isModel, present, _⟩ := BCDB.rowAt_eq_some_iff.mp found
  have isTable : tableOf url bcdb = .ok table :=
    tableOf_eq_ok_iff.mpr ⟨model, isModel, present⟩
  refine ⟨(table.rows.map.entries.filter (fun entry =>
    rowMatches [] entry.1 entry.2)).map Prod.fst, ?_⟩
  simp [findIds, isTable, bind, Except.bind, ensure, pure, Except.pure]

theorem matches_nil {url : Url} {bcdb : BCDB} {id : Nat} :
    bcdb.Matches url [] id ↔ ∃ row, bcdb.rowAt url id = some row := by
  simp [BCDB.Matches, rowMatches, pure, Except.pure]

/-- The objects that a walk over ids with `get` returns. -/
theorem mem_getOrSkip {url : Url} {ids : List Nat} {bcdb reached : BCDB}
    {objs : List (Option JSXObject)}
    (walked : ids.mapM (getOrSkip url) bcdb = .ok objs reached) (obj : JSXObject) :
    some obj ∈ objs ↔ ∃ id ∈ ids, get url (some id) bcdb = .ok obj bcdb := by
  have step : ∀ id, getOrSkip url id bcdb = .ok (some obj) bcdb ↔
      get url (some id) bcdb = .ok obj bcdb := by
    intro id
    unfold getOrSkip
    cases outcome : get url (some id) bcdb with
    | ok other between => simp
    | error problem between => cases problem <;> simp
  simp only [mem_mapM_iff (fun id _ => getOrSkip_reads url id) walked, step]

theorem get_reads (url : Url) (id : Option Nat) : Reads (get url id) :=
  fun _ _ _ done => (get_eq_ok done).1.symm

/-- The object that `get` returns has the nid of the record. -/
theorem nid_of_get {url : Url} {id nid : Nat} {bcdb : BCDB} {obj : JSXObject}
    (inside : bcdb.InNamespace url nid id)
    (got : get url (some id) bcdb = .ok obj bcdb) : obj.nid = nid := by
  obtain ⟨_, _, record, _, _, _, stored, _, _, _, rfl⟩ := get_eq_ok got
  exact inside.2 record stored

/-! ## What maintenance leaves alone -/

/-- Nothing was deleted but records of the nid. -/
structure OnlyStore (nid : Nat) (bcdb reached : BCDB) : Prop where
  models : reached.models = bcdb.models
  tables : reached.tables = bcdb.tables
  records : ∀ id record, bcdb.storclient.get id = some (.record record) →
    record.nid ≠ nid → reached.storclient.get id = some (.record record)

theorem storDelete_keeps {bcdb : BCDB} {url : Url} {nid id : Nat}
    (inside : bcdb.InNamespace url nid id) :
    Keeps (OnlyStore nid bcdb) (storDelete id) := by
  refine .advance ?_
  intro state reached done only
  simp only [bind_eq_ok_iff, pure_eq_ok_iff] at done
  obtain ⟨client, deleted, rfl⟩ := done
  refine ⟨only.models, only.tables, ?_⟩
  intro other record stored different
  have notThis : other ≠ id := by
    rintro rfl
    exact different (inside.2 record stored)
  rw [StorClient.delete_eq_ok deleted, StorClient.get,
    OrderedMap.lookup_erase_of_ne _ notThis]
  exact only.records other record stored different

/-- Whatever `index.destroy` does to the table of a model with one nid, the
records and rows of the others stay. -/
theorem indexDestroy_keepsOthers {bcdb state : BCDB} {url : Url} {nid : Nat}
    (one : bcdb.OneNamespace url nid) (only : OnlyStore nid bcdb state)
    (given : Option Nat) :
    BCDB.KeepsOthers nid bcdb (final (indexDestroy url given) state) := by
  have rowAt : ∀ url id, state.rowAt url id = bcdb.rowAt url id := by
    intro url id
    simp only [BCDB.rowAt, only.models, only.tables]
  cases outcome : indexDestroy url given state with
  | error problem reached =>
      rw [final_of_error outcome]
      rw [indexDestroy, advance_eq_error_iff] at outcome
      rw [← outcome.2]
      exact ⟨only.records, fun url id row found _ => by rw [rowAt, found]⟩
  | ok value reached =>
      rw [final_of_ok outcome]
      simp only [indexDestroy, advance_eq_ok_iff, bind_eq_ok_iff,
        BCDB.model_eq_ok_iff, BCDB.writeTable_eq_ok_iff] at outcome
      obtain ⟨model, found, _, table, table', present, _, rfl⟩ := outcome
      constructor
      · intro id record stored different
        rw [BCDB.setTable_storclient]
        exact only.records id record stored different
      intro other id row inTable different
      obtain ⟨model', table'', found', present', lookup⟩ :=
        BCDB.rowAt_eq_some_iff.mp inTable
      refine BCDB.rowAt_eq_some_iff.mpr ⟨model', table'', ?_, ?_, lookup⟩
      · rw [BCDB.setTable_models, only.models]
        exact found'
      · rw [BCDB.setTable_tables_of_ne, only.tables]
        · exact present'
        · -- a row in the table of the model has its nid
          intro sameKey
          rw [only.models] at found
          rw [only.tables] at present
          have own : bcdb.rowAt url id = some row := BCDB.rowAt_eq_some_iff.mpr
            ⟨model, table'', found, by rw [← sameKey]; exact present', lookup⟩
          obtain ⟨⟨row', own', isNid⟩, _⟩ := one id row own
          rw [own, Option.some.injEq] at own'
          exact different (by rw [own']; exact isNid)

theorem OnlyStore.refl (nid : Nat) (bcdb : BCDB) : OnlyStore nid bcdb bcdb :=
  ⟨rfl, rfl, fun _ _ stored _ => stored⟩

theorem OnlyStore.keepsOthers {bcdb reached : BCDB} {nid : Nat}
    (only : OnlyStore nid bcdb reached) : BCDB.KeepsOthers nid bcdb reached := by
  refine ⟨only.records, ?_⟩
  intro url id row found _
  rw [BCDB.rowAt, only.models, only.tables]
  exact found

theorem destroy_keepsOthers {bcdb : BCDB} {url : Url} {nid : Nat}
    (one : bcdb.OneNamespace url nid) :
    BCDB.KeepsOthers nid bcdb (final (destroy url nid) bcdb) := by
  unfold destroy
  by_cases positive : 0 < nid
  · rw [final_seq_of_ok (attempt_eq_ok_iff.mpr ⟨ensure_of positive, rfl⟩)]
    cases asked : findIds url (some nid) [] bcdb with
    | error problem =>
        rw [final_seq_of_error (query_eq_error_iff.mpr ⟨asked, rfl⟩)]
        exact .refl nid bcdb
    | ok ids =>
        rw [final_seq_of_ok (query_eq_ok_iff.mpr ⟨asked, rfl⟩)]
        have inside : ∀ id ∈ ids, bcdb.InNamespace url nid id := by
          intro id member
          obtain ⟨row, found⟩ := matches_nil.mp (((mem_findIds asked).2 id).mp member)
          exact one id row found
        have deletes : Keeps (OnlyStore nid bcdb) (ids.forM storDelete) :=
          .forM (fun id member => storDelete_keeps (inside id member))
        cases outcome : ids.forM storDelete bcdb with
        | error problem between =>
            rw [final_seq_of_error outcome]
            exact (deletes.of_error outcome (.refl nid bcdb)).keepsOthers
        | ok value between =>
            rw [final_seq_of_ok outcome]
            exact indexDestroy_keepsOthers one
              (deletes.of_ok outcome (.refl nid bcdb)) (some 1)
  · rw [final_seq_of_error (attempt_eq_error_iff.mpr ⟨ensure_of_not positive, rfl⟩)]
    exact .refl nid bcdb

theorem indexRebuild_keepsOthers {bcdb : BCDB} {url : Url} {nid : Nat}
    (one : bcdb.OneNamespace url nid) :
    BCDB.KeepsOthers nid bcdb (final (indexRebuild url nid) bcdb) := by
  have destroyed := indexDestroy_keepsOthers one (.refl nid bcdb) (some nid)
  cases outcome : indexDestroy url (some nid) bcdb with
  | error problem between =>
      rw [indexRebuild, final_seq_of_error outcome]
      rw [final_of_error outcome] at destroyed
      exact destroyed
  | ok value between =>
      rw [final_of_ok outcome] at destroyed
      rw [indexRebuild, final_seq_of_ok outcome]
      -- no row of the model is left, so nothing is indexed again
      have noRow : ∀ id row, between.rowAt url id ≠ some row := by
        intro id row found
        simp only [indexDestroy, advance_eq_ok_iff, bind_eq_ok_iff,
          BCDB.model_eq_ok_iff, BCDB.writeTable_eq_ok_iff, Except.ok.injEq] at outcome
        obtain ⟨model, isModel, _, table, _, present, rfl, rfl⟩ := outcome
        obtain ⟨model', table', isModel', present', lookup⟩ :=
          BCDB.rowAt_eq_some_iff.mp found
        rw [BCDB.setTable_models, isModel, Option.some.injEq] at isModel'
        rw [← isModel', BCDB.setTable_tables_self, Option.some.injEq] at present'
        rw [← present'] at lookup
        split at lookup
        · obtain ⟨inTable, different⟩ := Table.lookup_deleteByNid_eq_some_iff.mp lookup
          obtain ⟨⟨row', own, isNid⟩, _⟩ := one id row
            (BCDB.rowAt_eq_some_iff.mpr ⟨model, table, isModel, present, inTable⟩)
          have own' := BCDB.rowAt_eq_some_iff.mpr ⟨model, table, isModel, present, inTable⟩
          rw [own, Option.some.injEq] at own'
          exact different (by rw [← own']; exact isNid)
        · rw [Table.lookup_create] at lookup
          cases lookup
      cases asked : findIds url (some nid) [] between with
      | error problem =>
          rw [final_seq_of_error (query_eq_error_iff.mpr ⟨asked, rfl⟩)]
          exact destroyed
      | ok ids =>
          have none : ids = [] := by
            rw [List.eq_nil_iff_forall_not_mem]
            intro id member
            obtain ⟨row, found⟩ := matches_nil.mp (((mem_findIds asked).2 id).mp member)
            exact noRow id row found
          rw [final_seq_of_ok (query_eq_ok_iff.mpr ⟨asked, rfl⟩), none]
          exact destroyed

/-- A nid is isolated in a model exactly when the model has no other nid. -/
theorem isolates_iff {bcdb : BCDB} {url : Url} {nid : Nat} :
    bcdb.Isolates url nid ↔ bcdb.OneNamespace url nid := by
  constructor
  · intro isolates id row found
    obtain ⟨ids, asked⟩ := findIds_all (some nid) found
    have member := ((mem_findIds asked).2 id).mpr (matches_nil.mpr ⟨row, found⟩)
    exact ((isolates.ids [] ids asked id).mp member).1
  · intro one
    have inside : ∀ kwargs id, bcdb.Matches url kwargs id →
        bcdb.InNamespace url nid id := by
      rintro kwargs id ⟨row, _, found, _⟩
      exact one id row found
    have all : ∀ kwargs ids, findIds url (some nid) kwargs bcdb = .ok ids →
        ∀ id, id ∈ ids ↔ bcdb.InNamespace url nid id ∧ bcdb.Matches url kwargs id := by
      intro kwargs ids asked id
      rw [(mem_findIds asked).2]
      exact ⟨fun matching => ⟨inside kwargs id matching, matching⟩, And.right⟩
    refine ⟨all, ?_, ?_, ?_, destroy_keepsOthers one, indexRebuild_keepsOthers one⟩
    · intro kwargs number counted
      unfold count at counted
      cases asked : findIds url (some nid) kwargs bcdb with
      | error problem =>
          rw [asked] at counted
          cases counted
      | ok ids =>
          rw [asked] at counted
          cases counted
          exact ⟨ids, (mem_findIds asked).1, rfl, all kwargs ids asked⟩
    · intro kwargs objs reached done
      simp only [find, seq_eq_ok_iff, query_eq_ok_iff, return_eq_ok_iff] at done
      obtain ⟨ids, _, ⟨asked, rfl⟩, found, _, walked, rfl, rfl⟩ := done
      have members : ∀ obj, obj ∈ found.filterMap id ↔
          ∃ id, bcdb.InNamespace url nid id ∧ bcdb.Matches url kwargs id ∧
            get url (some id) bcdb = .ok obj bcdb := by
        intro obj
        simp only [List.mem_filterMap, id_eq, exists_eq_right, mem_getOrSkip walked,
          all kwargs ids asked, and_assoc]
      refine ⟨?_, members⟩
      intro obj member
      obtain ⟨id, isInside, _, got⟩ := (members obj).mp member
      exact nid_of_get isInside got
    · intro objs reached done
      simp only [iterate, seq_eq_ok_iff, query_eq_ok_iff] at done
      obtain ⟨ids, _, ⟨asked, rfl⟩, walked⟩ := done
      have members : ∀ obj, obj ∈ objs ↔ ∃ id, bcdb.InNamespace url nid id ∧
          get url (some id) bcdb = .ok obj bcdb := by
        intro obj
        rw [mem_mapM_iff (fun id _ => get_reads url (some id)) walked]
        constructor
        · rintro ⟨id, member, got⟩
          exact ⟨id, ((all [] ids asked id).mp member).1, got⟩
        · rintro ⟨id, isInside, got⟩
          obtain ⟨row, found, _⟩ := isInside.1
          exact ⟨id, (all [] ids asked id).mpr ⟨isInside, matches_nil.mpr ⟨row, found⟩⟩,
            got⟩
      refine ⟨?_, members⟩
      intro obj member
      obtain ⟨id, isInside, got⟩ := (members obj).mp member
      exact nid_of_get isInside got

end BCDBModel

/-! ## An object of another nid -/

/-- A new object of the nid two is set. -/
def setSecondNid : Call :=
  .set "test.one" ⟨{ (nameSchema "test.one" "1").named "a" none with nid := 2 }, .none⟩
    true true

def afterSecondNid : BCDB := final setSecondNid.run twoModels

/-- A query for the first nid finds the object of the second one, and
destroying the first one deletes it. -/
theorem secondNid_not_isolated :
    Run Call.Step twoModels [setSecondNid] afterSecondNid ∧
      ¬ afterSecondNid.Isolates "test.one" 1 ∧
      (final (BCDBModel.destroy "test.one" 1) afterSecondNid).storclient.get 1 = none := by
  have step : setSecondNid.Step twoModels afterSecondNid := rfl
  refine ⟨.cons step (.nil _), ?_, rfl⟩
  intro isolates
  have asked : BCDBModel.findIds "test.one" (some 1) [] afterSecondNid = .ok [1] := rfl
  obtain ⟨⟨⟨row, found, isNid⟩, _⟩, _⟩ :=
    (isolates.ids [] [1] asked 1).mp List.mem_cons_self
  have present : afterSecondNid.rowAt "test.one" 1 =
      some { nid := 2, cols := [("name", .text "a")] } := rfl
  rw [present, Option.some.injEq] at found
  rw [← found] at isNid
  cases isNid

end JumpscaleX
