import JumpscaleX.Frames
import JumpscaleX.IdAllocation
import JumpscaleX.MigrateModels
import JumpscaleX.UniqueSave

/-!
# What a migration keeps

The contents of the two models while `migrate_models` runs.  A run that returns
has moved every source object, and one that raises has lost none, when the
source objects are portable; a run that returns has moved them only then.
-/

namespace JumpscaleX

open Fallible Stateful

/-- The rows of the two tables are those of the given records. -/
structure BCDB.Contains (bcdb : BCDB) (fromKey toKey : String)
    (source target : Nat → Option Record) : Prop where
  fromTable : ∃ table, bcdb.tables fromKey = some table ∧
    ∀ id, (table.lookup id).isSome = (source id).isSome
  toTable : ∃ table, bcdb.tables toKey = some table ∧
    ∀ id, (table.lookup id).isSome = (target id).isSome
  fromRecords : ∀ id record, source id = some record →
    bcdb.storclient.get id = some (.record record)
  toRecords : ∀ id record, target id = some record →
    bcdb.storclient.get id = some (.record record)
  apart : ∀ id, source id = none ∨ target id = none

namespace BCDB.Contains

variable {bcdb : BCDB} {fromKey toKey : String} {source target : Nat → Option Record}

/-- Nothing of the two models stands under a free id. -/
theorem free (contains : bcdb.Contains fromKey toKey source target) {id : Nat}
    (free : bcdb.storclient.get id = none) : source id = none ∧ target id = none := by
  constructor
  · cases found : source id with
    | none => rfl
    | some record =>
        have stored := contains.fromRecords id record found
        rw [free] at stored
        cases stored
  · cases found : target id with
    | none => rfl
    | some record =>
        have stored := contains.toRecords id record found
        rw [free] at stored
        cases stored

/-- Opening models and taking free ids of the store leaves the contents. -/
theorem extended (contains : bcdb.Contains fromKey toKey source target) {reached : BCDB}
    (tables : ∀ key table, bcdb.tables key = some table → reached.tables key = some table)
    (store : ∀ id data, bcdb.storclient.get id = some data →
      reached.storclient.get id = some data) :
    reached.Contains fromKey toKey source target := by
  obtain ⟨table, present, rows⟩ := contains.fromTable
  obtain ⟨table', present', rows'⟩ := contains.toTable
  exact ⟨⟨table, tables _ _ present, rows⟩, ⟨table', tables _ _ present', rows'⟩,
    fun id record found => store id _ (contains.fromRecords id record found),
    fun id record found => store id _ (contains.toRecords id record found), contains.apart⟩

theorem closedOpen (fromKey toKey : String) (source target : Nat → Option Record) :
    BCDB.ClosedOpen (fun bcdb => bcdb.Contains fromKey toKey source target) where
  modelAdd := by
    intro bcdb reached url made contains
    obtain ⟨schema, _, rfl⟩ := BCDB.modelAdd_eq_ok_iff.mp made
    apply contains.extended
    · intro key table present
      rw [BCDB.addModel_tables]
      split
      · rename_i missing
        have different : key ≠ schema.model.key := by
          intro same
          subst same
          simp [present] at missing
        rw [Function.update_of_ne different]
        exact present
      · exact present
    · intro id data stored
      exact stored
  schemaChange := by
    intro bcdb schema contains
    have same := BCDB.schemaChange_sameStore bcdb schema
    apply contains.extended
    · intro key table present
      rw [(BCDB.schemaChange_frame bcdb schema).2.2.1]
      exact present
    · intro id data stored
      rw [same.storclient]
      exact stored

/-- A new object of the target model comes to stand under a free id. -/
theorem puts (contains : bcdb.Contains fromKey toKey source target)
    (different : fromKey ≠ toKey) {url : Url} {model : Model}
    (found : bcdb.models.find url = some model) (key : model.key = toKey) {id : Nat}
    {obj : JSXObject} {reached : BCDB} (isNew : obj.id = none)
    (room : bcdb.storclient.Room 1) (puts : Puts url id obj bcdb reached) {message : Message}
    (serialised : obj.toCapnp = .ok message) :
    id = bcdb.storclient.nextId ∧
      reached.Contains fromKey toKey source
        (Function.update target id (some (obj.record message))) := by
  obtain ⟨message', other, row, table, table', client, serialised', found', _, present, put,
    stores, rfl⟩ := puts.effect
  have sameModel : model = other := Option.some.inj (found.symm.trans found')
  subst sameModel
  have sameMessage : message' = message := Except.ok.inj (serialised'.symm.trans serialised)
  subst sameMessage
  rw [isNew] at stores
  obtain ⟨kvs, _, isNext⟩ := stores.kvs (fun _ => room.1)
  have next : id = bcdb.storclient.nextId := isNext rfl
  have isFree : bcdb.storclient.get id = none := by
    rw [next]
    exact room.2 0 Nat.zero_lt_one
  obtain ⟨noSource, noTarget⟩ := contains.free isFree
  have stored : ∀ other, client.get other =
      if other = id then some (.record (obj.record message')) else
        bcdb.storclient.get other := by
    intro other
    rw [StorClient.get, kvs, OrderedMap.lookup_insert]
    rfl
  obtain ⟨fromTable, fromPresent, fromRows⟩ := contains.fromTable
  obtain ⟨toTable, toPresent, toRows⟩ := contains.toTable
  rw [key, toPresent, Option.some.injEq] at present
  subst present
  have noRow : toTable.lookup id = none := by
    have empty := toRows id
    rw [noTarget] at empty
    simpa using empty
  have lookups : ∀ other, table'.lookup other =
      if other = id then some row else toTable.lookup other := by
    rw [Table.set, noRow] at put
    exact (Table.putRow_eq_ok put).2.2
  refine ⟨next, ⟨fromTable, ?_, fromRows⟩, ⟨table', ?_, ?_⟩, ?_, ?_, ?_⟩
  · simp only [key, Function.update_of_ne different, fromPresent]
  · simp only [key, Function.update_self]
  · intro other
    rw [lookups]
    by_cases same : other = id
    · simp [same]
    · simp [same, toRows]
  · intro other record isSource
    have apart : other ≠ id := by
      rintro rfl
      rw [noSource] at isSource
      cases isSource
    simp only [stored, if_neg apart, contains.fromRecords other record isSource]
  · intro other record isTarget
    by_cases same : other = id
    · subst same
      rw [Function.update_self] at isTarget
      cases isTarget
      simp [stored]
    · rw [Function.update_of_ne same] at isTarget
      simp only [stored, if_neg same, contains.toRecords other record isTarget]
  · intro other
    by_cases same : other = id
    · exact .inl (same ▸ noSource)
    · rw [Function.update_of_ne same]
      exact contains.apart other

/-- An object of the source model is gone. -/
theorem removes (contains : bcdb.Contains fromKey toKey source target)
    (different : fromKey ≠ toKey) {url : Url} {model : Model}
    (found : bcdb.models.find url = some model) (key : model.key = fromKey) {id : Nat}
    {reached : BCDB} (isSource : target id = none) (removes : Removes url id bcdb reached) :
    reached.Contains fromKey toKey (Function.update source id none) target := by
  obtain ⟨other, table, found', present, rfl⟩ := removes.effect
  have sameModel : model = other := Option.some.inj (found.symm.trans found')
  subst sameModel
  obtain ⟨fromTable, fromPresent, fromRows⟩ := contains.fromTable
  obtain ⟨toTable, toPresent, toRows⟩ := contains.toTable
  rw [key, fromPresent, Option.some.injEq] at present
  subst present
  have stored : ∀ other, (bcdb.storclient.kvs.erase id).lookup other =
      if other = id then none else bcdb.storclient.get other :=
    OrderedMap.lookup_erase _ id
  refine ⟨⟨fromTable.deleteById id, ?_, ?_⟩, ⟨toTable, ?_, toRows⟩, ?_, ?_, ?_⟩
  · simp only [key, Function.update_self]
  · intro other
    rw [Table.lookup_deleteById]
    by_cases same : other = id
    · simp [same]
    · simp [same, fromRows]
  · simp only [key, Function.update_of_ne different.symm, toPresent]
  · intro other record isOther
    have apart : other ≠ id := by
      rintro rfl
      rw [Function.update_self] at isOther
      cases isOther
    rw [Function.update_of_ne apart] at isOther
    rw [StorClient.get, stored, if_neg apart, contains.fromRecords other record isOther]
  · intro other record isOther
    have apart : other ≠ id := by
      rintro rfl
      rw [isSource] at isOther
      cases isOther
    rw [StorClient.get, stored, if_neg apart, contains.toRecords other record isOther]
  · intro other
    by_cases same : other = id
    · left
      rw [same, Function.update_self]
    · rw [Function.update_of_ne same]
      exact contains.apart other

end BCDB.Contains

namespace BCDBModel

/-! ## A set that raises -/

theorem data_error_bcdb {session reached : Session} {problem : Exn}
    (failed : data session = .error problem reached) : reached.bcdb = session.bcdb := by
  simp only [data, get_seq, seq_eq_error_iff, attempt_eq_error_iff, attempt_eq_ok_iff,
    Session.setObj, modify_seq] at failed
  obtain ⟨_, rfl⟩ | ⟨_, _, ⟨_, rfl⟩, _, rfl⟩ := failed
  · rfl
  · rfl

theorem storAppend_error_bcdb {record : Record} {session reached : Session} {problem : Exn}
    (failed : storAppend record session = .error problem reached) :
    reached.bcdb = session.bcdb := by
  simp only [storAppend, get_seq, seq_eq_error_iff, attempt_eq_error_iff, attempt_eq_ok_iff]
    at failed
  obtain ⟨_, rfl⟩ | ⟨_, _, ⟨_, rfl⟩, impossible⟩ := failed
  · rfl
  · exact (modify_ne_error impossible).elim

/-- A new object whose record cannot be written leaves the store as it was. -/
theorem setRecord_error_bcdb {session reached : Session} {problem : Exn}
    (isNew : session.obj.id = none) (started : session.bcdb.storclient.nextId ≠ 0)
    (failed : setRecord session = .error problem reached) :
    reached.bcdb = session.bcdb := by
  simp only [setRecord, seq_eq_error_iff, attempt_eq_error_iff, attempt_eq_ok_iff,
    data_eq_ok_iff, get_seq] at failed
  obtain failed | ⟨_, _, ⟨message, _, _, _, rfl⟩, failed⟩ := failed
  · exact data_error_bcdb failed
  obtain ⟨_, rfl⟩ | ⟨_, _, ⟨_, rfl⟩, failed⟩ := failed
  · rfl
  simp only [storSet, get_seq, isNew, storNew, seq_eq_error_iff, attempt_eq_error_iff,
    runIf_eq_error_iff, runIf_eq_ok_iff] at failed
  obtain failed | ⟨_, between, appended, failed⟩ := failed
  · have same := storAppend_error_bcdb failed
    exact same
  obtain ⟨id, client, added, rfl⟩ := storAppend_eq_ok appended
  have notFirst : id ≠ 0 := by
    rw [(StorClient.append_eq_ok added).1]
    exact started
  obtain ⟨first, _⟩ | ⟨_, _, ⟨first, _⟩ | ⟨_, rfl⟩, failed⟩ := failed
  · exact (notFirst (Option.some.inj first)).elim
  · exact (notFirst (Option.some.inj first)).elim
  · rw [ensure_of (by simpa using notFirst)] at failed
    cases failed.1

variable {fromKey toKey : String} {source target : Nat → Option Record}

/-- A set of a new object that raises leaves the contents of the models. -/
theorem setWith_error_contains {url : Url} {session reached : Session} {problem : Exn}
    (contains : session.bcdb.Contains fromKey toKey source target)
    (isNew : session.obj.id = none) (room : session.bcdb.storclient.Room 1)
    (failed : setWith (pure ()) url true true session = .error problem reached) :
    reached.bcdb.Contains fromKey toKey source target := by
  simp only [setWith, setStore, get_seq, seq_eq_error_iff, attempt_eq_error_iff,
    attempt_eq_ok_iff, runIf_eq_error_iff, runIf_eq_ok_iff, Session.setObj, modify_seq,
    return_seq] at failed
  obtain ⟨_, rfl⟩ | ⟨_, _, ⟨_, rfl⟩, ⟨_, failed⟩ | ⟨_, _, ⟨_, stored⟩ | ⟨impossible, _⟩,
    _, failed⟩⟩ := failed
  · exact contains
  · have same := setRecord_error_bcdb (by exact isNew) (by exact room.1) failed
    rw [same]
    exact contains
  · obtain ⟨message, id, client, _, stores, rfl⟩ := (setRecord_eq_ok stored).effect
    rw [setIndex_eq_error failed]
    rw [isNew] at stores
    obtain ⟨kvs, _, isNext⟩ := stores.kvs (fun _ => room.1)
    apply contains.extended
    · intro key table present
      exact present
    · intro other data present
      have different : other ≠ id := by
        intro same
        have isFree := room.2 0 Nat.zero_lt_one
        rw [same, isNext rfl] at present
        rw [Nat.add_zero, present] at isFree
        cases isFree
      rw [StorClient.get, kvs, OrderedMap.lookup_insert_of_ne _ different]
      exact present
  · exact (impossible trivial).elim

/-! ## An object without ACL -/

/-- Computations that agree in the states they come to agree. -/
theorem seq_congr {α β : Type} {first : SessionM α} {next next' : α → SessionM β}
    {session : Session}
    (same : ∀ value between, first session = .ok value between →
      next value between = next' value between) :
    (first >>= next) session = (first >>= next') session := by
  simp only [bind, EStateM.bind]
  cases outcome : first session with
  | ok value between => exact same value between outcome
  | error problem between => rfl

theorem setWith_plain {url : Url} {session : Session} (plain : session.acl = .none) :
    setWith attachAcl url true true session =
      setWith (pure ()) url true true session := by
  have stores : setStore attachAcl session = setStore (pure ()) session := by
    simp only [setStore, get_seq, Session.setObj, modify_seq, attachAcl, plain]
    rfl
  simp only [setWith, get_seq]
  apply seq_congr
  intro _ between checked
  obtain ⟨_, rfl⟩ := attempt_eq_ok_iff.mp checked
  simp only [runIf, if_true, bind, EStateM.bind, stores]

theorem saveInModel_plain {url : Url} {model : Model} {session : Session}
    (plain : session.acl = .none) :
    saveInModel saveAcl attachAcl url model session =
      saveInModel (pure ()) (pure ()) url model session := by
  have nothing : runIf (url ≠ aclUrl) saveAcl session = .ok () session := by
    unfold runIf
    split
    · simp only [saveAcl, get_seq, plain]
      rfl
    · rfl
  simp only [saveInModel, get_seq]
  apply seq_congr
  intro _ between checked
  obtain ⟨_, rfl⟩ := attempt_eq_ok_iff.mp checked
  rw [seq_of_ok nothing, runIf_return, return_seq, get_seq, get_seq]
  apply seq_congr
  intro _ after unique
  simp only [Session.onBcdb, onPart_eq_ok_iff] at unique
  obtain ⟨bcdb, _, rfl⟩ := unique
  have sets := @setWith_plain url { session with bcdb := bcdb } plain
  simp only [bind, EStateM.bind, sets]

/-- Without an ACL there is nothing to save or to attach. -/
theorem save_plain {session : Session} (plain : session.acl = .none) :
    save session = saveWith (pure ()) (pure ()) session := by
  simp only [save, saveWith, get_seq]
  unfold runIf
  split
  · simp only [saveChanged, get_seq]
    apply seq_congr
    intro message between serialised
    obtain ⟨_, rfl⟩ := attempt_eq_ok_iff.mp serialised
    simp only [Session.setObj, modify_seq]
    cases attached : session.obj.model with
    | none => rfl
    | some url =>
        apply seq_congr
        intro model after asked
        simp only [Session.onBcdb, onPart_eq_ok_iff, query_eq_ok_iff] at asked
        obtain ⟨_, ⟨_, rfl⟩, rfl⟩ := asked
        unfold runIf
        split
        · exact saveInModel_plain plain
        · rfl
  · rfl

theorem saveInModel_error_contains {url : Url} {model : Model} {session reached : Session}
    {problem : Exn} (contains : session.bcdb.Contains fromKey toKey source target)
    (isNew : session.obj.id = none) (room : session.bcdb.storclient.Room 1)
    (failed : saveInModel (pure ()) (pure ()) url model session = .error problem reached) :
    reached.bcdb.Contains fromKey toKey source target := by
  have unique : Keeps (fun session => session.bcdb.Contains fromKey toKey source target)
      (Session.onBcdb (model.schema.propertiesUnique.forM (checkUnique url session.obj))) :=
    Session.onBcdb_keeps (.forM (fun prop _ =>
      checkUnique_keeps (BCDB.Contains.closedOpen fromKey toKey source target) url
        session.obj prop))
  simp only [saveInModel, get_seq, return_seq, runIf_return, seq_eq_error_iff,
    attempt_eq_error_iff, attempt_eq_ok_iff] at failed
  obtain ⟨_, rfl⟩ | ⟨_, _, ⟨_, rfl⟩, failed⟩ := failed
  · exact contains
  obtain failed | ⟨_, _, checked, failed⟩ := failed
  · exact unique.of_error failed contains
  simp only [Session.onBcdb, onPart_eq_ok_iff] at checked
  obtain ⟨bcdb, checked, rfl⟩ := checked
  have same := Reads.forM (fun prop _ => checkUnique_reads url _ prop) _ _ _ checked
  subst same
  obtain failed | ⟨_, after, done, failed, _⟩ := failed
  · exact setWith_error_contains contains isNew room failed
  · obtain ⟨_, id, notFirst, _, _, named, _⟩ := setWith_eq_ok done
    rw [ensure_of (by simpa [named] using notFirst)] at failed
    cases failed

/-- A save of a new object that raises leaves the contents of the models. -/
theorem save_error_contains {session reached : Session} {problem : Exn}
    (contains : session.bcdb.Contains fromKey toKey source target)
    (isNew : session.obj.id = none) (plain : session.acl = .none)
    (room : session.bcdb.storclient.Room 1)
    (failed : save session = .error problem reached) :
    reached.bcdb.Contains fromKey toKey source target := by
  rw [save_plain plain] at failed
  simp only [saveWith, saveChanged, get_seq, runIf_eq_error_iff, seq_eq_error_iff,
    attempt_eq_error_iff, attempt_eq_ok_iff, Session.setObj, modify_seq] at failed
  obtain ⟨_, ⟨_, rfl⟩ | ⟨message, _, ⟨_, rfl⟩, failed⟩⟩ := failed
  · exact contains
  cases attached : session.obj.model with
  | none =>
      rw [attached] at failed
      exact (modify_ne_error failed).elim
  | some url =>
      rw [attached] at failed
      simp only [seq_eq_error_iff, Session.onBcdb, onPart_eq_error_iff, onPart_eq_ok_iff,
        query_eq_error_iff, query_eq_ok_iff, runIf_eq_error_iff] at failed
      obtain ⟨_, ⟨_, rfl⟩, rfl⟩ | ⟨model, _, ⟨_, ⟨_, rfl⟩, rfl⟩, _, failed⟩ := failed
      · exact contains
      · apply saveInModel_error_contains _ _ _ failed
        · exact contains
        · exact isNew
        · exact room

theorem setWith_writable {url : Url} {session reached : Session} {value : Unit}
    (done : setWith (pure ()) url true true session = .ok value reached) :
    session.bcdb.indexReadonly = false := by
  simp only [setWith, setStore, setIndex, get_seq, seq_eq_ok_iff, attempt_eq_ok_iff,
    runIf_eq_ok_iff, rename_eq_ok_iff, Session.setObj, modify_seq, return_seq] at done
  obtain ⟨_, _, ⟨_, rfl⟩, _, _, ⟨_, stored⟩ | ⟨impossible, _⟩, indexed⟩ := done
  · obtain ⟨message, id, client, _, _, rfl⟩ := (setRecord_eq_ok stored).effect
    obtain ⟨_, _, _, ⟨impossible, _⟩ | ⟨_, rfl⟩, indexed⟩ | ⟨impossible, _⟩ := indexed
    · cases impossible
    · obtain ⟨_, _, _, _, _, _, _, _, named, _⟩ := indexSet_eq_ok indexed
      rw [indexSet_eq_ok_iff rfl named] at indexed
      exact indexed.2.1
    · exact (impossible trivial).elim
  · exact (impossible trivial).elim

/-- What a save of an object without ACL has done to the database. -/
theorem save_eq_ok {url : Url} {model : Model} {session reached : Session} {value : Unit}
    (plain : session.acl = .none) (isModel : session.obj.model = some url)
    (found : session.bcdb.models.find url = some model) (keeps : model.nosave = false)
    (done : save session = .ok value reached) :
    session.obj.changed = false ∧ reached.bcdb = session.bcdb ∨
      session.obj.changed = true ∧ session.bcdb.indexReadonly = false ∧ ∃ message id,
        session.obj.toCapnp = .ok message ∧
        Puts url id
          { session.obj with
            capnpObj := message
            aclId := some (session.obj.aclId.getD 0) }
          session.bcdb reached.bcdb := by
  rw [save_plain plain] at done
  obtain ⟨unsaved, same, _⟩ | ⟨savable, url', id, message, isModel', serialised, puts⟩ :=
    saveWith_pure_eq_ok done
  · left
    refine ⟨?_, same⟩
    cases changed : session.obj.changed with
    | false => rfl
    | true => exact (unsaved ⟨changed, url, model, isModel, found, keeps⟩).elim
  · right
    have sameUrl : url' = url := Option.some.inj (isModel'.symm.trans isModel)
    subst sameUrl
    refine ⟨savable.1, ?_, message, id, serialised, puts⟩
    have asked : BCDB.model url' session.bcdb = .ok model := BCDB.model_eq_ok_iff.mpr found
    simp only [saveWith, saveChanged, get_seq, runIf_eq_ok_iff, seq_eq_ok_iff,
      attempt_eq_ok_iff, Session.setObj, modify_seq, isModel, Session.onBcdb,
      onPart_eq_ok_iff, query_eq_ok_iff, saveInModel, return_seq, runIf_return] at done
    obtain ⟨_, _, _, ⟨_, rfl⟩, other, _, ⟨_, ⟨asked', rfl⟩, rfl⟩, done⟩ | ⟨unchanged, _⟩ :=
      done
    · have same : model = other := Except.ok.inj (asked.symm.trans asked')
      subst same
      obtain ⟨_, _, _, ⟨_, rfl⟩, _, _, ⟨bcdb, checked, rfl⟩, _, _, stored, _⟩ |
        ⟨nosave, _⟩ := done
      · have same := Reads.forM (fun prop _ => checkUnique_reads url' _ prop) _ _ _ checked
        subst same
        have writable := setWith_writable stored
        exact writable
      · exact (nosave keeps).elim
    · exact (unchanged savable.1).elim

/-! ## A deletion -/

/-- With an index that can be written a deletion from the store does not stop
halfway. -/
theorem deleteStored_eq_error {url : Url} {id : Nat} {bcdb reached : BCDB} {problem : Exn}
    {model : Model} {table : Table} (found : bcdb.models.find url = some model)
    (present : bcdb.tables model.key = some table) (writable : bcdb.indexReadonly = false)
    (failed : deleteStored url id bcdb = .error problem reached) : reached = bcdb := by
  simp only [deleteStored, storDelete, indexDeleteById, seq_eq_error_iff,
    advance_eq_error_iff, advance_eq_ok_iff, bind_eq_ok_iff, pure_eq_ok_iff] at failed
  obtain ⟨_, rfl⟩ | ⟨_, _, ⟨client, _, rfl⟩, failed, rfl⟩ := failed
  · rfl
  · have asked : BCDB.model url { bcdb with storclient := client } = .ok model :=
      BCDB.model_eq_ok_iff.mpr found
    rw [asked] at failed
    simp only [BCDB.writeTable, present, writable, ensure, bind, Except.bind, pure,
      Except.pure, if_true] at failed
    cases failed

/-- What a deletion that raises has done to the database. -/
theorem objDelete_eq_error {url : Url} {id : Nat} {session reached : Session}
    {problem : Exn} {model : Model} {table : Table}
    (found : session.bcdb.models.find url = some model)
    (present : session.bcdb.tables model.key = some table)
    (writable : session.bcdb.indexReadonly = false) (isModel : session.obj.model = some url)
    (named : session.obj.id = some id)
    (failed : objDelete session = .error problem reached) :
    reached.bcdb = session.bcdb ∨ Removes url id session.bcdb reached.bcdb := by
  have asked : BCDB.model url session.bcdb = .ok model := BCDB.model_eq_ok_iff.mpr found
  simp only [objDelete, get_seq, isModel, seq_eq_error_iff, Session.onBcdb,
    onPart_eq_error_iff, onPart_eq_ok_iff, query_eq_error_iff, query_eq_ok_iff,
    runIf_eq_error_iff, asked] at failed
  obtain ⟨_, ⟨impossible, _⟩, _⟩ | ⟨_, _, ⟨_, ⟨same, rfl⟩, rfl⟩, _, failed⟩ := failed
  · cases impossible
  cases same
  simp only [objDeleteInModel, seq_eq_error_iff, attempt_eq_error_iff, attempt_eq_ok_iff,
    runIf_eq_error_iff, runIf_eq_ok_iff] at failed
  obtain ⟨_, rfl⟩ | ⟨_, _, ⟨_, rfl⟩, failed⟩ := failed
  · exact .inl rfl
  obtain ⟨_, failed⟩ | ⟨_, between, deleted, failed⟩ := failed
  · simp only [deleteObj, get_seq, named, seq_eq_error_iff, attempt_eq_error_iff,
      attempt_eq_ok_iff, Session.onBcdb, onPart_eq_error_iff] at failed
    obtain ⟨_, rfl⟩ | ⟨_, _, ⟨_, rfl⟩, _, failed, rfl⟩ := failed
    · exact .inl rfl
    · exact .inl (deleteStored_eq_error found present writable failed)
  · have kept : reached.bcdb = between.bcdb := by
      simp only [reset, get_seq, seq_eq_error_iff, attempt_eq_error_iff, attempt_eq_ok_iff,
        Session.setObj] at failed
      obtain ⟨_, rfl⟩ | ⟨_, _, _, failed⟩ := failed
      · rfl
      · exact (modify_ne_error failed).elim
    rw [kept]
    obtain ⟨_, deleted⟩ | ⟨_, rfl⟩ := deleted
    · obtain ⟨absent, _⟩ | ⟨other, named', removes⟩ := deleteObj_eq_ok deleted
      · rw [named] at absent
        cases absent
      · have same : other = id := Option.some.inj (named'.symm.trans named)
        rw [← same]
        exact .inr removes
    · exact .inl rfl

/-- What a deletion that returns has done to the database. -/
theorem objDelete_removes {url : Url} {id : Nat} {session reached : Session} {value : Unit}
    {model : Model} (found : session.bcdb.models.find url = some model)
    (keeps : model.nosave = false) (notAcl : url ≠ aclUrl)
    (isModel : session.obj.model = some url) (named : session.obj.id = some id)
    (done : objDelete session = .ok value reached) :
    Removes url id session.bcdb reached.bcdb := by
  have asked : BCDB.model url session.bcdb = .ok model := BCDB.model_eq_ok_iff.mpr found
  simp only [objDelete, get_seq, isModel, seq_eq_ok_iff, Session.onBcdb, onPart_eq_ok_iff,
    query_eq_ok_iff, runIf_eq_ok_iff, asked] at done
  obtain ⟨_, _, ⟨_, ⟨same, rfl⟩, rfl⟩, ⟨_, done⟩ | ⟨nosave, _⟩⟩ := done
  · cases same
    simp only [objDeleteInModel, seq_eq_ok_iff, attempt_eq_ok_iff, runIf_eq_ok_iff] at done
    obtain ⟨_, _, ⟨_, rfl⟩, _, between, ⟨_, deleted⟩ | ⟨isAcl, _⟩, done⟩ := done
    · have kept : reached.bcdb = between.bcdb := by
        simp only [reset, get_seq, seq_eq_ok_iff, attempt_eq_ok_iff, Session.setObj,
          modify_eq_ok_iff] at done
        obtain ⟨_, _, ⟨_, rfl⟩, rfl⟩ := done
        rfl
      rw [kept]
      obtain ⟨absent, _⟩ | ⟨other, named', removes⟩ := deleteObj_eq_ok deleted
      · rw [named] at absent
        cases absent
      · have same : other = id := Option.some.inj (named'.symm.trans named)
        rw [← same]
        exact removes
    · exact (isAcl notAcl).elim
  · cases same
    exact (nosave keeps).elim

/-- The model of the ACLs deletes nothing. -/
theorem objDelete_acl {session reached : Session} {value : Unit}
    (isModel : session.obj.model = some aclUrl)
    (done : objDelete session = .ok value reached) : reached.bcdb = session.bcdb := by
  have resets : ∀ {session reached : Session} {value : Unit},
      reset session = .ok value reached → reached.bcdb = session.bcdb := by
    intro session reached value done
    simp only [reset, get_seq, seq_eq_ok_iff, attempt_eq_ok_iff, Session.setObj,
      modify_eq_ok_iff] at done
    obtain ⟨_, _, ⟨_, rfl⟩, rfl⟩ := done
    rfl
  simp only [objDelete, get_seq, isModel, seq_eq_ok_iff, Session.onBcdb, onPart_eq_ok_iff,
    query_eq_ok_iff, runIf_eq_ok_iff] at done
  obtain ⟨_, _, ⟨_, ⟨_, rfl⟩, rfl⟩, ⟨_, done⟩ | ⟨_, rfl⟩⟩ := done
  · simp only [objDeleteInModel, seq_eq_ok_iff, attempt_eq_ok_iff, runIf_eq_ok_iff] at done
    obtain ⟨_, _, ⟨_, rfl⟩, _, _, ⟨isAcl, _⟩ | ⟨_, rfl⟩, done⟩ := done
    · exact (isAcl rfl).elim
    · exact resets done
  · rfl

end BCDBModel

end JumpscaleX
