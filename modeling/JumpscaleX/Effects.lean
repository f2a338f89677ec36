import JumpscaleX.BCDBModel

/-!
# What successful calls do

One lemma for each operation that says what a call which returns has done to
the database and to the object.  `Puts` and `Removes` are the two effects that
`set` and `delete` come down to.
-/

namespace JumpscaleX

open Fallible Stateful

theorem BCDB.model_eq_ok_iff {bcdb : BCDB} {url : Url} {model : Model} :
    BCDB.model url bcdb = .ok model ↔ bcdb.models.find url = some model := by
  unfold BCDB.model
  cases bcdb.models.find url <;> simp

theorem BCDB.writeTable_eq_ok {bcdb reached : BCDB} {model : Model}
    {change : Table → Except Exn Table}
    (done : bcdb.writeTable model change = .ok reached) :
    ∃ table table', bcdb.tables model.key = some table ∧
      change table = .ok table' ∧
      reached = { bcdb with
        tables := Function.update bcdb.tables model.key (some table') } := by
  unfold BCDB.writeTable at done
  cases found : bcdb.tables model.key with
  | none =>
      rw [found] at done
      cases done
  | some table =>
      rw [found] at done
      simp only [bind_eq_ok_iff, pure_eq_ok_iff] at done
      obtain ⟨_, _, table', changed, same⟩ := done
      exact ⟨table, table', rfl, changed, same.symm⟩

/-- The entry under an id and the row of the id in one table are gone. -/
structure Removes (url : Url) (id : Nat) (bcdb reached : BCDB) : Prop where
  intro ::
  effect : ∃ model table, bcdb.models.find url = some model ∧
    bcdb.tables model.key = some table ∧
    reached = { bcdb with
      storclient :=
        { bcdb.storclient with kvs := bcdb.storclient.kvs.erase id }
      tables := Function.update bcdb.tables model.key
        (some (table.deleteById id)) }

namespace BCDBModel

theorem deleteStored_eq_ok {url : Url} {id : Nat} {bcdb reached : BCDB}
    {value : PUnit}
    (done : deleteStored url id bcdb = .ok value reached) :
    Removes url id bcdb reached := by
  simp only [deleteStored, storDelete, indexDeleteById, seq_eq_ok_iff,
    advance_eq_ok_iff, bind_eq_ok_iff, pure_eq_ok_iff] at done
  obtain ⟨_, between, ⟨client, deleted, rfl⟩, model, found, written⟩ := done
  rw [BCDB.model_eq_ok_iff] at found
  obtain ⟨table, table', present, changed, same⟩ := BCDB.writeTable_eq_ok written
  rw [Except.ok.injEq] at changed
  rw [StorClient.delete_eq_ok deleted] at same
  exact ⟨model, table, found, present, by rw [same, ← changed]⟩

theorem deleteId_eq_ok {url : Url} {id : Nat} {bcdb reached : BCDB}
    {value : PUnit} (done : deleteId url id bcdb = .ok value reached) :
    0 < id ∧ Removes url id bcdb reached := by
  simp only [deleteId, get_seq, seq_eq_ok_iff, attempt_eq_ok_iff,
    ensure_eq_ok_iff] at done
  obtain ⟨_, _, ⟨positive, rfl⟩, done⟩ := done
  exact ⟨positive, deleteStored_eq_ok done⟩

theorem deleteObj_eq_ok {url : Url} {session reached : Session} {value : PUnit}
    (done : deleteObj url session = .ok value reached) :
    session.obj.id = none ∧ reached.bcdb = session.bcdb ∨
      ∃ id, session.obj.id = some id ∧
        Removes url id session.bcdb reached.bcdb := by
  simp only [deleteObj, get_seq, seq_eq_ok_iff, attempt_eq_ok_iff,
    ensure_eq_ok_iff] at done
  obtain ⟨_, _, ⟨_, rfl⟩, done⟩ := done
  cases named : session.obj.id with
  | none =>
      rw [named] at done
      simp only [return_eq_ok_iff] at done
      exact .inl ⟨rfl, by rw [done.2]⟩
  | some id =>
      rw [named] at done
      simp only [Session.onBcdb, onPart_eq_ok_iff] at done
      obtain ⟨bcdb, deleted, rfl⟩ := done
      exact .inr ⟨id, rfl, deleteStored_eq_ok deleted⟩

/-! ## Putting an object -/

theorem data_eq_ok {session reached : Session} {bdata : BData}
    (done : data session = .ok bdata reached) :
    ∃ message, session.obj.toCapnp = .ok message ∧
      reached = { session with
        obj := { session.obj with capnpObj := message } } ∧
      bdata =
        { objId := session.obj.id.getD 0
          md5 := session.obj.schema.md5
          message := message } := by
  simp only [data, get_seq, seq_eq_ok_iff, attempt_eq_ok_iff, Session.setObj,
    modify_seq, JSXObject.dumps, bind_eq_ok_iff, pure_eq_ok_iff] at done
  obtain ⟨message, _, ⟨first, rfl⟩, ⟨again, second, _, _, rfl⟩, rfl⟩ := done
  rw [JSXObject.toCapnp_again first, Except.ok.injEq] at second
  exact ⟨message, first, rfl, by rw [second]⟩

theorem storAppend_eq_ok {record : Record} {session reached : Session}
    {value : PUnit} (done : storAppend record session = .ok value reached) :
    ∃ id client,
      session.bcdb.storclient.append (.record record) = .ok (id, client) ∧
      reached = { session with
        bcdb := { session.bcdb with storclient := client }
        obj := { session.obj with id := some id } } := by
  simp only [storAppend, get_seq, seq_eq_ok_iff, attempt_eq_ok_iff,
    modify_eq_ok_iff] at done
  obtain ⟨⟨id, client⟩, _, ⟨added, rfl⟩, rfl⟩ := done
  exact ⟨id, client, added, rfl⟩

theorem storSet_eq_ok {record : Record} {session reached : Session}
    {value : PUnit} (done : storSet record session = .ok value reached) :
    ∃ id client,
      StorClient.Stores session.obj.id id (.record record)
        session.bcdb.storclient client ∧
      reached = { session with
        bcdb := { session.bcdb with storclient := client }
        obj := { session.obj with id := some id } } := by
  simp only [storSet, get_seq] at done
  cases given : session.obj.id with
  | some id =>
      rw [given] at done
      simp only [Session.onBcdb, onPart_eq_ok_iff, storUpdate,
        advance_eq_ok_iff, bind_eq_ok_iff, pure_eq_ok_iff] at done
      obtain ⟨_, ⟨client, updated, rfl⟩, rfl⟩ := done
      refine ⟨id, client, ⟨rfl, updated⟩, ?_⟩
      rw [← given]
  | none =>
      rw [given] at done
      simp only [storNew, seq_eq_ok_iff, get_eq_ok_iff, attempt_eq_ok_iff,
        ensure_eq_ok_iff, runIf_eq_ok_iff] at done
      obtain ⟨_, _, first, _, _, ⟨rfl, rfl⟩, _, _, second, _, _, ⟨rfl, rfl⟩,
        notFirst, rfl⟩ := done
      obtain ⟨id, client, added, rfl⟩ := storAppend_eq_ok first
      rcases second with ⟨zero, second⟩ | ⟨_, rfl⟩
      · obtain ⟨id', client', added', rfl⟩ := storAppend_eq_ok second
        have isZero : id = 0 := by simpa using zero
        rw [isZero] at added
        exact ⟨id', client', .inr ⟨client, added, added', by simpa using notFirst⟩, rfl⟩
      · exact ⟨id, client, .inl ⟨added, by simpa using notFirst⟩, rfl⟩

theorem indexSet_eq_ok {url : Url} {session reached : Session} {value : PUnit}
    (done : indexSet url session = .ok value reached) :
    ∃ model row table table',
      session.bcdb.models.find url = some model ∧
      session.obj.indexRow model.index = .ok row ∧
      session.bcdb.tables model.key = some table ∧
      table.set (session.obj.id.getD 0) row = .ok table' ∧
      session.obj.id.getD 0 ≠ 0 ∧
      reached = { session with bcdb := { session.bcdb with
        tables := Function.update session.bcdb.tables model.key
          (some table') } } := by
  simp only [indexSet, get_seq, seq_eq_ok_iff, attempt_eq_ok_iff,
    ensure_eq_ok_iff, Session.onBcdb, onPart_eq_ok_iff, query_eq_ok_iff,
    advance_eq_ok_iff] at done
  obtain ⟨_, _, ⟨named, rfl⟩, _, _, ⟨_, rfl⟩, model, _, ⟨_, ⟨found, rfl⟩, rfl⟩,
    row, _, ⟨read, rfl⟩, _, written, rfl⟩ := done
  rw [BCDB.model_eq_ok_iff] at found
  obtain ⟨table, table', present, set, rfl⟩ := BCDB.writeTable_eq_ok written
  exact ⟨model, row, table, table', found, read, present, set, named, rfl⟩

end BCDBModel

/-- The record that `set` writes for an object. -/
def JSXObject.record (obj : JSXObject) (message : Message) : Record :=
  { nid := obj.nid
    aclId := obj.aclId
    bdata :=
      { objId := obj.id.getD 0, md5 := obj.schema.md5, message := message } }

/-- The record and the row of an object stand under an id. -/
structure Puts (url : Url) (id : Nat) (obj : JSXObject)
    (bcdb reached : BCDB) : Prop where
  intro ::
  effect : ∃ message model row table table' client,
    obj.toCapnp = .ok message ∧
    bcdb.models.find url = some model ∧
    ({ obj with capnpObj := message } : JSXObject).indexRow model.index = .ok row ∧
    bcdb.tables model.key = some table ∧
    table.set id row = .ok table' ∧
    StorClient.Stores obj.id id (.record (obj.record message))
      bcdb.storclient client ∧
    reached = { bcdb with
      storclient := client
      tables := Function.update bcdb.tables model.key (some table') }

theorem Puts.frame {url : Url} {id : Nat} {obj : JSXObject}
    {bcdb reached : BCDB} (puts : Puts url id obj bcdb reached) :
    reached.models = bcdb.models ∧ reached.schemaFactory = bcdb.schemaFactory := by
  obtain ⟨_, _, _, _, _, _, _, _, _, _, _, _, rfl⟩ := puts.effect
  exact ⟨rfl, rfl⟩

/-- The store after an object was put. -/
theorem Puts.stores {url : Url} {id : Nat} {obj : JSXObject}
    {bcdb reached : BCDB} (puts : Puts url id obj bcdb reached) :
    ∃ message, obj.toCapnp = .ok message ∧
      StorClient.Stores obj.id id (.record (obj.record message))
        bcdb.storclient reached.storclient := by
  obtain ⟨message, _, _, _, _, _, done, _, _, _, _, stores, rfl⟩ := puts.effect
  exact ⟨message, done, stores⟩

namespace BCDBModel

/-- The record of the object stands under its id, and nothing else happened. -/
structure StoresRecord (session reached : Session) : Prop where
  intro ::
  effect : ∃ message id client, session.obj.toCapnp = .ok message ∧
    StorClient.Stores session.obj.id id (.record (session.obj.record message))
      session.bcdb.storclient client ∧
    reached = { session with
      bcdb := { session.bcdb with storclient := client }
      obj := { session.obj with capnpObj := message, id := some id } }

theorem setRecord_eq_ok {session reached : Session} {value : PUnit}
    (done : setRecord session = .ok value reached) :
    StoresRecord session reached := by
  simp only [setRecord, seq_eq_ok_iff, get_eq_ok_iff, attempt_eq_ok_iff,
    ensure_eq_ok_iff] at done
  obtain ⟨bdata, _, serialised, _, _, ⟨rfl, rfl⟩, _, _, ⟨_, rfl⟩, stored⟩ := done
  obtain ⟨message, done, rfl, rfl⟩ := data_eq_ok serialised
  obtain ⟨id, client, stores, rfl⟩ := storSet_eq_ok stored
  exact ⟨message, id, client, done, stores, rfl⟩

theorem put_eq_ok {url : Url} {session between reached : Session}
    {value value' : PUnit}
    (stored : setRecord session = .ok value between)
    (indexed : setIndex url true between = .ok value' reached) :
    ∃ id, id ≠ 0 ∧ Puts url id session.obj session.bcdb reached.bcdb ∧
      reached.obj.id = some id ∧ reached.acl = session.acl := by
  obtain ⟨message, id, client, done, stores, rfl⟩ := (setRecord_eq_ok stored).effect
  simp only [setIndex, seq_eq_ok_iff, runIf_eq_ok_iff, rename_eq_ok_iff] at indexed
  obtain ⟨_, _, skipped, indexed⟩ := indexed
  rcases skipped with ⟨impossible, _⟩ | ⟨_, rfl⟩
  · cases impossible
  · obtain ⟨model, row, table, table', found, read, present, set, named, rfl⟩ :=
      indexSet_eq_ok indexed
    refine ⟨id, named, ⟨message, model, row, table, table', client, done, found, ?_,
      present, set, stores, rfl⟩, rfl, rfl⟩
    rw [← read]
    exact JSXObject.indexRow_congr rfl rfl (fun _ _ => rfl) _

/-- `set` with both flags: the ACL first, then the object. -/
theorem setWith_eq_ok {attachAcl : SessionM Unit} {url : Url}
    {session reached : Session} {value : PUnit}
    (done : setWith attachAcl url true true session = .ok value reached) :
    ∃ between id, id ≠ 0 ∧
      attachAcl { session with
        obj := { session.obj with aclId := some (session.obj.aclId.getD 0) } } =
          .ok () between ∧
      Puts url id between.obj between.bcdb reached.bcdb ∧
      reached.obj.id = some id ∧ reached.acl = between.acl := by
  simp only [setWith, setStore, get_seq, seq_eq_ok_iff, attempt_eq_ok_iff,
    ensure_eq_ok_iff, runIf_eq_ok_iff, Session.setObj, modify_seq] at done
  obtain ⟨_, _, ⟨_, rfl⟩, _, _, stored, indexed⟩ := done
  rcases stored with ⟨_, _, between, attached, stored⟩ | ⟨impossible, _⟩
  · rcases indexed with ⟨_, indexed⟩ | ⟨impossible, _⟩
    · obtain ⟨id, notFirst, puts, named, acl⟩ := put_eq_ok stored indexed
      exact ⟨between, id, notFirst, attached, puts, named, acl⟩
    · exact (impossible trivial).elim
  · exact (impossible trivial).elim

/-! ## Reading changes nothing -/

theorem schemaOf_eq_ok {url : Url} {bcdb : BCDB} {schema : Schema}
    (done : schemaOf url bcdb = .ok schema) :
    ∃ model, bcdb.models.find url = some model ∧ model.schema = schema := by
  unfold schemaOf BCDB.model at done
  cases found : bcdb.models.find url with
  | none =>
      rw [found] at done
      cases done
  | some model =>
      rw [found] at done
      cases done
      exact ⟨model, rfl, rfl⟩

end BCDBModel

theorem BCDB.schemaChange_eq_self {bcdb : BCDB} {schema : Schema} {model : Model}
    (found : bcdb.models.find schema.url = some model)
    (same : model.schema.md5 = schema.md5) : bcdb.schemaChange schema = bcdb := by
  simp [BCDB.schemaChange, found, same]

/-- What the index depends on of a model: its table and its columns. -/
def BCDB.shapeAt (bcdb : BCDB) (url : Url) : Option (String × List IndexField) :=
  (bcdb.models.find url).map (fun model => (model.key, model.index))

/-- A new version of a model's schema changes neither its table nor its
columns. -/
theorem BCDB.schemaChange_frame (bcdb : BCDB) (schema : Schema) :
    (bcdb.schemaChange schema).shapeAt = bcdb.shapeAt ∧
      (bcdb.schemaChange schema).storclient = bcdb.storclient ∧
      (bcdb.schemaChange schema).tables = bcdb.tables ∧
      (bcdb.schemaChange schema).schemaFactory = bcdb.schemaFactory := by
  cases found : bcdb.models.find schema.url with
  | none => simp [schemaChange, found]
  | some model =>
      have named := bcdb.models.named found
      simp only [schemaChange, found]
      split
      · exact ⟨rfl, rfl, rfl, rfl⟩
      · refine ⟨?_, rfl, rfl, rfl⟩
        funext url
        simp only [shapeAt, Models.find_add]
        by_cases same : url = schema.url
        · subst same
          simp [found, Model.key, Schema.key, named]
        · simp [same]

theorem BCDB.modelGet_ne_notFound {bcdb : BCDB} {schema : Schema}
    {message : String} : bcdb.modelGet schema ≠ .error (.notFound message) := by
  intro failed
  unfold BCDB.modelGet at failed
  split at failed
  · cases failed
  · simp only [BCDB.modelAdd, SchemaFactory.getFromUrl, bind_eq_error_iff,
      pure_ne_error, and_false, exists_false, or_false] at failed
    split at failed <;> cases failed

theorem BCDB.unserialize_ne_notFound {bcdb reached : BCDB} {id : Nat}
    {data : Stored} {schema? : Option Schema} {message : String} :
    BCDB.unserialize id data schema? bcdb ≠
      .error (.notFound message) reached := by
  intro failed
  cases data with
  | init => simp [BCDB.unserialize] at failed
  | padding => simp [BCDB.unserialize] at failed
  | record record =>
      simp only [BCDB.unserialize, seq_eq_error_iff, query_eq_error_iff,
        advance_eq_error_iff, attempt_eq_error_iff, ensure_eq_error_iff,
        return_ne_error, and_false, exists_false, or_false, runIf_eq_error_iff,
        modify_ne_error, false_or, reduceCtorEq, false_and,
        BCDB.modelGet_ne_notFound] at failed
      rcases failed with ⟨unknown, _⟩ | ⟨_, _, _, _, _, _, unread, _⟩
      · cases schema? with
        | some schema => cases unknown
        | none =>
            simp only [BCDB.versionOf, SchemaFactory.getFromMd5] at unknown
            split at unknown <;> cases unknown
      · simp only [SchemaFactory.loads, SchemaFactory.getFromMd5,
          SchemaFactory.getFromUrl, bind_eq_error_iff, pure_ne_error, and_false,
          exists_false, or_false] at unread
        rcases unread with unread | ⟨_, _, unread⟩
        · split at unread <;> cases unread
        · split at unread <;> cases unread

/-- Reading a record under the schema of its model leaves the database alone. -/
theorem BCDB.unserialize_eq_ok {bcdb reached : BCDB} {id : Nat} {data : Stored}
    {obj : JSXObject} {model : Model}
    (found : bcdb.models.find model.schema.url = some model)
    (done : BCDB.unserialize id data (some model.schema) bcdb = .ok obj reached) :
    reached = bcdb ∧ ∃ record loaded, data = .record record ∧
      bcdb.schemaFactory.loads record.bdata (some model.schema.url) = .ok loaded ∧
      loaded.schema.md5 = model.schema.md5 ∧
      obj = withStoredAttributes id record loaded := by
  cases data with
  | init => simp [BCDB.unserialize] at done
  | padding => simp [BCDB.unserialize] at done
  | record record =>
      have unchanged : bcdb.modelGet model.schema = .ok bcdb := by
        simp [BCDB.modelGet, found, BCDB.schemaChange_eq_self found rfl]
      simp only [BCDB.unserialize, BCDB.versionOf, seq_eq_ok_iff, query_eq_ok_iff,
        advance_eq_ok_iff, attempt_eq_ok_iff, ensure_eq_ok_iff, return_eq_ok_iff,
        runIf_eq_ok_iff, modify_eq_ok_iff, Except.ok.injEq] at done
      obtain ⟨_, _, ⟨rfl, rfl⟩, _, _, got, loaded, _, ⟨read, rfl⟩, _, _, changed,
        _, _, ⟨version, rfl⟩, rfl, rfl⟩ := done
      rw [unchanged, Except.ok.injEq] at got
      subst got
      refine ⟨?_, record, loaded, rfl, read, version, rfl⟩
      rcases changed with ⟨⟨_, url⟩, rfl⟩ | ⟨_, rfl⟩
      · rw [url] at found
        exact BCDB.schemaChange_eq_self found version.symm
      · rfl

/-- A record whose newest version is the one of the model is read. -/
theorem BCDB.unserialize_of_model {bcdb : BCDB} {record : Record}
    {loaded : JSXObject} {model : Model} (id : Nat)
    (found : bcdb.models.find model.schema.url = some model)
    (loads : bcdb.schemaFactory.loads record.bdata (some model.schema.url) = .ok loaded)
    (url : loaded.schema.url = model.schema.url)
    (version : loaded.schema.md5 = model.schema.md5) :
    BCDB.unserialize id (.record record) (some model.schema) bcdb =
      .ok (withStoredAttributes id record loaded) bcdb := by
  have unchanged : bcdb.modelGet model.schema = .ok bcdb := by
    simp [BCDB.modelGet, found, BCDB.schemaChange_eq_self found rfl]
  have again : bcdb.schemaChange loaded.schema = bcdb :=
    BCDB.schemaChange_eq_self (by rw [url]; exact found) version.symm
  simp only [BCDB.unserialize, BCDB.versionOf, seq_eq_ok_iff, query_eq_ok_iff,
    advance_eq_ok_iff, attempt_eq_ok_iff, ensure_eq_ok_iff, return_eq_ok_iff,
    runIf_eq_ok_iff, modify_eq_ok_iff]
  refine ⟨model.schema, bcdb, ⟨rfl, rfl⟩, PUnit.unit, bcdb, unchanged, loaded, bcdb,
    ⟨loads, rfl⟩, PUnit.unit, bcdb, ?_, PUnit.unit, bcdb, ⟨version, rfl⟩, rfl, rfl⟩
  by_cases older : record.bdata.md5 ≠ loaded.schema.md5 ∧
      model.schema.url = loaded.schema.url
  · exact .inl ⟨older, again⟩
  · exact .inr ⟨older, rfl⟩

namespace BCDBModel

/-- What `get` returns, and that it leaves the database alone. -/
theorem get_eq_ok {url : Url} {objId : Option Nat} {bcdb reached : BCDB}
    {obj : JSXObject} (done : get url objId bcdb = .ok obj reached) :
    reached = bcdb ∧ ∃ model record loaded,
      bcdb.models.find url = some model ∧ objId.getD 0 ≠ 0 ∧
      bcdb.storclient.get (objId.getD 0) = some (.record record) ∧
      bcdb.schemaFactory.loads record.bdata (some url) = .ok loaded ∧
      loaded.schema.url = url ∧ loaded.schema.md5 = model.schema.md5 ∧
      obj = BCDB.withStoredAttributes (objId.getD 0) record loaded := by
  simp only [get, seq_eq_ok_iff, attempt_eq_ok_iff, ensure_eq_ok_iff,
    query_eq_ok_iff, return_eq_ok_iff] at done
  obtain ⟨_, _, ⟨named, rfl⟩, data, _, ⟨stored, rfl⟩, schema, _, ⟨asked, rfl⟩,
    found, _, read, schema', _, ⟨asked', rfl⟩, _, _, ⟨⟨sameUrl, _⟩, rfl⟩, rfl, rfl⟩ :=
      done
  obtain ⟨model, present, rfl⟩ := schemaOf_eq_ok asked
  have modelUrl := bcdb.models.named present
  rw [← modelUrl] at present
  obtain ⟨rfl, record, loaded, rfl, loads, version, rfl⟩ :=
    BCDB.unserialize_eq_ok present read
  rw [modelUrl] at present loads
  obtain ⟨model', present', rfl⟩ := schemaOf_eq_ok asked'
  rw [present, Option.some.injEq] at present'
  subst present'
  refine ⟨rfl, model, record, loaded, present, named, ?_, loads, ?_, version, rfl⟩
  · unfold storedData at stored
    split at stored
    · rename_i data lookup
      split at stored
      · rw [Except.ok.injEq] at stored
        rw [lookup, stored]
      · cases stored
    · cases stored
  · rw [← modelUrl, ← sameUrl]
    rfl

theorem schemaOf_ne_notFound {url : Url} {bcdb : BCDB} {message : String} :
    schemaOf url bcdb ≠ .error (.notFound message) := by
  unfold schemaOf BCDB.model
  cases bcdb.models.find url <;> simp [Except.map]

/-- Only a missing entry makes `get` report that it found nothing. -/
theorem get_eq_notFound {url : Url} {objId : Option Nat} {bcdb reached : BCDB}
    {message : String}
    (failed : get url objId bcdb = .error (.notFound message) reached) :
    reached = bcdb ∧ ∃ problem,
      storedData (objId.getD 0) bcdb = .error problem := by
  simp only [get, seq_eq_error_iff, attempt_eq_ok_iff, attempt_eq_error_iff,
    ensure_eq_error_iff, query_eq_ok_iff, query_eq_error_iff,
    return_ne_error] at failed
  rcases failed with ⟨⟨_, impossible⟩, _⟩ | ⟨_, _, ⟨_, rfl⟩, failed⟩
  · cases impossible
  rcases failed with ⟨absent, rfl⟩ | ⟨data, _, ⟨_, rfl⟩, failed⟩
  · exact ⟨rfl, _, absent⟩
  rcases failed with ⟨unknown, _⟩ | ⟨schema, _, ⟨_, rfl⟩, failed⟩
  · exact (schemaOf_ne_notFound unknown).elim
  rcases failed with unread | ⟨obj, _, _, failed⟩
  · exact (BCDB.unserialize_ne_notFound unread).elim
  rcases failed with ⟨unknown, _⟩ | ⟨schema', _, _, failed⟩
  · exact (schemaOf_ne_notFound unknown).elim
  rcases failed with ⟨⟨_, impossible⟩, _⟩ | ⟨_, _, _, impossible⟩
  · cases impossible
  · simp at impossible

theorem getOrSkip_reads (url : Url) (id : Nat) : Reads (getOrSkip url id) := by
  intro bcdb obj? reached done
  unfold getOrSkip at done
  split at done
  · rename_i obj between outcome
    cases done
    exact (get_eq_ok outcome).1.symm
  · rename_i message between outcome
    cases done
    exact (get_eq_notFound outcome).1.symm
  · cases done

/-- A query leaves the database alone. -/
theorem find_reads (url : Url) (nid : Option Nat) (kwargs : DataDict) :
    Reads (find url nid kwargs) := by
  intro bcdb objs reached done
  simp only [find, seq_eq_ok_iff, query_eq_ok_iff, return_eq_ok_iff] at done
  obtain ⟨ids, _, ⟨_, rfl⟩, found, _, walked, _, rfl⟩ := done
  exact Reads.mapM (fun id _ => getOrSkip_reads url id) _ _ _ walked

theorem checkUnique_reads (url : Url) (obj : JSXObject) (prop : SchemaProperty) :
    Reads (checkUnique url obj prop) := by
  intro bcdb value reached done
  simp only [checkUnique, seq_eq_ok_iff, attempt_eq_ok_iff] at done
  obtain ⟨_, _, ⟨_, rfl⟩, found, _, searched, _, rfl⟩ := done
  exact find_reads url none _ _ _ _ searched

/-! ## Attached ACLs -/

/-- A save of the object writes it: it has changed, and its model keeps
objects. -/
def Savable (bcdb : BCDB) (obj : JSXObject) : Prop :=
  obj.changed = true ∧ ∃ url model, obj.model = some url ∧
    bcdb.models.find url = some model ∧ model.nosave = false

/-- The ACL in the store has another md5 than the attached one. -/
def AclRenewed (bcdb : BCDB) (acl : JSXObject) : Prop :=
  ∃ stored, get aclUrl acl.id bcdb = .ok stored bcdb ∧
    aclDiffers acl stored = .ok true

/-- An ACL object that `set` saves as a new object. -/
def AclPending (bcdb : BCDB) (acl : JSXObject) : Prop :=
  Savable bcdb acl ∧ (acl.id = none ∨ AclRenewed bcdb acl)

/-- The id of an attached ACL that `set` does not save. -/
def KeptAclId (bcdb : BCDB) (acl : JSXObject) (aclId : Option Nat) : Prop :=
  AclRenewed bcdb acl ∧ aclId = none ∨ ¬ AclRenewed bcdb acl ∧ aclId = acl.id

/-- The object that a save of an ACL puts, over the given message. -/
def savedAcl (acl : JSXObject) (message : Message) : JSXObject :=
  { acl with
    id := none
    capnpObj := message
    aclId := some (acl.aclId.getD 0) }

/-- `save` of an object without ACL. -/
theorem saveWith_pure_eq_ok {session reached : Session} {value : PUnit}
    (done : saveWith (pure ()) (pure ()) session = .ok value reached) :
    ¬ Savable session.bcdb session.obj ∧ reached.bcdb = session.bcdb ∧
        reached.obj.id = session.obj.id ∧ ¬ Savable session.bcdb reached.obj ∨
      Savable session.bcdb session.obj ∧ ∃ url id message,
        session.obj.model = some url ∧ session.obj.toCapnp = .ok message ∧
        Puts url id
          { session.obj with
            capnpObj := message
            aclId := some (session.obj.aclId.getD 0) }
          session.bcdb reached.bcdb := by
  simp only [saveWith, saveChanged, get_seq, runIf_eq_ok_iff, seq_eq_ok_iff,
    attempt_eq_ok_iff, Session.setObj, modify_seq] at done
  rcases done with ⟨changed, message, _, ⟨serialised, rfl⟩, done⟩ | ⟨unchanged, rfl⟩
  · cases attached : session.obj.model with
    | none =>
        rw [attached] at done
        simp only [modify_eq_ok_iff] at done
        left
        rw [← done]
        refine ⟨?_, rfl, rfl, ?_⟩
        · rintro ⟨_, url, _, isModel, _⟩
          rw [attached] at isModel
          cases isModel
        · rintro ⟨impossible, _⟩
          cases impossible
    | some url =>
        rw [attached] at done
        simp only [seq_eq_ok_iff, Session.onBcdb, onPart_eq_ok_iff,
          query_eq_ok_iff, runIf_eq_ok_iff] at done
        obtain ⟨model, _, ⟨_, ⟨found, rfl⟩, rfl⟩, done⟩ := done
        rw [BCDB.model_eq_ok_iff] at found
        rcases done with ⟨keeps, done⟩ | ⟨nosave, rfl⟩
        · simp only [saveInModel, get_seq, return_seq, runIf_return,
            seq_eq_ok_iff, attempt_eq_ok_iff, Session.onBcdb,
            onPart_eq_ok_iff] at done
          obtain ⟨_, _, ⟨_, rfl⟩, _, _, ⟨bcdb, checked, rfl⟩, _, _, stored,
            _, ⟨_, rfl⟩⟩ := done
          have same := Reads.forM (fun prop _ => checkUnique_reads url _ prop)
            _ _ _ checked
          subst same
          obtain ⟨between, id, _, kept, puts, _⟩ := setWith_eq_ok stored
          rw [return_eq_ok_iff] at kept
          rw [← kept.2, ← attached] at puts
          exact .inr ⟨⟨changed, url, model, attached, found, keeps⟩,
            url, id, message, rfl, serialised, puts⟩
        · have notSavable : ¬ ∃ url model, session.obj.model = some url ∧
              session.bcdb.models.find url = some model ∧ model.nosave = false := by
            rintro ⟨url', model', isModel, found', keeps⟩
            rw [attached, Option.some.injEq] at isModel
            subst isModel
            rw [found, Option.some.injEq] at found'
            subst found'
            exact nosave keeps
          refine .inl ⟨fun savable => notSavable savable.2, rfl, rfl, ?_⟩
          rintro ⟨_, still⟩
          rw [attached] at notSavable
          exact notSavable still
  · exact .inl ⟨fun savable => unchanged savable.1, rfl, rfl,
      fun savable => unchanged savable.1⟩

theorem aclSave_eq_ok {acl : JSXObject} {session reached : Session}
    {value : PUnit} (done : aclSave acl session = .ok value reached) :
    reached.obj = session.obj ∧ ∃ acl', reached.acl = .obj acl' ∧
      (¬ Savable session.bcdb acl ∧ reached.bcdb = session.bcdb ∧
          acl'.id = acl.id ∧ ¬ Savable session.bcdb acl' ∨
        Savable session.bcdb acl ∧ ∃ url id message, acl.model = some url ∧
          acl.toCapnp = .ok message ∧
          Puts url id
            { acl with capnpObj := message, aclId := some (acl.aclId.getD 0) }
            session.bcdb reached.bcdb) := by
  simp only [aclSave, Session.onAcl, onPart_eq_ok_iff] at done
  obtain ⟨part, saved, rfl⟩ := done
  exact ⟨rfl, part.obj, rfl, saveWith_pure_eq_ok saved⟩

theorem not_aclRenewed_of_new {bcdb : BCDB} {acl : JSXObject}
    (isNew : acl.id = none) : ¬ AclRenewed bcdb acl := by
  rintro ⟨stored, got, _⟩
  obtain ⟨_, _, _, _, _, named, _⟩ := get_eq_ok got
  rw [isNew] at named
  exact named rfl

theorem aclStore_eq_ok {acl : JSXObject} {session reached : Session}
    {value : PUnit} (attached : session.acl = .obj acl)
    (done : aclStore acl session = .ok value reached) :
    reached.obj = session.obj ∧ ∃ acl', reached.acl = .obj acl' ∧
      (¬ AclPending session.bcdb acl ∧ reached.bcdb = session.bcdb ∧
          KeptAclId session.bcdb acl acl'.id ∨
        AclPending session.bcdb acl ∧ ∃ url id message, acl.model = some url ∧
          acl.toCapnp = .ok message ∧
          Puts url id (savedAcl acl message) session.bcdb reached.bcdb) := by
  unfold aclStore at done
  cases named : acl.id with
  | none =>
      rw [named] at done
      obtain ⟨sameObj, acl', isAcl, effect⟩ := aclSave_eq_ok done
      refine ⟨sameObj, acl', isAcl, ?_⟩
      rcases effect with ⟨fails, same, keptId, _⟩ |
        ⟨savable, url, id, message, model, serialised, puts⟩
      · exact .inl ⟨fun pending => fails pending.1, same,
          .inr ⟨not_aclRenewed_of_new named, keptId⟩⟩
      · rw [named] at puts
        exact .inr ⟨⟨savable, .inl named⟩, url, id, message, model, serialised, puts⟩
  | some id =>
      rw [named] at done
      simp only [get_seq, seq_eq_ok_iff, attempt_eq_ok_iff, runIf_eq_ok_iff,
        Session.onBcdb, onPart_eq_ok_iff] at done
      obtain ⟨_, _, ⟨_, rfl⟩, stored, _, ⟨bcdb, got, rfl⟩, differs, _,
        ⟨compared, rfl⟩, done⟩ := done
      have same := (get_eq_ok got).1
      subst same
      rw [← named] at got
      rcases done with ⟨rfl, done⟩ | ⟨agrees, rfl⟩
      · have renewed : AclRenewed session.bcdb acl := ⟨stored, got, compared⟩
        obtain ⟨sameObj, acl', isAcl, effect⟩ := aclSave_eq_ok done
        refine ⟨sameObj, acl', isAcl, ?_⟩
        rcases effect with ⟨fails, unchanged, keptId, _⟩ |
          ⟨savable, url, newId, message, model, serialised, puts⟩
        · exact .inl ⟨fun pending => fails pending.1, unchanged,
            .inl ⟨renewed, keptId⟩⟩
        · exact .inr ⟨⟨savable, .inr renewed⟩, url, newId, message, model,
            serialised, puts⟩
      · have notRenewed : ¬ AclRenewed session.bcdb acl := by
          rintro ⟨stored', got', compared'⟩
          rw [got, EStateM.Result.ok.injEq] at got'
          rw [← got'.1, compared, Except.ok.injEq] at compared'
          exact agrees compared'
        refine ⟨rfl, acl, attached, .inl ⟨?_, rfl, .inr ⟨notRenewed, rfl⟩⟩⟩
        rintro ⟨_, isNew | renewed⟩
        · rw [named] at isNew
          cases isNew
        · exact notRenewed renewed

/-- The ACL id that an object takes from its ACL when that is not saved on the
way. -/
def AttachedAclId (bcdb : BCDB) (root : JSXObjectRoot) (aclId : Option Nat) :
    Prop :=
  match root.acl with
  | .none => aclId = root.obj.aclId
  | .model => False
  | .obj acl => KeptAclId bcdb acl aclId

/-- The attached ACL is saved on the way. -/
def AclUnsaved (bcdb : BCDB) (root : JSXObjectRoot) : Prop :=
  ∃ acl, root.acl = .obj acl ∧ AclPending bcdb acl

/-- What bringing an attached ACL into the store does. -/
theorem attachAcl_eq_ok {session reached : Session} {value : PUnit}
    (done : attachAcl session = .ok value reached) :
    ∃ aclId, reached.obj = { session.obj with aclId := aclId } ∧
      (¬ AclUnsaved session.bcdb session.toJSXObjectRoot ∧
          reached.bcdb = session.bcdb ∧
          AttachedAclId session.bcdb session.toJSXObjectRoot aclId ∨
        ∃ acl url id message, session.acl = .obj acl ∧
          AclPending session.bcdb acl ∧ acl.model = some url ∧
          acl.toCapnp = .ok message ∧
          Puts url id (savedAcl acl message) session.bcdb reached.bcdb) := by
  simp only [attachAcl, get_seq] at done
  unfold AttachedAclId AclUnsaved
  cases attached : session.acl with
  | none =>
      rw [attached] at done
      simp only [return_eq_ok_iff] at done
      rw [← done.2]
      refine ⟨session.obj.aclId, rfl, .inl ⟨?_, rfl, rfl⟩⟩
      rintro ⟨acl, impossible, _⟩
      cases impossible
  | model =>
      rw [attached] at done
      simp at done
  | obj acl =>
      rw [attached] at done
      simp only [seq_eq_ok_iff, modify_eq_ok_iff] at done
      obtain ⟨_, between, stored, rfl⟩ := done
      obtain ⟨sameObj, acl', isAcl, effect⟩ := aclStore_eq_ok attached stored
      refine ⟨acl'.id, ?_, ?_⟩
      · simp only [takeAclId, isAcl, sameObj]
      rcases effect with ⟨settled, same, keptId⟩ |
        ⟨pending, url, id, message, model, serialised, puts⟩
      · refine .inl ⟨?_, same, keptId⟩
        rintro ⟨other, isOther, pending⟩
        cases isOther
        exact settled pending
      · exact .inr ⟨acl, url, id, message, rfl, pending, model, serialised, puts⟩

end BCDBModel

end JumpscaleX
