import JumpscaleX.AgreementRuns
import JumpscaleX.RebuildTotal

/-!
# Reading after the schema changed

A record is read by `obj_get`, by `iterate` and by `get` of its model.  All of
them read its message under the newest version of the url and then compare that
version with the one they started from: the version of the record, or the one
of the model.
-/

namespace JumpscaleX

open Fallible Stateful

namespace BCDB

/-- The model of a url is in memory and has the newest version. -/
def ModelIsNewest (bcdb : BCDB) (url : Url) : Prop :=
  ∃ model newest, bcdb.models.find url = some model ∧
    bcdb.schemaFactory.schemasLoaded url = some newest ∧
    model.schema.md5 = newest.md5

/-- All ways of reading return one object, of the newest version, and the model
has that version afterwards. -/
def ReadableAs (bcdb : BCDB) (id : Nat) (record : Record) (newest : Schema) : Prop :=
  ∃ obj : JSXObject, obj.id = some id ∧ obj.nid = record.nid ∧ obj.schema = newest ∧
    (∃ reached, objGet id bcdb = .ok (some obj) reached ∧
      reached.ModelIsNewest newest.url) ∧
    (∃ objs reached, iterate bcdb = .ok objs reached ∧ some obj ∈ objs ∧
      reached.ModelIsNewest newest.url) ∧
    ∃ reached, BCDBModel.get newest.url (some id) bcdb = .ok obj reached ∧
      reached.ModelIsNewest newest.url

/-- Every record can be read under the newest version of its url. -/
def StaysReadable (bcdb : BCDB) : Prop :=
  ∀ id record newest, bcdb.Holds id record →
    bcdb.schemaFactory.newestOf record.bdata.md5 = some newest →
    bcdb.ReadableAs id record newest

/-- Every record is reached by the walk and was stored under the newest version
of its url, which is the one of the model in memory. -/
def AllCurrent (bcdb : BCDB) : Prop :=
  ∀ id record, bcdb.Holds id record → bcdb.storclient.Reaches id ∧
    ∃ schema, bcdb.schemaFactory.schemasMd5 record.bdata.md5 = some schema ∧
      bcdb.schemaFactory.schemasLoaded schema.url = some schema ∧
      bcdb.ModelIsNewest schema.url

/-! ## The three ways of reading -/

/-- Looking up the model that is in memory under the newest version. -/
theorem ModelIsNewest.modelGet {bcdb : BCDB} {schema : Schema}
    (model : bcdb.ModelIsNewest schema.url)
    (loaded : bcdb.schemaFactory.schemasLoaded schema.url = some schema) :
    bcdb.modelGet schema = .ok bcdb := by
  obtain ⟨model, newest, found, loaded', same⟩ := model
  rw [loaded, Option.some.injEq] at loaded'
  subst loaded'
  simp only [BCDB.modelGet, found, schemaChange_eq_self found same]

theorem objGet_of_holds {bcdb reached : BCDB} {id : Nat} {record : Record}
    {obj : JSXObject} (holds : bcdb.Holds id record) :
    objGet id bcdb = .ok (some obj) reached ↔
      ∃ schema, bcdb.schemaFactory.schemasMd5 record.bdata.md5 = some schema ∧
        bcdb.schemaFactory.schemasLoaded schema.url = some schema ∧
        bcdb.modelGet schema = .ok reached ∧ obj = record.read id schema := by
  rw [← unserialize_none_eq_ok_iff]
  simp only [objGet, get_seq, holds.2, seq_eq_ok_iff, return_eq_ok_iff,
    Option.some.injEq]
  constructor
  · rintro ⟨_, _, done, rfl, rfl⟩
    exact done
  · intro done
    exact ⟨obj, reached, done, rfl, rfl⟩

/-- What the walk yields for an entry whose version is the newest one. -/
def currentEntry (bcdb : BCDB) (entry : Nat × Stored) : Option JSXObject :=
  match entry.2 with
  | .record record =>
      (bcdb.schemaFactory.schemasMd5 record.bdata.md5).map (record.read entry.1)
  | _ => none

theorem iterateEntry_record (id : Nat) (record : Record) :
    iterateEntry (id, .record record) =
      unserialize id (.record record) none >>= fun obj => pure (some obj) := rfl

/-- A walk over records of newest versions changes nothing. -/
theorem iterate_of_current {bcdb : BCDB} (records : bcdb.RecordsOnly)
    (current : ∀ id record, bcdb.Holds id record →
      ∃ schema, bcdb.schemaFactory.schemasMd5 record.bdata.md5 = some schema ∧
        bcdb.schemaFactory.schemasLoaded schema.url = some schema ∧
        bcdb.ModelIsNewest schema.url) :
    iterate bcdb = .ok ((bcdb.storclient.iterate.filter (fun entry => entry.1 ≠ 0)).map
      bcdb.currentEntry) bcdb := by
  rw [iterate, get_seq]
  refine mapM_of_ok ?_
  rintro ⟨id, data⟩ member
  obtain ⟨inStore, notFirst⟩ := List.mem_filter.mp member
  have stored := (StorClient.mem_iterate_iff.mp inStore).1
  replace notFirst : id ≠ 0 := by simpa using notFirst
  obtain ⟨record, _, rfl, _⟩ := records id data notFirst stored
  obtain ⟨schema, known, loaded, model⟩ := current id record ⟨notFirst, stored⟩
  have read : unserialize id (.record record) none bcdb =
      .ok (record.read id schema) bcdb :=
    unserialize_none_eq_ok_iff.mpr ⟨schema, known, loaded, model.modelGet loaded, rfl⟩
  have entry : bcdb.currentEntry (id, .record record) = some (record.read id schema) := by
    simp only [currentEntry, known, Option.map_some]
  rw [iterateEntry_record, seq_of_ok read, entry]
  rfl

end BCDB

/-- `get` of a model returns the object of a record under the newest version,
which has to be the one of the model. -/
theorem BCDBModel.get_of_holds {bcdb : BCDB} {url : Url} {id : Nat} {record : Record}
    {newest : Schema} (holds : bcdb.Holds id record)
    (isNewest : bcdb.schemaFactory.newestOf record.bdata.md5 = some newest)
    (isUrl : newest.url = url) (model : bcdb.ModelIsNewest url) :
    BCDBModel.get url (some id) bcdb = .ok (record.read id newest) bcdb := by
  obtain ⟨model, newest', found, loaded, same⟩ := model
  obtain ⟨schema, known, loaded'⟩ := Option.bind_eq_some_iff.mp isNewest
  have sameUrl : schema.url = url := (bcdb.schemaFactory.urlNamed loaded').symm.trans isUrl
  rw [sameUrl, loaded, Option.some.injEq] at loaded'
  subst loaded'
  have modelUrl := bcdb.models.named found
  have asked : BCDBModel.schemaOf url bcdb = .ok model.schema := by
    simp [BCDBModel.schemaOf, BCDB.model, found, Except.map]
  have data : BCDBModel.storedData id bcdb = .ok (.record record) := by
    simp [BCDBModel.storedData, holds.2, Stored.truthy]
  have loads : bcdb.schemaFactory.loads record.bdata (some model.schema.url) =
      .ok (record.bdata.toObj newest' (some model.schema.url)) :=
    SchemaFactory.loads_eq_ok_iff.mpr
      ⟨schema, newest', known, by rw [sameUrl]; exact loaded, rfl⟩
  have isRead : record.read id newest' = BCDB.withStoredAttributes id record
      (record.bdata.toObj newest' (some model.schema.url)) := by
    rw [Record.read, isUrl, modelUrl]
  have read := BCDB.unserialize_of_model id (by rw [modelUrl]; exact found) loads
    (isUrl.trans modelUrl.symm) same.symm
  rw [isRead]
  simp only [BCDBModel.get, seq_eq_ok_iff, attempt_eq_ok_iff, ensure_eq_ok_iff,
    query_eq_ok_iff, return_eq_ok_iff, Option.getD_some]
  exact ⟨PUnit.unit, bcdb, ⟨holds.1, rfl⟩, _, bcdb, ⟨data, rfl⟩, _, bcdb, ⟨asked, rfl⟩,
    _, bcdb, read, _, bcdb, ⟨asked, rfl⟩, PUnit.unit, bcdb,
    ⟨⟨isUrl.trans modelUrl.symm, same.symm⟩, rfl⟩, rfl, rfl⟩

namespace BCDB

/-- The newest version of a record that the model reads. -/
theorem modelIsNewest_of_get {bcdb reached : BCDB} {url : Url} {id : Nat}
    {obj : JSXObject} (done : BCDBModel.get url (some id) bcdb = .ok obj reached)
    (isNewest : bcdb.schemaFactory.schemasLoaded url = some obj.schema) :
    bcdb.ModelIsNewest url := by
  obtain ⟨_, model, record, loaded, found, _, _, _, _, same, rfl⟩ :=
    BCDBModel.get_eq_ok done
  exact ⟨model, _, found, isNewest, same.symm⟩

/-- The model of the record is in memory with the newest version. -/
def openedUnder (md5 : Md5) : BCDB :=
  (storedUnder md5).addModel (nameSchema "test.one" "2").model

theorem openedUnder_records {md5 : Md5} {schema : Schema}
    (known : twoVersions.schemasMd5 md5 = some schema) :
    (openedUnder md5).RecordsOnly := by
  intro id data notFirst present
  rcases storedUnder_get present with ⟨first, _⟩ | ⟨_, rfl⟩
  · exact (notFirst first).elim
  · exact ⟨namedRecord md5, schema, rfl, known, .inl rfl⟩

theorem openedUnder_modelIsNewest (md5 : Md5) :
    (openedUnder md5).ModelIsNewest "test.one" := by
  refine ⟨(nameSchema "test.one" "2").model, nameSchema "test.one" "2", ?_, rfl, rfl⟩
  rw [openedUnder, addModel_models, Models.find_add]
  exact if_pos rfl

end BCDB

end JumpscaleX
