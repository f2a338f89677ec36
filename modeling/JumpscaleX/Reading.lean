import JumpscaleX.Effects

/-!
# Reading records

When a stored record is read as an object, and what the reading does to the
models in memory.
-/

namespace JumpscaleX

open Fallible Stateful

/-- A version that has the md5 of the newest one is the newest one. -/
theorem SchemaFactory.newest_eq {factory : SchemaFactory} {md5 : Md5}
    {schema newest : Schema} (known : factory.schemasMd5 md5 = some schema)
    (loaded : factory.schemasLoaded schema.url = some newest)
    (same : newest.md5 = schema.md5) : newest = schema := by
  have registered := factory.loadedKnown loaded
  rw [same, factory.md5Named known, known, Option.some.injEq] at registered
  exact registered.symm

theorem SchemaFactory.getFromMd5_eq_ok_iff {factory : SchemaFactory} {md5 : Md5}
    {schema : Schema} :
    factory.getFromMd5 md5 = .ok schema ↔ factory.schemasMd5 md5 = some schema := by
  unfold getFromMd5
  cases factory.schemasMd5 md5 <;> simp

theorem SchemaFactory.getFromUrl_eq_ok_iff {factory : SchemaFactory} {url : Url}
    {schema : Schema} :
    factory.getFromUrl url = .ok schema ↔
      factory.schemasLoaded url = some schema := by
  unfold getFromUrl
  cases factory.schemasLoaded url <;> simp

theorem SchemaFactory.loads_eq_ok_iff {factory : SchemaFactory} {bdata : BData}
    {model : Option Url} {obj : JSXObject} :
    factory.loads bdata model = .ok obj ↔
      ∃ schema newest, factory.schemasMd5 bdata.md5 = some schema ∧
        factory.schemasLoaded schema.url = some newest ∧
        bdata.toObj newest model = obj := by
  simp only [loads, bind_eq_ok_iff, pure_eq_ok_iff, getFromMd5_eq_ok_iff,
    getFromUrl_eq_ok_iff]
  constructor
  · rintro ⟨schema, known, newest, loaded, same⟩
    exact ⟨schema, newest, known, loaded, same⟩
  · rintro ⟨schema, newest, known, loaded, same⟩
    exact ⟨schema, known, newest, loaded, same⟩

/-- The object of a record, read under a version of its schema. -/
def Record.read (record : Record) (id : Nat) (schema : Schema) : JSXObject :=
  BCDB.withStoredAttributes id record
    (record.bdata.toObj schema (some schema.url))

theorem Record.read_id {record : Record} {id : Nat} {schema : Schema}
    (notFirst : id ≠ 0) (own : record.bdata.objId = 0 ∨ record.bdata.objId = id) :
    (record.read id schema).id = some id := by
  rcases own with none | same
  · simp [Record.read, BCDB.withStoredAttributes, BData.toObj, none, notFirst]
  · simp [Record.read, BCDB.withStoredAttributes, BData.toObj, same, notFirst]

namespace BCDB

/-- The record of an object stands under an id. -/
def Holds (bcdb : BCDB) (id : Nat) (record : Record) : Prop :=
  id ≠ 0 ∧ bcdb.storclient.get id = some (.record record)

/-- Behind the first entry the store holds records of known schemas, which
carry their id or none. -/
def RecordsOnly (bcdb : BCDB) : Prop :=
  ∀ id data, id ≠ 0 → bcdb.storclient.get id = some data →
    ∃ record schema, data = .record record ∧
      bcdb.schemaFactory.schemasMd5 record.bdata.md5 = some schema ∧
      (record.bdata.objId = 0 ∨ record.bdata.objId = id)

/-- Everything but the models, their tables and the urls is the same. -/
structure SameStore (bcdb reached : BCDB) : Prop where
  storclient : reached.storclient = bcdb.storclient
  schemaFactory : reached.schemaFactory = bcdb.schemaFactory
  readonly : reached.readonly = bcdb.readonly
  indexReadonly : reached.indexReadonly = bcdb.indexReadonly

theorem SameStore.refl (bcdb : BCDB) : SameStore bcdb bcdb :=
  ⟨rfl, rfl, rfl, rfl⟩

theorem SameStore.trans {bcdb between reached : BCDB}
    (first : SameStore bcdb between) (second : SameStore between reached) :
    SameStore bcdb reached :=
  ⟨second.storclient.trans first.storclient,
    second.schemaFactory.trans first.schemaFactory,
    second.readonly.trans first.readonly,
    second.indexReadonly.trans first.indexReadonly⟩

theorem modelAdd_eq_ok_iff {bcdb reached : BCDB} {url : Url} :
    bcdb.modelAdd url = .ok reached ↔
      ∃ schema, bcdb.schemaFactory.schemasLoaded url = some schema ∧
        bcdb.addModel schema.model = reached := by
  simp only [modelAdd, bind_eq_ok_iff, pure_eq_ok_iff,
    SchemaFactory.getFromUrl_eq_ok_iff]

theorem addModel_sameStore (bcdb : BCDB) (model : Model) :
    SameStore bcdb (bcdb.addModel model) :=
  ⟨rfl, rfl, rfl, rfl⟩

theorem addModel_models (bcdb : BCDB) (model : Model) :
    (bcdb.addModel model).models = bcdb.models.add model := rfl

theorem addModel_tables (bcdb : BCDB) (model : Model) :
    (bcdb.addModel model).tables =
      if !bcdb.readonly && (bcdb.tables model.key).isNone then
        Function.update bcdb.tables model.key (some (Table.create model.columns))
      else bcdb.tables := rfl

theorem setTable_sameStore (bcdb : BCDB) (key : String) (table : Table) :
    SameStore bcdb (bcdb.setTable key table) :=
  ⟨rfl, rfl, rfl, rfl⟩

theorem schemaChange_sameStore (bcdb : BCDB) (schema : Schema) :
    SameStore bcdb (bcdb.schemaChange schema) := by
  unfold schemaChange
  split
  · split <;> exact ⟨rfl, rfl, rfl, rfl⟩
  · exact .refl bcdb

theorem modelGet_sameStore {bcdb reached : BCDB} {schema : Schema}
    (done : bcdb.modelGet schema = .ok reached) : SameStore bcdb reached := by
  unfold modelGet at done
  split at done
  · cases done
    exact schemaChange_sameStore bcdb schema
  · obtain ⟨_, _, rfl⟩ := modelAdd_eq_ok_iff.mp done
    exact addModel_sameStore bcdb _

/-- A model that was just looked up has the schema it was looked up with. -/
theorem modelGet_again {bcdb reached : BCDB} {schema : Schema}
    (loaded : bcdb.schemaFactory.schemasLoaded schema.url = some schema)
    (done : bcdb.modelGet schema = .ok reached) :
    reached.modelGet schema = .ok reached := by
  have present : ∃ model, reached.models.find schema.url = some model ∧
      model.schema.md5 = schema.md5 := by
    unfold modelGet at done
    split at done
    · rename_i model found
      cases done
      unfold schemaChange
      simp only [found]
      split
      · rename_i same
        exact ⟨model, found, same⟩
      · exact ⟨_, by rw [Models.find_add, if_pos rfl], rfl⟩
    · obtain ⟨other, loaded', rfl⟩ := modelAdd_eq_ok_iff.mp done
      rw [loaded, Option.some.injEq] at loaded'
      subst loaded'
      exact ⟨schema.model, by rw [addModel_models, Models.find_add, if_pos (by rfl)], rfl⟩
  obtain ⟨model, found, same⟩ := present
  simp only [modelGet, found, schemaChange_eq_self found same]

/-- A record is read without a given schema exactly when it was stored under
the newest version. -/
theorem unserialize_none_eq_ok_iff {id : Nat} {record : Record}
    {bcdb reached : BCDB} {obj : JSXObject} :
    unserialize id (.record record) none bcdb = .ok obj reached ↔
      ∃ schema, bcdb.schemaFactory.schemasMd5 record.bdata.md5 = some schema ∧
        bcdb.schemaFactory.schemasLoaded schema.url = some schema ∧
        bcdb.modelGet schema = .ok reached ∧ obj = record.read id schema := by
  simp only [unserialize, versionOf, seq_eq_ok_iff, query_eq_ok_iff,
    advance_eq_ok_iff, attempt_eq_ok_iff, ensure_eq_ok_iff, return_eq_ok_iff,
    runIf_eq_ok_iff, modify_eq_ok_iff, SchemaFactory.loads_eq_ok_iff,
    SchemaFactory.getFromMd5_eq_ok_iff]
  constructor
  · rintro ⟨schema, _, ⟨known, rfl⟩, _, between, got, _, _,
      ⟨⟨schema', newest, known', loaded, rfl⟩, rfl⟩, _, _, changed, _, _,
      ⟨version, rfl⟩, rfl, rfl⟩
    have same := (modelGet_sameStore got).schemaFactory
    rw [same] at known' loaded
    rw [known, Option.some.injEq] at known'
    subst known'
    have isNewest := SchemaFactory.newest_eq known loaded version
    subst isNewest
    refine ⟨newest, known, loaded, ?_, rfl⟩
    rcases changed with ⟨⟨older, _⟩, _⟩ | ⟨_, rfl⟩
    · exact (older (bcdb.schemaFactory.md5Named known).symm).elim
    · exact got
  · rintro ⟨schema, known, loaded, got, rfl⟩
    have same := (modelGet_sameStore got).schemaFactory
    have current : ¬ (record.bdata.md5 ≠ schema.md5 ∧ schema.url = schema.url) :=
      fun older => older.1 (bcdb.schemaFactory.md5Named known).symm
    exact ⟨schema, bcdb, ⟨known, rfl⟩, PUnit.unit, reached, got, _, reached,
      ⟨⟨schema, schema, by rw [same]; exact known, by rw [same]; exact loaded, rfl⟩, rfl⟩,
      PUnit.unit, reached, .inr ⟨current, rfl⟩, PUnit.unit, reached, ⟨rfl, rfl⟩, rfl, rfl⟩

end BCDB

end JumpscaleX
