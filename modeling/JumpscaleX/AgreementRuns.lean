import JumpscaleX.Agreement
import JumpscaleX.Reading
import JumpscaleX.Types

/-!
# Agreement over runs

The calls of `set`, `set_dynamic` and `delete` on the models of one database,
in any order.  A run of sound calls keeps store and index in agreement.
-/

namespace JumpscaleX

open Fallible Stateful PartitionedIndex

/-- A call on one of the models. -/
inductive Call where
  | set (url : Url) (root : JSXObjectRoot) (index store : Bool)
  | setDynamic (url : Url) (data : BCDBModel.DynamicData) (objId nid : Option Nat)
  | deleteId (url : Url) (id : Nat)
  | deleteObj (url : Url) (root : JSXObjectRoot)

namespace Call

def run : Call → BCDBM Unit
  | .set url root index store => root.on (BCDBModel.set url index store)
  | .setDynamic url data objId nid => BCDBModel.setDynamic url data objId nid
  | .deleteId url id => BCDBModel.deleteId url id
  | .deleteObj url root => root.on (BCDBModel.deleteObj url)

/-- The call returns normally. -/
def Returns (call : Call) (bcdb reached : BCDB) : Prop :=
  call.run bcdb = .ok () reached

/-- The conditions under which a call keeps the agreement: it works under an id
of its own model, new ids are free, objects store what they read, and store and
index are written together. -/
def SoundAt (bcdb : BCDB) : Call → Prop
  | .set url root index store =>
      index = false ∧ store = false ∨
        index = true ∧ store = true ∧ SoundSet bcdb url root
  | .setDynamic url data objId nid =>
      ∀ root between, BCDBModel.dynamicObj url data objId nid bcdb = .ok root between →
        SoundSet between url root
  | .deleteId url id => bcdb.Owns url id
  | .deleteObj url root => ∀ id, root.obj.id = some id → bcdb.Owns url id

end Call

/-- Store and index agree, and no two models share a table. -/
structure Consistent (bcdb : BCDB) : Prop where
  agreement : bcdb.Agreement
  apart : bcdb.KeysApart

private theorem rowAt_eq_shape (bcdb : BCDB) (url : Url) (id : Nat) :
    bcdb.rowAt url id = (bcdb.shapeAt url).bind (fun shape =>
      (bcdb.tables shape.1).bind (fun table => table.lookup id)) := by
  unfold BCDB.rowAt BCDB.shapeAt
  cases bcdb.models.find url with
  | none => simp only [Option.bind_none, Option.map_none]
  | some model => simp only [Option.bind_some, Option.map_some]

private theorem find_iff_shape {bcdb : BCDB} {url : Url}
    {property : String → List IndexField → Prop} :
    (∃ model, bcdb.models.find url = some model ∧
        property model.key model.index) ↔
      ∃ key index, bcdb.shapeAt url = some (key, index) ∧ property key index := by
  unfold BCDB.shapeAt
  cases bcdb.models.find url with
  | none => simp
  | some model => simp

/-- The same tables and columns over the same store are as consistent. -/
theorem Consistent.congr {bcdb reached : BCDB} (consistent : Consistent bcdb)
    (shape : reached.shapeAt = bcdb.shapeAt)
    (storclient : reached.storclient = bcdb.storclient)
    (tables : reached.tables = bcdb.tables)
    (factory : reached.schemaFactory = bcdb.schemaFactory) :
    Consistent reached := by
  have find : ∀ url (property : String → List IndexField → Prop),
      (∃ model, reached.models.find url = some model ∧
        property model.key model.index) ↔
      ∃ model, bcdb.models.find url = some model ∧
        property model.key model.index := by
    intro url property
    rw [find_iff_shape, find_iff_shape, shape]
  have urlOf : reached.urlOf = bcdb.urlOf := by
    funext stored
    cases stored <;> simp [BCDB.urlOf, factory]
  have hasModel : reached.HasModel = bcdb.HasModel := by
    funext url
    have same := find url (fun _ _ => True)
    simpa [BCDB.HasModel] using same
  have rowAt : reached.rowAt = bcdb.rowAt := by
    funext url id
    rw [rowAt_eq_shape, rowAt_eq_shape, shape, tables]
  have isRow : reached.IsRow = bcdb.IsRow := by
    funext url stored row
    have same := find url (fun _ index => ∃ record schema,
      stored = .record record ∧
        bcdb.schemaFactory.schemasMd5 record.bdata.md5 = some schema ∧
        (record.toObj schema).indexRow index = .ok row)
    unfold BCDB.IsRow
    rw [factory]
    simpa using same
  refine ⟨?_, ?_⟩
  · unfold BCDB.Agreement
    rw [urlOf, hasModel, rowAt, isRow, storclient]
    exact consistent.agreement
  · intro url url' model model' found found' keys
    obtain ⟨other, otherFound, sameKey⟩ :=
      (find url (fun key _ => key = model.key)).mp ⟨model, found, rfl⟩
    obtain ⟨other', otherFound', sameKey'⟩ :=
      (find url' (fun key _ => key = model'.key)).mp ⟨model', found', rfl⟩
    exact consistent.apart url url' other other' otherFound otherFound'
      (by rw [sameKey, sameKey', keys])

/-- Making the object of `set_dynamic` changes at most the version of the
model's schema. -/
theorem BCDBModel.dynamicObj_consistent {url : Url} {data : DynamicData}
    {objId nid : Option Nat} {bcdb reached : BCDB} {root : JSXObjectRoot}
    (done : dynamicObj url data objId nid bcdb = .ok root reached)
    (consistent : Consistent bcdb) : Consistent reached := by
  simp only [dynamicObj, seq_eq_ok_iff, query_eq_ok_iff] at done
  obtain ⟨model, _, ⟨_, rfl⟩, done⟩ := done
  cases data with
  | json data =>
      rw [attempt_eq_ok_iff] at done
      exact done.2 ▸ consistent
  | obj data =>
      rw [attempt_eq_ok_iff] at done
      exact done.2 ▸ consistent
  | dict data =>
      rw [attempt_eq_ok_iff] at done
      exact done.2 ▸ consistent
  | bytes data =>
      simp only [dynamicBytes, seq_eq_ok_iff, query_eq_ok_iff, attempt_eq_ok_iff,
        runIf_eq_ok_iff, modify_eq_ok_iff, return_eq_ok_iff] at done
      obtain ⟨obj, _, ⟨_, rfl⟩, _, between, changed, _, _, ⟨_, rfl⟩, _, rfl⟩ := done
      rcases changed with ⟨_, rfl⟩ | ⟨_, rfl⟩
      · obtain ⟨shape, storclient, tables, factory⟩ :=
          BCDB.schemaChange_frame bcdb obj.schema
        exact consistent.congr shape storclient tables factory
      · exact consistent

theorem JSXObjectRoot.on_eq_ok {root : JSXObjectRoot} {computation : SessionM Unit}
    {bcdb reached : BCDB} (done : root.on computation bcdb = .ok () reached) :
    ∃ session, computation { root with bcdb := bcdb } = .ok () session ∧
      session.bcdb = reached := by
  simpa only [JSXObjectRoot.on, onPart_eq_ok_iff] using done

/-- One sound call keeps the database consistent. -/
theorem Call.SoundAt.consistent {call : Call} {bcdb reached : BCDB}
    (sound : call.SoundAt bcdb) (returns : call.Returns bcdb reached)
    (consistent : Consistent bcdb) : Consistent reached := by
  cases call with
  | set url root index store =>
      obtain ⟨session, done, rfl⟩ := JSXObjectRoot.on_eq_ok returns
      rcases sound with ⟨rfl, rfl⟩ | ⟨rfl, rfl, sound⟩
      · simp only [BCDBModel.set, BCDBModel.setWith, get_seq, seq_eq_ok_iff,
          attempt_eq_ok_iff, runIf_eq_ok_iff] at done
        obtain ⟨_, _, ⟨_, rfl⟩, _, _, first, second⟩ := done
        rcases first with ⟨impossible, _⟩ | ⟨_, rfl⟩
        · cases impossible
        rcases second with ⟨impossible, _⟩ | ⟨_, rfl⟩
        · cases impossible
        exact consistent
      · obtain ⟨agreement, apart⟩ := BCDBModel.set_agreement done
          consistent.agreement consistent.apart sound
        exact ⟨agreement, apart⟩
  | setDynamic url data objId nid =>
      simp only [Returns, run, BCDBModel.setDynamic, get_seq, seq_eq_ok_iff] at returns
      obtain ⟨root, between, made, done⟩ := returns
      have before := BCDBModel.dynamicObj_consistent made consistent
      obtain ⟨session, written, rfl⟩ := JSXObjectRoot.on_eq_ok done
      obtain ⟨agreement, apart⟩ := BCDBModel.set_agreement written
        before.agreement before.apart (sound root between made)
      exact ⟨agreement, apart⟩
  | deleteId url id =>
      obtain ⟨_, removes⟩ := BCDBModel.deleteId_eq_ok returns
      exact ⟨removes.agreement consistent.agreement consistent.apart sound,
        removes.apart consistent.apart⟩
  | deleteObj url root =>
      obtain ⟨session, done, rfl⟩ := JSXObjectRoot.on_eq_ok returns
      rcases BCDBModel.deleteObj_eq_ok done with ⟨_, same⟩ | ⟨id, named, removes⟩
      · rw [same]
        exact consistent
      · exact ⟨removes.agreement consistent.agreement consistent.apart
          (sound id named), removes.apart consistent.apart⟩

/-- Nothing but the mark of the first entry is stored, and no table has a
row. -/
structure BCDB.Fresh (bcdb : BCDB) : Prop where
  store : ∀ id data, bcdb.storclient.get id = some data → data = .init
  rows : ∀ key table id, bcdb.tables key = some table → table.lookup id = none

theorem BCDB.Fresh.agreement {bcdb : BCDB} (fresh : bcdb.Fresh) :
    bcdb.Agreement := by
  intro url _ id
  right
  constructor
  · intro data present belongs
    rw [fresh.store id data present] at belongs
    cases belongs
  · unfold BCDB.rowAt
    cases bcdb.models.find url with
    | none => rw [Option.bind_none]
    | some model =>
        rw [Option.bind_some]
        cases found : bcdb.tables model.key with
        | none => rw [Option.bind_none]
        | some table =>
            rw [Option.bind_some]
            exact fresh.rows model.key table id found

/-- Making a model keeps a database fresh. -/
theorem BCDB.Fresh.modelAdd {bcdb reached : BCDB} {url : Url}
    (fresh : bcdb.Fresh) (done : bcdb.modelAdd url = .ok reached) :
    reached.Fresh := by
  obtain ⟨schema, _, rfl⟩ := BCDB.modelAdd_eq_ok_iff.mp done
  constructor
  · intro id data present
    rw [(BCDB.addModel_sameStore bcdb schema.model).storclient] at present
    exact fresh.store id data present
  · intro key table id found
    rw [BCDB.addModel_tables] at found
    split at found
    · by_cases same : key = schema.model.key
      · rw [same, Function.update_self, Option.some.injEq] at found
        rw [← found]
        exact Table.lookup_create _ id
      · rw [Function.update_of_ne same] at found
        exact fresh.rows key table id found
    · exact fresh.rows key table id found

/-- A call that returns. -/
def Call.Step (call : Call) (bcdb reached : BCDB) : Prop :=
  call.Returns bcdb reached

/-- A sound call that returns. -/
def Call.SoundStep (call : Call) (bcdb reached : BCDB) : Prop :=
  call.SoundAt bcdb ∧ call.Returns bcdb reached

/-- In every run of sound calls on a fresh database whose models have tables of
their own, store and index agree. -/
theorem agreement_of_sound_run {bcdb reached : BCDB} {calls : List Call}
    (fresh : bcdb.Fresh) (apart : bcdb.KeysApart)
    (run : Run Call.SoundStep bcdb calls reached) : reached.Agreement := by
  have consistent : Consistent reached := by
    refine run.invariant ?_ ⟨fresh.agreement, apart⟩
    intro call before after step holds
    exact step.1.consistent step.2 holds
  exact consistent.agreement

/-! ## A small database -/

/-- A schema with one property `name`, which is indexed and unique. -/
def nameSchema (url : Url) (md5 : Md5) : Schema where
  url := url
  md5 := md5
  properties :=
    [{ nr := 1
       name := "name"
       jumpscaletype := stringType ""
       index := true
       unique := true
       sub := none }]
  namesDistinct := by simp
  nameUnique := by simp

/-- A database without models: its store has the first entry only. -/
def BCDB.init (type : StorType) (factory : SchemaFactory) : BCDB where
  readonly := false
  indexReadonly := false
  storclient :=
    { type := type
      readonly := false
      kvs := .insert .empty 0 .init
      incr := match type with
        | .SDB => 0
        | .RDB => 1 }
  tables := fun _ => none
  models := .empty
  urls := []
  schemaFactory := factory

theorem BCDB.fresh_init (type : StorType) (factory : SchemaFactory) :
    (BCDB.init type factory).Fresh where
  store := by
    intro id data present
    simp only [BCDB.init, StorClient.get, OrderedMap.lookup_insert,
      OrderedMap.lookup_empty] at present
    split at present
    · cases present
      rfl
    · cases present
  rows := by
    intro key table id found
    cases found

/-- The models of the urls are made one after the other. -/
def BCDB.withModels (bcdb : BCDB) (urls : List Url) : BCDB :=
  urls.foldl (fun bcdb url => (bcdb.modelAdd url).toOption.getD bcdb) bcdb

theorem BCDB.Fresh.withModels {bcdb : BCDB} (fresh : bcdb.Fresh)
    (urls : List Url) : (bcdb.withModels urls).Fresh := by
  induction urls generalizing bcdb with
  | nil => exact fresh
  | cons url rest induction =>
      have one : ((bcdb.modelAdd url).toOption.getD bcdb).Fresh := by
        cases made : bcdb.modelAdd url with
        | error problem => exact fresh
        | ok reached => exact fresh.modelAdd made
      exact induction one

/-- A database with two models. -/
def twoModels : BCDB :=
  (BCDB.init .SDB (.ofList [nameSchema "test.one" "1", nameSchema "test.two" "2"]
    (by decide))).withModels ["test.one", "test.two"]

theorem twoModels_fresh : twoModels.Fresh :=
  (BCDB.fresh_init _ _).withModels _

theorem twoModels_apart : twoModels.KeysApart := by
  have models : twoModels.models =
      (Models.empty.add (nameSchema "test.one" "1").model).add
        (nameSchema "test.two" "2").model := rfl
  have keys : ∀ url model, twoModels.models.find url = some model →
      url = "test.one" ∧ model.key = "test_one" ∨
        url = "test.two" ∧ model.key = "test_two" := by
    intro url model found
    rw [models, Models.find_add, Models.find_add] at found
    split at found
    · rename_i isTwo
      cases found
      exact .inr ⟨isTwo, by decide⟩
    · split at found
      · rename_i isOne
        cases found
        exact .inl ⟨isOne, by decide⟩
      · cases found
  intro url url' model model' found found' same
  rcases keys url model found with ⟨rfl, key⟩ | ⟨rfl, key⟩ <;>
    rcases keys url' model' found' with ⟨rfl, key'⟩ | ⟨rfl, key'⟩
  · rfl
  · rw [key, key'] at same
    simp at same
  · rw [key, key'] at same
    simp at same
  · rfl

/-- A new object of a schema whose name was set. -/
def Schema.named (schema : Schema) (name : String) (id : Option Nat) : JSXObject :=
  { schema.fromCapnp .empty (some schema.url) with
    deserializedItems := fun prop => if prop = "name" then some (.str name) else none
    changed := true
    id := id
    aclId := some 0 }

/-- A new object of the first model is set. -/
def setOne : Call :=
  .set "test.one" ⟨(nameSchema "test.one" "1").named "a" none, .none⟩ true true

theorem setOne_soundAt : setOne.SoundAt twoModels := by
  have room : twoModels.storclient.Room 1 :=
    ⟨by decide, fun k below => by rw [Nat.lt_one_iff.mp below]; rfl⟩
  refine .inr ⟨rfl, rfl, ⟨⟨rfl, rfl, ?_⟩, ?_, fun _ => room, ?_⟩⟩
  · intro message done prop member value held
    have written : Except.ok (OrderedMap.empty.insert 1 (PyVal.str "a")) =
        Except.ok message := done
    cases written
    cases List.mem_singleton.mp member
    cases held
    rfl
  · intro id named
    cases named
  · intro acl aclModel attached
    cases attached

/-- The second model deletes the id that the object got. -/
def deleteOther : Call := .deleteId "test.two" 1

def afterSet : BCDB := final setOne.run twoModels

def afterForeignDelete : BCDB := final deleteOther.run afterSet

/-- The row of the object that was set agrees with its record. -/
theorem agreement_after_setOne : afterSet.Agreement := by
  have returns : setOne.Returns twoModels afterSet := rfl
  have run : Run Call.SoundStep twoModels [setOne] afterSet :=
    .cons ⟨setOne_soundAt, returns⟩ (.nil _)
  exact agreement_of_sound_run twoModels_fresh twoModels_apart run

/-- An id can be deleted through a model that it does not belong to. -/
theorem foreign_delete_breaks_agreement :
    twoModels.Fresh ∧ twoModels.KeysApart ∧
      Run Call.Step twoModels [setOne, deleteOther] afterForeignDelete ∧
      ¬ afterForeignDelete.Agreement := by
  refine ⟨twoModels_fresh, twoModels_apart, ?_, ?_⟩
  · have first : setOne.Step twoModels afterSet := rfl
    have second : deleteOther.Step afterSet afterForeignDelete := rfl
    exact .cons first (.cons second (.nil _))
  · intro agreement
    have row : afterForeignDelete.rowAt "test.one" 1 =
        some { nid := 1, cols := [("name", .text "a")] } := rfl
    have record : afterForeignDelete.storclient.get 1 = none := rfl
    have entry := agreement "test.one" ⟨_, rfl⟩ 1
    rw [row, record] at entry
    rcases entry with ⟨_, _, impossible, _⟩ | ⟨_, impossible⟩
    · cases impossible
    · cases impossible

end JumpscaleX
