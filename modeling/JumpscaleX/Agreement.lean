import JumpscaleX.Library.PartitionedIndex
import JumpscaleX.Effects

/-!
# Agreement of store and index

`Agreement` says that the table of every model has exactly the rows of the
stored records of its url.  A call keeps it when it writes or deletes under an
id that belongs to its own model and the object stores what it reads.
-/

namespace JumpscaleX

open Fallible Stateful PartitionedIndex

/-- The object of a record, read under the version that it was stored under. -/
def Record.toObj (record : Record) (schema : Schema) : JSXObject :=
  { schema.fromCapnp record.bdata.message none with nid := record.nid }

namespace BCDB

/-- The schema url of the object under an id. -/
def urlOf (bcdb : BCDB) : Stored → Option Url
  | .record record =>
      (bcdb.schemaFactory.schemasMd5 record.bdata.md5).map Schema.url
  | _ => none

/-- The row under an id in the table of a model. -/
def rowAt (bcdb : BCDB) (url : Url) (id : Nat) : Option Row :=
  (bcdb.models.find url).bind (fun model =>
    (bcdb.tables model.key).bind (fun table => table.lookup id))

def HasModel (bcdb : BCDB) (url : Url) : Prop :=
  ∃ model, bcdb.models.find url = some model

/-- The nid and the indexed columns of a row are those of the record. -/
def IsRow (bcdb : BCDB) (url : Url) (stored : Stored) (row : Row) : Prop :=
  ∃ model record schema, bcdb.models.find url = some model ∧
    stored = .record record ∧
    bcdb.schemaFactory.schemasMd5 record.bdata.md5 = some schema ∧
    (record.toObj schema).indexRow model.index = .ok row

/-- Every model's table has one row for each record of the model's url, with
the values of the record, and no other row. -/
def Agreement (bcdb : BCDB) : Prop :=
  Indexed bcdb.urlOf bcdb.IsRow bcdb.HasModel bcdb.storclient.get bcdb.rowAt

/-- No two models keep their index in one table. -/
def KeysApart (bcdb : BCDB) : Prop :=
  ∀ url url' model model', bcdb.models.find url = some model →
    bcdb.models.find url' = some model' → model.key = model'.key → url = url'

/-- What stands under an id, if anything, is no record of another model. -/
def Owns (bcdb : BCDB) (url : Url) (id : Nat) : Prop :=
  OwnedBy bcdb.urlOf bcdb.HasModel bcdb.storclient.get id url

/-- The rows of one model's table after it was replaced. -/
theorem rowAt_update {bcdb : BCDB} (apart : bcdb.KeysApart)
    {url : Url} {model : Model} (found : bcdb.models.find url = some model)
    (storclient : StorClient) (table : Table) (other : Url) (id : Nat) :
    ({ bcdb with
      storclient := storclient
      tables := Function.update bcdb.tables model.key (some table) } : BCDB).rowAt
        other id =
      if other = url then table.lookup id else bcdb.rowAt other id := by
  unfold rowAt
  by_cases same : other = url
  · subst same
    simp [found]
  · rw [if_neg same]
    cases present : bcdb.models.find other with
    | none => simp only [Option.bind_none]
    | some model' =>
        have different : model'.key ≠ model.key := by
          intro keys
          exact same (apart other url model' model present found keys)
        simp only [Option.bind_some, Function.update_of_ne different]

end BCDB

/-- Deleting under an own id keeps the agreement. -/
theorem Removes.agreement {url : Url} {id : Nat} {bcdb reached : BCDB}
    (removes : Removes url id bcdb reached)
    (agreement : bcdb.Agreement) (apart : bcdb.KeysApart)
    (owns : bcdb.Owns url id) : reached.Agreement := by
  obtain ⟨model, table, found, present, rfl⟩ := removes.effect
  have stored : ∀ key,
      (bcdb.storclient.kvs.erase id).lookup key =
        if key = id then none else bcdb.storclient.get key :=
    OrderedMap.lookup_erase _ id
  refine Indexed.step id url agreement owns ?_ ?_ ?_ ?_ ?_
  · intro key different
    exact (stored key).trans (if_neg different)
  · intro key different
    rw [BCDB.rowAt_update apart found, if_pos rfl, Table.lookup_deleteById,
      if_neg different]
    simp [BCDB.rowAt, found, present]
  · intro part _ different key
    rw [BCDB.rowAt_update apart found, if_neg different]
  · intro value part here _
    rw [StorClient.get, stored id, if_pos rfl] at here
    cases here
  · rw [StorClient.get, stored id, if_pos rfl, BCDB.rowAt_update apart found,
      if_pos rfl, Table.lookup_deleteById, if_pos rfl]
    exact Entry.none url

theorem Removes.apart {url : Url} {id : Nat} {bcdb reached : BCDB}
    (removes : Removes url id bcdb reached) (apart : bcdb.KeysApart) :
    reached.KeysApart := by
  obtain ⟨_, _, _, _, rfl⟩ := removes.effect
  exact apart

/-- The object is of the given url, its schema version is known, and it stores
what it reads. -/
structure Sound (bcdb : BCDB) (url : Url) (obj : JSXObject) : Prop where
  known : bcdb.schemaFactory.schemasMd5 obj.schema.md5 = some obj.schema
  url : obj.schema.url = url
  settled : obj.Settled

/-- The row of an object is the row of the record that is made from it. -/
theorem JSXObject.Settled.indexRow {obj : JSXObject} {message : Message}
    (settled : obj.Settled) (done : obj.toCapnp = .ok message)
    (fields : List IndexField) :
    ((obj.record message).toObj obj.schema).indexRow fields =
      ({ obj with capnpObj := message } : JSXObject).indexRow fields := by
  apply JSXObject.indexRow_congr
  · rfl
  · rfl
  · intro prop member
    exact (settled.readProp done member).symm

theorem BCDB.Agreement.row_names {bcdb : BCDB} (agreement : bcdb.Agreement)
    {url : Url} {model : Model} (found : bcdb.models.find url = some model)
    {id : Nat} {row : Row} (present : bcdb.rowAt url id = some row) :
    row.cols.map Prod.fst = model.index.map IndexField.name := by
  rcases agreement url ⟨model, found⟩ id with ⟨_, other, _, _, rowFound, isRow⟩ | ⟨_, absent⟩
  · rw [present, Option.some.injEq] at rowFound
    subst rowFound
    obtain ⟨model', _, _, found', _, _, read⟩ := isRow
    rw [found, Option.some.injEq] at found'
    subst found'
    exact (JSXObject.indexRow_names read).1
  · rw [present] at absent
    cases absent

/-- Putting a sound object under an own id keeps the agreement. -/
theorem Puts.agreement {url : Url} {id : Nat} {obj : JSXObject}
    {bcdb reached : BCDB} (puts : Puts url id obj bcdb reached)
    (agreement : bcdb.Agreement) (apart : bcdb.KeysApart)
    (owns : bcdb.Owns url id) (sound : Sound bcdb url obj)
    (started : obj.id = none → bcdb.storclient.nextId ≠ 0) :
    reached.Agreement := by
  obtain ⟨message, model, row, table, table', client, done, found, read, present,
    set, stores, rfl⟩ := puts.effect
  have atRow : ∀ key, bcdb.rowAt url key = table.lookup key := by
    intro key
    simp [BCDB.rowAt, found, present]
  have names := JSXObject.indexRow_names read
  rw [Table.set_eq_putRow] at set
  · obtain ⟨_, _, lookups⟩ := Table.putRow_eq_ok set
    obtain ⟨kvs, _, _⟩ := stores.kvs started
    have stored : ∀ key, client.get key =
        if key = id then some (.record (obj.record message))
        else bcdb.storclient.get key := by
      intro key
      rw [StorClient.get, kvs, OrderedMap.lookup_insert]
      rfl
    have tagged : bcdb.urlOf (.record (obj.record message)) = some url := by
      simp [BCDB.urlOf, JSXObject.record, sound.known, sound.url]
    refine Indexed.step id url agreement owns ?_ ?_ ?_ ?_ ?_
    · intro key different
      exact (stored key).trans (if_neg different)
    · intro key different
      rw [BCDB.rowAt_update apart found, if_pos rfl, lookups, if_neg different,
        atRow]
    · intro part _ different key
      rw [BCDB.rowAt_update apart found, if_neg different]
    · intro value part here belongs
      rw [stored, if_pos rfl, Option.some.injEq] at here
      subst here
      have urls : some url = some part := tagged.symm.trans belongs
      exact (Option.some.inj urls).symm
    · left
      refine ⟨.record (obj.record message), row, ?_, tagged, ?_, ?_⟩
      · rw [stored, if_pos rfl]
      · rw [BCDB.rowAt_update apart found, if_pos rfl, lookups, if_pos rfl]
      · refine ⟨model, obj.record message, obj.schema, found, rfl, sound.known, ?_⟩
        rw [sound.settled.indexRow done, read]
  · intro old oldFound
    rw [names.1]
    exact agreement.row_names found ((atRow id).trans oldFound)

/-! ## Setting an object with its ACL -/

theorem Sound.congr {bcdb : BCDB} {url : Url} {obj other : JSXObject}
    (sound : Sound bcdb url obj) (schema : other.schema = obj.schema)
    (message : ∀ message, other.toCapnp = .ok message →
      obj.toCapnp = .ok message)
    (items : other.deserializedItems = obj.deserializedItems) :
    Sound bcdb url other where
  known := by rw [schema]; exact sound.known
  url := by rw [schema]; exact sound.url
  settled := by
    intro written done prop member value held
    rw [items] at held
    rw [schema] at member
    exact sound.settled written (message written done) prop member value held

/-- An attached ACL that is saved on the way is sound for its model, and the
ids that are handed out are free and not the one of the object. -/
structure SoundAcl (bcdb : BCDB) (root : JSXObjectRoot) (acl : JSXObject)
    (url : Url) : Prop where
  object : Sound bcdb url acl
  room : bcdb.storclient.Room (if root.obj.id = none then 2 else 1)
  apart : root.obj.id ≠ some bcdb.storclient.nextId

/-- The object is sound, it belongs to its model under the id it has, and a new
id is free. -/
structure SoundSet (bcdb : BCDB) (url : Url) (root : JSXObjectRoot) : Prop where
  object : Sound bcdb url root.obj
  own : ∀ id, root.obj.id = some id → bcdb.Owns url id
  room : root.obj.id = none → bcdb.storclient.Room 1
  acl : ∀ acl aclModel, root.acl = .obj acl →
    BCDBModel.AclPending bcdb acl → acl.model = some aclModel →
      SoundAcl bcdb root acl aclModel

/-- A new id is nobody's. -/
theorem BCDB.owns_of_free {bcdb : BCDB} {url : Url} {id : Nat}
    (free : bcdb.storclient.get id = none) : bcdb.Owns url id := by
  intro value part present
  rw [free] at present
  cases present

theorem BCDB.KeysApart.congr {bcdb reached : BCDB} (apart : bcdb.KeysApart)
    (models : reached.models = bcdb.models) : reached.KeysApart := by
  unfold KeysApart at *
  rw [models]
  exact apart

theorem BCDB.Owns.congr {bcdb reached : BCDB} {url : Url} {id : Nat}
    (owns : bcdb.Owns url id) (models : reached.models = bcdb.models)
    (factory : reached.schemaFactory = bcdb.schemaFactory)
    (stored : reached.storclient.get id = bcdb.storclient.get id) :
    reached.Owns url id := by
  intro value part present belongs isPart
  refine owns value part (stored.symm.trans present) ?_ ?_
  · unfold urlOf at belongs ⊢
    rw [factory] at belongs
    exact belongs
  · unfold HasModel at isPart ⊢
    rw [models] at isPart
    exact isPart

/-- The ACL that is saved on the way is as sound as the attached one. -/
theorem SoundAcl.saved {bcdb : BCDB} {root : JSXObjectRoot} {acl : JSXObject}
    {url : Url} (sound : SoundAcl bcdb root acl url) {message : Message}
    (done : acl.toCapnp = .ok message) :
    Sound bcdb url (BCDBModel.savedAcl acl message) := by
  refine sound.object.congr rfl ?_ rfl
  intro written again
  have same : (BCDBModel.savedAcl acl message).toCapnp = .ok message :=
    JSXObject.toCapnp_again done
  rw [same] at again
  rw [done, again]

namespace BCDBModel

/-- A sound `set` keeps the agreement. -/
theorem set_agreement {url : Url} {session reached : Session} {value : PUnit}
    (done : BCDBModel.set url true true session = .ok value reached)
    (agreement : session.bcdb.Agreement) (apart : session.bcdb.KeysApart)
    (sound : SoundSet session.bcdb url session.toJSXObjectRoot) :
    reached.bcdb.Agreement ∧ reached.bcdb.KeysApart := by
  obtain ⟨between, id, _, attached, puts, _⟩ := setWith_eq_ok done
  obtain ⟨aclId, sameObj, effect⟩ := attachAcl_eq_ok attached
  have object : ∀ bcdb : BCDB, bcdb.schemaFactory = session.bcdb.schemaFactory →
      Sound bcdb url between.obj := by
    intro bcdb factory
    refine ⟨?_, ?_, ?_⟩
    · rw [factory, sameObj]
      exact sound.object.known
    · rw [sameObj]
      exact sound.object.url
    · rw [sameObj]
      exact sound.object.settled
  have given : between.obj.id = session.obj.id := by rw [sameObj]
  have putApart : between.bcdb.KeysApart → reached.bcdb.KeysApart :=
    fun apart => apart.congr puts.frame.1
  obtain ⟨message, serialised, stores⟩ := puts.stores
  rcases effect with ⟨_, same, _⟩ | ⟨acl, aclModel, aclNr, aclMessage, isAcl,
    pending, attachedTo, aclDone, aclPuts⟩
  · -- the ACL, if there is one, stays as it is
    rw [same] at puts stores
    refine ⟨puts.agreement agreement apart ?_ (object _ rfl) ?_,
      putApart (by rw [same]; exact apart)⟩
    · cases named : between.obj.id with
      | some key =>
          rw [named] at stores
          rw [← stores.1]
          exact sound.own key (given.symm.trans named)
      | none =>
          have room := sound.room (given.symm.trans named)
          have isNext := (stores.kvs (fun _ => room.1)).2.2 named
          rw [isNext]
          exact BCDB.owns_of_free (room.2 0 Nat.one_pos)
    · intro isNew
      exact (sound.room (given.symm.trans isNew)).1
  · -- the ACL takes the next id, and the object comes after it
    have soundAcl := sound.acl acl aclModel isAcl pending attachedTo
    obtain ⟨_, _, aclStores⟩ := aclPuts.stores
    have started := soundAcl.room.1
    obtain ⟨kvs, _, isNext⟩ := aclStores.kvs (fun _ => started)
    have aclNrNext : aclNr = session.bcdb.storclient.nextId := isNext rfl
    have aclFree : session.bcdb.storclient.get aclNr = none := by
      rw [aclNrNext]
      exact soundAcl.room.2 0 (by split <;> omega)
    have afterAcl := aclPuts.agreement agreement apart
      (BCDB.owns_of_free aclFree) (soundAcl.saved aclDone) (fun _ => started)
    have apartAfter := apart.congr aclPuts.frame.1
    refine ⟨puts.agreement afterAcl apartAfter ?_ (object _ aclPuts.frame.2) ?_,
      putApart apartAfter⟩
    · cases named : between.obj.id with
      | some key =>
          rw [named] at stores
          have isKey : session.obj.id = some key := given.symm.trans named
          have different : key ≠ aclNr := by
            intro same
            exact soundAcl.apart (by rw [← aclNrNext, ← same]; exact isKey)
          rw [← stores.1]
          refine (sound.own key isKey).congr aclPuts.frame.1 aclPuts.frame.2 ?_
          rw [StorClient.get, kvs, OrderedMap.lookup_insert_of_ne _ different]
          rfl
      | none =>
          have room : between.bcdb.storclient.Room 1 := by
            have two := soundAcl.room
            rw [if_pos (given.symm.trans named)] at two
            exact two.stores aclStores
          have isNext := (stores.kvs (fun _ => room.1)).2.2 named
          rw [isNext]
          exact BCDB.owns_of_free (room.2 0 Nat.one_pos)
    · intro isNew
      have two := soundAcl.room
      rw [if_pos (given.symm.trans isNew)] at two
      exact (two.stores aclStores).1

end BCDBModel

end JumpscaleX
