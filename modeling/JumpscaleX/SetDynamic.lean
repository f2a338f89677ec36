import JumpscaleX.AgreementRuns
import JumpscaleX.ObjectCopies
import JumpscaleX.Reindex

/-!
# The forms of `set_dynamic`

The content of an object can be given as json text, as a dict, as a JSX object
or as the bytes of one.  This module compares what the four branches store and
return with storing the content under the id and the nid of the call.
-/

namespace JumpscaleX

open Fallible Stateful

/-- Work on a root object, and return the object that is left. -/
def JSXObjectRoot.returning (root : JSXObjectRoot) (computation : SessionM Unit) :
    BCDBM JSXObject :=
  root.on (do
    computation
    let session ← getThe Session
    return session.obj)

namespace BCDBModel

/-- `set_dynamic(data, obj_id, nid)` with the object that it returns. -/
def setDynamicObj (url : Url) (data : DynamicData) (objId nid : Option Nat) :
    BCDBM JSXObject := do
  let bcdb ← getThe BCDB
  let _ := bcdb.isWritableCheck
  let root ← dynamicObj url data objId nid
  root.returning (set url true true)

/-- The dict in the hands of the caller after `set_dynamic`. -/
def callerDict (data : DataDict) (nid : Option Nat) : DataDict :=
  if (idIn data "nid").getD 0 ≠ 0 ∨ nid.getD 0 = 0 then data
  else data.filter (fun item => item.1 ≠ "nid") ++ [("nid", .int (nid.getD 0))]

/-- A dict without a nid is changed. -/
theorem idIn_callerDict (data : DataDict) {nid : Nat}
    (without : (idIn data "nid").getD 0 = 0) (given : nid ≠ 0) :
    idIn (callerDict data (some nid)) "nid" = some nid := by
  have removed : (data.filter (fun item => item.1 ≠ "nid")).find?
      (fun item => item.1 = "nid") = none := by
    rw [List.find?_eq_none]
    intro item member
    simpa using (List.mem_filter.mp member).2
  rw [callerDict, if_neg (by simp [without, given]), idIn, List.find?_append, removed]
  simp

/-- The dict that the object is made from is the one the caller is left
with. -/
theorem dynamicDict_eq (data : DataDict) (objId nid : Option Nat) (model : Model) :
    dynamicDict data objId nid model = (do
      ensure ((idIn data "nid").getD 0 ≠ 0 ∨ nid.getD 0 ≠ 0)
        (.base "need to specify nid")
      let obj ← model.schema.new false none (callerDict data nid)
      return dynamicRoot { obj := { obj with nid := nid.getD 0 }, acl := .none }
        (objId.or (idIn data "id"))) := by
  unfold dynamicDict callerDict
  by_cases own : (idIn data "nid").getD 0 ≠ 0
  · rw [if_pos own, if_pos (.inl own)]
  · by_cases given : nid.getD 0 = 0
    · have refused : ¬ ((idIn data "nid").getD 0 ≠ 0 ∨ nid.getD 0 ≠ 0) := by
        simp [given, not_not.mp own]
      rw [ensure_of_not refused]
      rfl
    · have kept : ¬ ((idIn data "nid").getD 0 ≠ 0 ∨ nid.getD 0 = 0) := by
        simp [given, not_not.mp own]
      rw [if_neg own, if_neg kept]

/-- What `set_dynamic` does to the database is what the version that returns
the object does. -/
theorem setDynamic_eq_ok_iff {url : Url} {data : DynamicData} {objId nid : Option Nat}
    {bcdb reached : BCDB} :
    setDynamic url data objId nid bcdb = .ok () reached ↔
      ∃ back, setDynamicObj url data objId nid bcdb = .ok back reached := by
  simp only [setDynamic, setDynamicObj, JSXObjectRoot.returning, JSXObjectRoot.on,
    get_seq, seq_eq_ok_iff, onPart_eq_ok_iff, return_eq_ok_iff]
  constructor
  · rintro ⟨root, between, made, session, done, rfl⟩
    exact ⟨session.obj, root, between, made, session, ⟨(), session, done, rfl, rfl⟩, rfl⟩
  · rintro ⟨back, root, between, made, session, ⟨_, _, done, rfl, rfl⟩, rfl⟩
    exact ⟨root, between, made, _, done, rfl⟩

/-! ## Storing an object under an id -/

/-- The object stands under the id, in the store and in the index, and the
call returns it. -/
structure PutsUnder (url : Url) (obj : JSXObject) (id : Nat) (bcdb : BCDB)
    (back : JSXObject) (reached : BCDB) : Prop where
  hasNid : obj.nid ≠ 0
  hasId : id ≠ 0
  small : id < 2 ^ 32
  effect : ∃ message model row table table' client,
    obj.toCapnp = .ok message ∧
    bcdb.models.find url = some model ∧
    ({ obj with capnpObj := message } : JSXObject).indexRow model.index = .ok row ∧
    bcdb.tables model.key = some table ∧
    bcdb.indexReadonly = false ∧
    table.set id row = .ok table' ∧
    bcdb.storclient.set id (.record
      { nid := obj.nid
        aclId := some (obj.aclId.getD 0)
        bdata := { objId := id, md5 := obj.schema.md5, message := message } }) =
          .ok client ∧
    back =
      { obj with
        aclId := some (obj.aclId.getD 0)
        capnpObj := message } ∧
    reached = ({ bcdb with storclient := client } : BCDB).setTable model.key table'

/-- The serialised object, and the message that it is renewed to. -/
theorem data_eq_ok_iff {session reached : Session} {bdata : BData} :
    data session = .ok bdata reached ↔
      ∃ message, session.obj.toCapnp = .ok message ∧ session.obj.id.getD 0 < 2 ^ 32 ∧
        bdata =
          { objId := session.obj.id.getD 0
            md5 := session.obj.schema.md5
            message := message } ∧
        reached = { session with obj := { session.obj with capnpObj := message } } := by
  simp only [data, get_seq, seq_eq_ok_iff, attempt_eq_ok_iff, Session.setObj, modify_seq,
    JSXObject.dumps, bind_eq_ok_iff, ensure_eq_ok_iff, pure_eq_ok_iff]
  constructor
  · rintro ⟨message, _, ⟨first, rfl⟩, ⟨again, second, _, small, rfl⟩, rfl⟩
    rw [JSXObject.toCapnp_again first, Except.ok.injEq] at second
    exact ⟨message, first, small, by rw [second], rfl⟩
  · rintro ⟨message, first, small, rfl, rfl⟩
    exact ⟨message, session, ⟨first, rfl⟩,
      ⟨message, JSXObject.toCapnp_again first, (), small, rfl⟩, rfl⟩

theorem storSet_eq_ok_iff {record : Record} {session reached : Session} {id : Nat}
    (named : session.obj.id = some id) :
    storSet record session = .ok () reached ↔
      ∃ client, session.bcdb.storclient.set id (.record record) = .ok client ∧
        reached = { session with
          bcdb := { session.bcdb with storclient := client } } := by
  simp only [storSet, get_seq, named, Session.onBcdb, onPart_eq_ok_iff, storUpdate,
    advance_eq_ok_iff, bind_eq_ok_iff, pure_eq_ok_iff]
  constructor
  · rintro ⟨_, ⟨client, written, rfl⟩, rfl⟩
    exact ⟨client, written, rfl⟩
  · rintro ⟨client, written, rfl⟩
    exact ⟨_, ⟨client, written, rfl⟩, rfl⟩

theorem setRecord_eq_ok_iff {session reached : Session} {id : Nat}
    (named : session.obj.id = some id) :
    setRecord session = .ok () reached ↔
      0 < session.obj.nid ∧ id < 2 ^ 32 ∧ ∃ message client,
        session.obj.toCapnp = .ok message ∧
        session.bcdb.storclient.set id (.record (session.obj.record message)) =
          .ok client ∧
        reached = { session with
          bcdb := { session.bcdb with storclient := client }
          obj := { session.obj with capnpObj := message } } := by
  simp only [setRecord, get_seq, seq_eq_ok_iff, attempt_eq_ok_iff, ensure_eq_ok_iff,
    data_eq_ok_iff]
  constructor
  · rintro ⟨_, _, ⟨message, serialised, small, rfl, rfl⟩, _, _, ⟨positive, rfl⟩, stored⟩
    rw [storSet_eq_ok_iff (by exact named)] at stored
    obtain ⟨client, written, rfl⟩ := stored
    rw [named] at small
    exact ⟨positive, small, message, client, serialised, written, rfl⟩
  · rintro ⟨positive, small, message, client, serialised, written, rfl⟩
    refine ⟨_, _, ⟨message, serialised, by rw [named]; exact small, rfl, rfl⟩, (), _,
      ⟨positive, rfl⟩, ?_⟩
    rw [storSet_eq_ok_iff (by exact named)]
    exact ⟨client, written, rfl⟩

/-- The object that was put serialises as it was stored. -/
theorem PutsUnder.dumps_back {url : Url} {obj back : JSXObject} {id : Nat}
    {bcdb reached : BCDB} (puts : PutsUnder url obj id bcdb back reached)
    (named : obj.id = some id) {message : Message}
    (serialised : obj.toCapnp = .ok message) :
    back.dumps = .ok { objId := id, md5 := obj.schema.md5, message := message } := by
  obtain ⟨message', _, _, _, _, _, serialised', _, _, _, _, _, _, rfl, _⟩ := puts.effect
  have same : message' = message := Except.ok.inj (serialised'.symm.trans serialised)
  subst same
  have again : ({ obj with
      aclId := some (obj.aclId.getD 0), capnpObj := message' } : JSXObject).toCapnp =
        .ok message' :=
    JSXObject.toCapnp_again serialised'
  have small : obj.id.getD 0 < 2 ^ 32 := by
    rw [named]
    exact puts.small
  rw [JSXObject.dumps, again]
  change (ensure (obj.id.getD 0 < 2 ^ 32) Exn.overflowError >>= fun _ => _) = _
  rw [ensure_of small]
  simp [named, bind, Except.bind, pure, Except.pure]

/-- What `set` does with an object that has an id and no ACL. -/
theorem returning_set_eq_ok_iff {url : Url} {obj back : JSXObject} {id : Nat}
    {bcdb reached : BCDB} (named : obj.id = some id) :
    (JSXObjectRoot.mk obj .none).returning (set url true true) bcdb = .ok back reached ↔
      PutsUnder url obj id bcdb back reached := by
  have stored : ∀ {session : Session} {after : Session}, session.acl = .none →
      (setStore attachAcl session = .ok () after ↔
        setRecord { session with
          obj := { session.obj with aclId := some (session.obj.aclId.getD 0) } } =
            .ok () after) := by
    intro session after none
    simp only [setStore, get_seq, Session.setObj, modify_seq, attachAcl, none]
    rfl
  simp only [JSXObjectRoot.returning, JSXObjectRoot.on, onPart_eq_ok_iff, set, setWith,
    setIndex, get_seq, seq_eq_ok_iff, attempt_eq_ok_iff, ensure_eq_ok_iff,
    runIf_eq_ok_iff, return_eq_ok_iff, rename_eq_ok_iff, true_and, not_true, false_and,
    or_false, Bool.true_eq_false, not_false_eq_true, false_or]
  constructor
  · rintro ⟨_, ⟨_, session, ⟨_, _, ⟨hasNid, rfl⟩, _, _, puts, _, _, rfl, indexed⟩, rfl, rfl⟩,
      rfl⟩
    rw [stored rfl, setRecord_eq_ok_iff (by exact named)] at puts
    obtain ⟨_, small, message, client, serialised, written, rfl⟩ := puts
    have hasId : id ≠ 0 := by
      obtain ⟨_, _, _, _, _, _, _, _, named', _⟩ := indexSet_eq_ok indexed
      simpa [named] using named'
    rw [indexSet_eq_ok_iff (by exact named) hasId] at indexed
    obtain ⟨_, writable, model, row, table, table', found, read, present, put, rfl⟩ := indexed
    refine ⟨hasNid, hasId, small, message, model, row, table, table', client, serialised, found,
      ?_, present, writable, put, ?_, rfl, rfl⟩
    · rw [← read]
      exact JSXObject.indexRow_congr rfl rfl (fun _ _ => rfl) _
    · rw [← written]
      simp [JSXObject.record, named]
  · rintro ⟨hasNid, hasId, small, message, model, row, table, table', client, serialised,
      found, read, present, writable, put, written, rfl, rfl⟩
    let after : Session :=
      { obj := { obj with aclId := some (obj.aclId.getD 0), capnpObj := message }
        acl := .none
        bcdb := { bcdb with storclient := client } }
    refine ⟨{ after with bcdb := after.bcdb.setTable model.key table' },
      ⟨(), _, ⟨(), _, ⟨hasNid, rfl⟩, (), after, ?_, (), _, rfl, ?_⟩, rfl, rfl⟩, rfl⟩
    · rw [stored rfl, setRecord_eq_ok_iff (by exact named)]
      refine ⟨Nat.pos_of_ne_zero hasNid, small, message, client, serialised, ?_, rfl⟩
      rw [← written]
      simp [JSXObject.record, named]
    · rw [indexSet_eq_ok_iff (by exact named) hasId]
      refine ⟨hasNid, writable, model, row, table, table', found, ?_, present, put, rfl⟩
      rw [← read]
      exact JSXObject.indexRow_congr rfl rfl (fun _ _ => rfl) _

end BCDBModel

/-! ## Objects made from a dict -/

/-- The objects differ in their values only. -/
structure JSXObject.SameAttributes (obj other : JSXObject) : Prop where
  schema : other.schema = obj.schema
  model : other.model = obj.model
  id : other.id = obj.id
  nid : other.nid = obj.nid
  aclId : other.aclId = obj.aclId

namespace JSXObject

variable {readonly : Bool} {obj next : JSXObject}

theorem SameAttributes.trans {other : JSXObject} (first : obj.SameAttributes next)
    (later : next.SameAttributes other) : obj.SameAttributes other := by
  constructor
  · rw [later.schema, first.schema]
  · rw [later.model, first.model]
  · rw [later.id, first.id]
  · rw [later.nid, first.nid]
  · rw [later.aclId, first.aclId]

theorem setProp_sameAttributes {prop : SchemaProperty} {value : PyVal}
    (done : obj.setProp readonly prop value = .ok next) : obj.SameAttributes next := by
  simp only [setProp, bind_eq_ok_iff] at done
  obtain ⟨_, _, cleaned, _, present, _, done⟩ := done
  split at done
  · cases done
    exact ⟨rfl, rfl, rfl, rfl, rfl⟩
  · cases done
    exact ⟨rfl, rfl, rfl, rfl, rfl⟩

theorem defaultsSet_sameAttributes (done : obj.defaultsSet readonly = .ok next) :
    obj.SameAttributes next := by
  apply foldlM_keeps obj.SameAttributes _ ⟨rfl, rfl, rfl, rfl, rfl⟩ done
  intro between prop later same step
  exact same.trans (setProp_sameAttributes step)

/-- `_data_update` by property names touches values only. -/
theorem dataUpdate_sameAttributes {values : DataDict}
    (known : ∀ item ∈ values, (obj.schema.property? item.1).isSome = true)
    (done : obj.dataUpdate readonly values = .ok next) : obj.SameAttributes next := by
  induction values generalizing obj with
  | nil =>
      cases done
      exact ⟨rfl, rfl, rfl, rfl, rfl⟩
  | cons item rest induction =>
      rw [dataUpdate, List.foldlM_cons, bind_eq_ok_iff] at done
      obtain ⟨between, first, later⟩ := done
      obtain ⟨prop, found⟩ := Option.isSome_iff_exists.mp (known item List.mem_cons_self)
      simp only [setattr, found] at first
      have same := setProp_sameAttributes first
      apply same.trans
      apply induction _ later
      intro other member
      rw [same.schema]
      exact known other (List.mem_cons_of_mem _ member)

/-- The model of an object plays no part in what is assigned to it. -/
theorem setProp_withModel {prop : SchemaProperty} {value : PyVal} (model : Option Url)
    (done : obj.setProp readonly prop value = .ok next) :
    ({ obj with model := model } : JSXObject).setProp readonly prop value =
      .ok { next with model := model } := by
  simp only [setProp, bind_eq_ok_iff, ensure_eq_ok_iff] at done ⊢
  obtain ⟨_, writable, cleaned, cleans, present, reads, done⟩ := done
  refine ⟨(), writable, cleaned, cleans, present, reads, ?_⟩
  by_cases equal : prop.jumpscaletype.eq cleaned present = true
  · rw [if_pos equal] at done ⊢
    cases done
    rfl
  · rw [if_neg equal] at done ⊢
    cases done
    rfl

theorem setattr_withModel {key : String} {value : PyVal} (model : Option Url)
    (done : obj.setattr readonly key value = .ok next) :
    ({ obj with model := model } : JSXObject).setattr readonly key value =
      .ok { next with model := model } := by
  unfold setattr at done ⊢
  dsimp only
  cases found : obj.schema.property? key with
  | some prop =>
      rw [found] at done
      exact setProp_withModel model done
  | none =>
      rw [found] at done
      dsimp only at done ⊢
      split at done <;> cases done <;> rfl

end JSXObject

theorem Schema.new_withModel {schema : Schema} {readonly : Bool} {model : Option Url}
    {datadict : DataDict} {obj : JSXObject} (other : Option Url)
    (done : schema.new readonly model datadict = .ok obj) :
    schema.new readonly other datadict = .ok { obj with model := other } := by
  simp only [Schema.new, bind_eq_ok_iff] at done ⊢
  obtain ⟨filled, defaults, updated⟩ := done
  obtain ⟨filled', defaults', rfl⟩ := foldlM_imitates
    (fun obj prop => JSXObject.setProp readonly obj prop prop.jumpscaletype.defaultGet)
    (fun obj obj' : JSXObject => obj' = { obj with model := other })
    (by
      rintro state _ prop next rfl step
      exact ⟨_, JSXObject.setProp_withModel other step, rfl⟩) rfl defaults
  obtain ⟨_, updated', rfl⟩ := foldlM_imitates
    (fun obj item => JSXObject.setattr readonly obj item.1 item.2)
    (fun obj obj' : JSXObject => obj' = { obj with model := other })
    (by
      rintro state _ item next rfl step
      exact ⟨_, JSXObject.setattr_withModel other step, rfl⟩) rfl updated
  exact ⟨_, defaults', updated'⟩

/-- Making an object of a readonly model assigns its defaults. -/
theorem Schema.properties_of_new_readonly {schema : Schema} {model : Option Url}
    {datadict : DataDict} {obj : JSXObject}
    (made : schema.new true model datadict = .ok obj) : schema.properties = [] := by
  simp only [Schema.new, bind_eq_ok_iff] at made
  obtain ⟨filled, defaults, _⟩ := made
  cases present : schema.properties with
  | nil => rfl
  | cons prop rest =>
      simp only [JSXObject.defaultsSet, Schema.fromCapnp, present, List.foldlM_cons,
        bind_eq_ok_iff, JSXObject.setProp, ensure_eq_ok_iff] at defaults
      obtain ⟨_, ⟨_, impossible, _⟩, _⟩ := defaults
      cases impossible

/-- Without properties there is nothing that a readonly model refuses. -/
theorem Schema.new_readonly {schema : Schema} {model : Option Url} {datadict : DataDict}
    {obj : JSXObject} (made : schema.new false model datadict = .ok obj)
    (propertyless : schema.properties = []) :
    schema.new true model datadict = .ok obj := by
  simp only [Schema.new, bind_eq_ok_iff] at made ⊢
  obtain ⟨filled, defaults, updated⟩ := made
  have empty : filled = { schema.fromCapnp .empty model with aclId := some 0 } := by
    simp only [JSXObject.defaultsSet, Schema.fromCapnp, propertyless, List.foldlM_nil,
      pure_eq_ok_iff] at defaults
    exact defaults.symm
  have bare : filled.schema.properties = [] := by
    rw [empty]
    exact propertyless
  obtain ⟨_, updated', rfl, _⟩ := foldlM_imitates
    (fun obj item => JSXObject.setattr true obj item.1 item.2)
    (fun obj obj' : JSXObject => obj = obj' ∧ obj.schema.properties = [])
    (by
      rintro state _ item next ⟨rfl, bare⟩ step
      have unknown : state.schema.property? item.1 = none := by
        simp [Schema.property?, bare]
      simp only [JSXObject.setattr, unknown] at step ⊢
      refine ⟨next, step, rfl, ?_⟩
      split at step <;> cases step <;> exact bare) ⟨rfl, bare⟩ updated
  refine ⟨filled, ?_, updated'⟩
  simp only [JSXObject.defaultsSet, Schema.fromCapnp, propertyless, List.foldlM_nil, empty]
  rfl

/-- An object over a message that nothing was read from serialises as the
message. -/
theorem BData.toCapnp_toObj (bdata : BData) (schema : Schema) (model : Option Url)
    (id : Option Nat) :
    ({ bdata.toObj schema model with id := id } : JSXObject).toCapnp =
      .ok bdata.message := by
  have unread : ∀ props : List SchemaProperty,
      props.foldlM (writeField (fun _ => none)) bdata.message = .ok bdata.message := by
    intro props
    induction props with
    | nil => rfl
    | cons prop rest induction => exact induction
  unfold JSXObject.toCapnp
  split
  · exact unread _
  · rfl

/-! ## The content of a call -/

/-- The content of an object in the form of a dict: values of properties, and
the id and the nid when they are in it. -/
structure DynamicContent (schema : Schema) where
  values : DataDict
  distinct : (values.map Prod.fst).Nodup
  known : ∀ item ∈ values, (schema.property? item.1).isSome = true
  id : Option Nat
  nid : Option Nat

namespace DynamicContent

variable {schema : Schema} (content : DynamicContent schema)

def datadict : DataDict :=
  content.values ++ (content.id.map (fun id => ("id", .int id))).toList ++
    (content.nid.map (fun nid => ("nid", .int nid))).toList

theorem values_without {key : String} (unknown : schema.property? key = none) :
    content.values.find? (fun item => item.1 = key) = none := by
  rw [List.find?_eq_none]
  intro item member named
  have known := content.known item member
  rw [of_decide_eq_true named, unknown] at known
  cases known

variable (noId : schema.property? "id" = none) (noNid : schema.property? "nid" = none)

include noId in
theorem idIn_id : BCDBModel.idIn content.datadict "id" = content.id := by
  unfold BCDBModel.idIn datadict
  rw [List.find?_append, List.find?_append, content.values_without noId]
  cases content.id <;> cases content.nid <;> rfl

include noNid in
theorem idIn_nid : BCDBModel.idIn content.datadict "nid" = content.nid := by
  unfold BCDBModel.idIn datadict
  rw [List.find?_append, List.find?_append, content.values_without noNid]
  cases content.id <;> cases content.nid <;> rfl

include noId noNid in
/-- The object that is made from the content. -/
theorem new_datadict {readonly : Bool} {model : Option Url} {obj : JSXObject}
    (done : schema.new readonly model content.datadict = .ok obj) :
    obj.schema = schema ∧ obj.id = content.id ∧ obj.nid = content.nid.getD 1 ∧
      obj.aclId = some 0 := by
  simp only [Schema.new, bind_eq_ok_iff] at done
  obtain ⟨fresh, defaults, updated⟩ := done
  have first := JSXObject.defaultsSet_sameAttributes defaults
  rw [JSXObject.dataUpdate, datadict, List.foldlM_append, bind_eq_ok_iff] at updated
  obtain ⟨between, front, last⟩ := updated
  rw [List.foldlM_append, bind_eq_ok_iff] at front
  obtain ⟨filled, fills, named⟩ := front
  have second : fresh.SameAttributes filled := by
    apply JSXObject.dataUpdate_sameAttributes _ fills
    rw [first.schema]
    exact content.known
  have same := first.trans second
  have withId : between.schema = schema ∧ between.id = content.id ∧ between.nid = 1 ∧
      between.aclId = some 0 := by
    cases given : content.id with
    | none =>
        rw [given] at named
        cases named
        exact ⟨same.schema, same.id, same.nid, same.aclId⟩
    | some id =>
        have unknown : filled.schema.property? "id" = none := by
          rw [same.schema]
          exact noId
        rw [given] at named
        simp only [Option.map_some, Option.toList_some, List.foldlM_cons, List.foldlM_nil,
          JSXObject.setattr, unknown] at named
        cases named
        exact ⟨same.schema, rfl, same.nid, same.aclId⟩
  cases given : content.nid with
  | none =>
      rw [given] at last
      cases last
      exact withId
  | some nid =>
      have unknown : between.schema.property? "nid" = none := by
        rw [withId.1]
        exact noNid
      rw [given] at last
      simp only [Option.map_some, Option.toList_some, List.foldlM_cons, List.foldlM_nil,
        JSXObject.setattr, unknown] at last
      cases last
      exact ⟨withId.1, withId.2.1, rfl, withId.2.2.2⟩

end DynamicContent

/-- A call of `set_dynamic` with the content of an object of the model, as a
dict, as the object itself and as its bytes.  The content can be stored under
the id and the nid of the call, or those in the data where the call gives
none. -/
structure DynamicCall where
  bcdb : BCDB
  url : Url
  model : Model
  found : bcdb.models.find url = some model
  noId : model.schema.property? "id" = none
  noNid : model.schema.property? "nid" = none
  content : DynamicContent model.schema
  obj : JSXObject
  made : model.schema.new false (some url) content.datadict = .ok obj
  bdata : BData
  dumped : obj.dumps = .ok bdata
  objId : Option Nat
  nid : Option Nat
  back : JSXObject
  reached : BCDB
  stored : (JSXObjectRoot.mk
    { obj with id := objId.or obj.id, nid := nid.getD obj.nid } .none).returning
      (BCDBModel.set url true true) bcdb = .ok back reached

/-- The forms of the data. -/
inductive DynamicForm where
  | json
  | dict
  | obj
  | bytes

namespace DynamicCall

variable (call : DynamicCall)

def data : DynamicForm → BCDBModel.DynamicData
  | .json => .json call.content.datadict
  | .dict => .dict call.content.datadict
  | .obj => .obj { obj := call.obj, acl := .none }
  | .bytes => .bytes call.bdata

/-- The form stores the same record under the same id and nid, and returns an
equal object: one with the same serialised data. -/
def Agrees (form : DynamicForm) : Prop :=
  ∃ back reached,
    BCDBModel.setDynamicObj call.url (call.data form) call.objId call.nid call.bcdb =
      .ok back reached ∧
    reached.storclient = call.reached.storclient ∧ back.id = call.back.id ∧
    back.nid = call.back.nid ∧ back.dumps = call.back.dumps

/-- All forms agree, and the dict of the caller stays as it was. -/
def AsClaimed : Prop :=
  (∀ form, call.Agrees form) ∧
    BCDBModel.callerDict call.content.datadict call.nid = call.content.datadict

/-- The schema that the bytes are read under is the model's version. -/
def Newest (schema : Schema) : Prop :=
  call.bcdb.schemaFactory.newestOf call.model.schema.md5 = some schema ∧
    schema.md5 = call.model.schema.md5

/-- What the values of the bytes read as has a place in the index. -/
def Indexable (schema : Schema) (id : Nat) : Prop :=
  ∃ row table table',
    (call.bdata.toObj schema (some call.url)).indexRow call.model.index = .ok row ∧
    call.bcdb.tables call.model.key = some table ∧ table.set id row = .ok table'

/-- The call gives the id, which the data does not contradict, and the nid 1,
as the data does; the model takes values; the schema of the model is the newest
version of its url, and its bytes can be indexed. -/
structure Plain : Prop where
  id : ∃ id, call.objId = some id ∧
    (call.content.id.getD 0 = 0 ∨ call.content.id = some id) ∧
      ∃ schema, call.Newest schema ∧ call.Indexable schema id
  nid : call.nid = some 1 ∧ call.content.nid = some 1
  writable : call.model.readonly = true → call.model.schema.properties = []

open BCDBModel

theorem obj_of_content :
    call.obj.schema = call.model.schema ∧ call.obj.id = call.content.id ∧
      call.obj.nid = call.content.nid.getD 1 ∧ call.obj.aclId = some 0 :=
  call.content.new_datadict call.noId call.noNid call.made

theorem bdata_of_obj :
    call.obj.toCapnp = .ok call.bdata.message ∧
      call.bdata.objId = call.obj.id.getD 0 ∧
      call.bdata.md5 = call.model.schema.md5 := by
  have dumped := call.dumped
  simp only [JSXObject.dumps, bind_eq_ok_iff, pure_eq_ok_iff] at dumped
  obtain ⟨message, serialised, _, _, same⟩ := dumped
  rw [← same]
  exact ⟨serialised, rfl, by rw [call.obj_of_content.1]⟩

variable {id : Nat}

/-- What the content is stored as when the call gives the id. -/
theorem stored_under (given : call.objId = some id) :
    PutsUnder call.url { call.obj with id := some id, nid := call.nid.getD call.obj.nid }
      id call.bcdb call.back call.reached := by
  have stored := call.stored
  rw [given] at stored
  exact (returning_set_eq_ok_iff rfl).mp stored

/-- Another object with the same id, nid and message is stored as the same
record when the index takes its row. -/
theorem agrees_of_put (given : call.objId = some id) (other : JSXObject)
    (otherId : other.id = some id) (otherNid : other.nid = call.nid.getD call.obj.nid)
    (noAcl : other.aclId.getD 0 = 0) (md5 : other.schema.md5 = call.model.schema.md5)
    (serialised : other.toCapnp = .ok call.bdata.message) {row : Row} {table table' : Table}
    (read : ({ other with capnpObj := call.bdata.message } : JSXObject).indexRow
      call.model.index = .ok row)
    (present : call.bcdb.tables call.model.key = some table)
    (put : table.set id row = .ok table') :
    ∃ back reached,
      (JSXObjectRoot.mk other .none).returning (set call.url true true) call.bcdb =
        .ok back reached ∧
      reached.storclient = call.reached.storclient ∧ back.id = call.back.id ∧
      back.nid = call.back.nid ∧ back.dumps = call.back.dumps := by
  have puts := call.stored_under given
  obtain ⟨serialises, _, _⟩ := call.bdata_of_obj
  have dumpsRef := puts.dumps_back rfl serialises
  obtain ⟨message, model, _, _, _, client, serialised', found, _, _, writable, _, written,
    back, reached⟩ := puts.effect
  have sameMessage : message = call.bdata.message :=
    Except.ok.inj (serialised'.symm.trans serialises)
  have sameModel : call.model = model := Option.some.inj (call.found.symm.trans found)
  subst sameModel
  subst sameMessage
  have record : call.bcdb.storclient.set id (.record
      { nid := other.nid
        aclId := some (other.aclId.getD 0)
        bdata := { objId := id, md5 := other.schema.md5, message := call.bdata.message } }) =
      .ok client := by
    rw [← written, otherNid, noAcl, md5, call.obj_of_content.1, call.obj_of_content.2.2.2]
    rfl
  have hasNid : other.nid ≠ 0 := by
    rw [otherNid]
    exact puts.hasNid
  have putsOther : PutsUnder call.url other id call.bcdb _ _ :=
    ⟨hasNid, puts.hasId, puts.small, call.bdata.message, call.model, row, table, table',
      client, serialised, found, read, present, writable, put, record, rfl, rfl⟩
  refine ⟨_, _, (returning_set_eq_ok_iff otherId).mpr putsOther, ?_, ?_, ?_, ?_⟩
  · rw [reached]
    rfl
  · rw [back]
    exact otherId
  · rw [back]
    exact otherNid
  · rw [putsOther.dumps_back otherId serialised, dumpsRef, md5, call.obj_of_content.1]

theorem setDynamicObj_eq_ok_iff {data : DynamicData} {back : JSXObject} {reached : BCDB} :
    setDynamicObj call.url data call.objId call.nid call.bcdb = .ok back reached ↔
      ∃ root between,
        dynamicObj call.url data call.objId call.nid call.bcdb = .ok root between ∧
        root.returning (set call.url true true) between = .ok back reached := by
  simp only [setDynamicObj, get_seq, seq_eq_ok_iff]

variable {root : JSXObjectRoot} {between : BCDB}

theorem dynamicObj_json_iff :
    dynamicObj call.url (call.data .json) call.objId call.nid call.bcdb =
        .ok root between ↔
      call.bcdb = between ∧
        dynamicJson call.url call.content.datadict call.objId call.nid call.model =
          .ok root := by
  have found := BCDB.model_eq_ok_iff.mpr call.found
  simp [dynamicObj, data, seq_eq_ok_iff, query_eq_ok_iff, attempt_eq_ok_iff, found]

theorem dynamicObj_dict_iff :
    dynamicObj call.url (call.data .dict) call.objId call.nid call.bcdb =
        .ok root between ↔
      call.bcdb = between ∧
        dynamicDict call.content.datadict call.objId call.nid call.model = .ok root := by
  have found := BCDB.model_eq_ok_iff.mpr call.found
  simp [dynamicObj, data, seq_eq_ok_iff, query_eq_ok_iff, attempt_eq_ok_iff, found]

theorem dynamicObj_obj_iff :
    dynamicObj call.url (call.data .obj) call.objId call.nid call.bcdb =
        .ok root between ↔
      call.bcdb = between ∧
        dynamicGiven { obj := call.obj, acl := .none } call.objId call.nid = .ok root := by
  have found := BCDB.model_eq_ok_iff.mpr call.found
  simp [dynamicObj, data, seq_eq_ok_iff, query_eq_ok_iff, attempt_eq_ok_iff, found]

/-- The bytes are read under the newest version of the schema that their md5
belongs to. -/
theorem loads_bdata_iff {loaded : JSXObject} :
    call.bcdb.schemaFactory.loads call.bdata (some call.url) = .ok loaded ↔
      ∃ schema, call.bcdb.schemaFactory.newestOf call.model.schema.md5 = some schema ∧
        loaded = call.bdata.toObj schema (some call.url) := by
  rw [← call.bdata_of_obj.2.2]
  unfold SchemaFactory.loads SchemaFactory.getFromMd5 SchemaFactory.getFromUrl
    SchemaFactory.newestOf
  cases call.bcdb.schemaFactory.schemasMd5 call.bdata.md5 with
  | none => simp [bind, Except.bind]
  | some version =>
      cases newest : call.bcdb.schemaFactory.schemasLoaded version.url with
      | none => simp [newest, bind, Except.bind]
      | some newest' =>
          simp [newest, bind, Except.bind, pure, Except.pure, eq_comm (a := loaded)]

/-- The bytes are taken with an id of the call only. -/
theorem of_dynamicObj_bytes
    (made : dynamicObj call.url (call.data .bytes) call.objId call.nid call.bcdb =
      .ok root between) :
    ∃ schema id,
      call.bcdb.schemaFactory.newestOf call.model.schema.md5 = some schema ∧
      call.objId = some id ∧
      root = dynamicRoot
        { obj := call.bdata.toObj schema (some call.url), acl := .none } (some id) ∧
      (schema.md5 = call.model.schema.md5 → between = call.bcdb) := by
  have found := BCDB.model_eq_ok_iff.mpr call.found
  simp only [dynamicObj, data, dynamicBytes, seq_eq_ok_iff, query_eq_ok_iff,
    attempt_eq_ok_iff, ensure_eq_ok_iff, return_eq_ok_iff, runIf_eq_ok_iff,
    modify_eq_ok_iff, found] at made
  obtain ⟨model, _, ⟨_, rfl⟩, loaded, _, ⟨loads, rfl⟩, _, changed, change, _, _,
    ⟨given, rfl⟩, rfl, rfl⟩ := made
  obtain ⟨schema, newest, rfl⟩ := call.loads_bdata_iff.mp loads
  obtain ⟨id, named⟩ := Option.ne_none_iff_exists'.mp given
  refine ⟨schema, id, newest, named, by rw [named], ?_⟩
  intro same
  rcases change with ⟨⟨different, _⟩, _⟩ | ⟨_, rfl⟩
  · exact (different (call.bdata_of_obj.2.2.trans same.symm)).elim
  · rfl

theorem dynamicObj_bytes {schema : Schema} (newest : call.Newest schema)
    (given : call.objId = some id) :
    dynamicObj call.url (call.data .bytes) call.objId call.nid call.bcdb =
      .ok (dynamicRoot
        { obj := call.bdata.toObj schema (some call.url), acl := .none } (some id))
        call.bcdb := by
  have found := BCDB.model_eq_ok_iff.mpr call.found
  have loads := call.loads_bdata_iff.mpr ⟨schema, newest.1, rfl⟩
  simp only [dynamicObj, data, dynamicBytes, seq_eq_ok_iff, query_eq_ok_iff,
    attempt_eq_ok_iff, ensure_eq_ok_iff, return_eq_ok_iff, runIf_eq_ok_iff,
    modify_eq_ok_iff, found]
  refine ⟨call.model, _, ⟨rfl, rfl⟩, _, _, ⟨loads, rfl⟩, (), _, .inr ⟨?_, rfl⟩, (), _,
    ⟨by simp [given], rfl⟩, by rw [given], rfl⟩
  rintro ⟨different, _⟩
  exact different (call.bdata_of_obj.2.2.trans newest.2.symm)

variable (root) in
/-- An id that does not contradict the one in the data becomes the id. -/
theorem dynamicRoot_eq (fits : root.obj.id.getD 0 = 0 ∨ root.obj.id = some id) :
    dynamicRoot root (some id) =
      { root with obj := { root.obj with id := some id } } := by
  unfold dynamicRoot
  by_cases zero : root.obj.id.getD 0 = 0
  · rw [if_pos zero]
  · rw [if_neg zero, ← fits.resolve_left zero]

/-- A form that makes the object with the id and the nid of the call agrees. -/
theorem agrees_of_obj (given : call.objId = some id) (model : Option Url)
    {form : DynamicForm}
    (made : dynamicObj call.url (call.data form) call.objId call.nid call.bcdb =
      .ok { obj := { call.obj with
              id := some id, nid := call.nid.getD call.obj.nid, model := model }
            acl := .none } call.bcdb) :
    call.Agrees form := by
  have puts := call.stored_under given
  obtain ⟨serialised, _, _⟩ := call.bdata_of_obj
  obtain ⟨message, other, row, table, table', _, serialised', found, read, present, _, put,
    _⟩ := puts.effect
  have sameModel : call.model = other := Option.some.inj (call.found.symm.trans found)
  subst sameModel
  have sameMessage : message = call.bdata.message :=
    Except.ok.inj (serialised'.symm.trans serialised)
  subst sameMessage
  have read' : ({ call.obj with
      id := some id
      nid := call.nid.getD call.obj.nid
      model := model
      capnpObj := call.bdata.message } : JSXObject).indexRow call.model.index = .ok row := by
    rw [← read]
    exact JSXObject.indexRow_congr rfl rfl (fun _ _ => rfl) _
  have noAcl : call.obj.aclId.getD 0 = 0 := by rw [call.obj_of_content.2.2.2]; rfl
  have md5 : call.obj.schema.md5 = call.model.schema.md5 := by rw [call.obj_of_content.1]
  obtain ⟨back, reached, done, agrees⟩ := call.agrees_of_put given
    { call.obj with id := some id, nid := call.nid.getD call.obj.nid, model := model }
    rfl rfl noAcl md5 serialised read' present put
  exact ⟨back, reached, call.setDynamicObj_eq_ok_iff.mpr ⟨_, _, made, done⟩, agrees⟩

variable {call}

namespace Plain

variable (plain : call.Plain)

include plain

theorem fits (given : call.objId = some id) :
    call.obj.id.getD 0 = 0 ∨ call.obj.id = some id := by
  obtain ⟨other, given', fits, _⟩ := plain.id
  have same : other = id := Option.some.inj (given'.symm.trans given)
  rw [call.obj_of_content.2.1, ← same]
  exact fits

theorem obj_nid : call.obj.nid = 1 := by
  rw [call.obj_of_content.2.2.1, plain.nid.2]
  rfl

theorem json (given : call.objId = some id) : call.Agrees .json := by
  apply call.agrees_of_obj given call.obj.model
  rw [dynamicObj_json_iff]
  refine ⟨rfl, ?_⟩
  have made : call.model.schema.new call.model.readonly (some call.url)
      call.content.datadict = .ok call.obj := by
    cases writable : call.model.readonly with
    | false => exact call.made
    | true => exact Schema.new_readonly call.made (plain.writable writable)
  have root := dynamicRoot_eq { obj := { call.obj with nid := 1 }, acl := .none }
    (plain.fits given)
  simp only [dynamicJson, bind_eq_ok_iff, ensure_eq_ok_iff, pure_eq_ok_iff, plain.nid.1,
    given, Option.some_or]
  exact ⟨(), rfl, call.obj, made, root⟩

theorem obj (given : call.objId = some id) : call.Agrees .obj := by
  apply call.agrees_of_obj given call.obj.model
  rw [dynamicObj_obj_iff]
  refine ⟨rfl, ?_⟩
  have root := dynamicRoot_eq { obj := call.obj, acl := .none } (plain.fits given)
  have numbered : call.obj.nid ≠ 0 := by simp [plain.obj_nid]
  have sameNid : call.obj.nid = call.nid.getD call.obj.nid := by
    simp [plain.nid.1, plain.obj_nid]
  simp only [dynamicGiven, bind_eq_ok_iff, ensure_eq_ok_iff, pure_eq_ok_iff, given,
    Option.some_or, if_neg numbered]
  refine ⟨(), .inl numbered, ?_⟩
  rw [root, ← sameNid]

theorem dict (given : call.objId = some id) : call.Agrees .dict := by
  apply call.agrees_of_obj given none
  rw [dynamicObj_dict_iff]
  refine ⟨rfl, ?_⟩
  have own : idIn call.content.datadict "nid" = some 1 := by
    rw [call.content.idIn_nid call.noNid, plain.nid.2]
  have kept : callerDict call.content.datadict (some 1) = call.content.datadict := by
    simp [callerDict, own]
  have made := Schema.new_withModel none call.made
  have root := dynamicRoot_eq
    { obj := { call.obj with model := none, nid := 1 }, acl := .none } (plain.fits given)
  simp only [dynamicDict_eq, bind_eq_ok_iff, ensure_eq_ok_iff, pure_eq_ok_iff, plain.nid.1,
    given, Option.some_or, own, kept]
  exact ⟨(), by simp, _, made, root⟩

theorem bytes (given : call.objId = some id) : call.Agrees .bytes := by
  obtain ⟨other, given', _, schema, newest, row, table, table', read, present, put⟩ :=
    plain.id
  have same : other = id := Option.some.inj (given'.symm.trans given)
  subst same
  obtain ⟨_, objId, _⟩ := call.bdata_of_obj
  have fits : (call.bdata.toObj schema (some call.url)).id.getD 0 = 0 ∨
      (call.bdata.toObj schema (some call.url)).id = some other := by
    simp only [BData.toObj, objId]
    rcases plain.fits given with zero | named
    · simp [zero]
    · by_cases zero : other = 0
      · simp [named, zero]
      · simp [named, zero]
  have made := call.dynamicObj_bytes newest given
  rw [dynamicRoot_eq { obj := call.bdata.toObj schema (some call.url), acl := .none } fits]
    at made
  have nid : 1 = call.nid.getD call.obj.nid := by
    rw [plain.nid.1]
    rfl
  have serialised := call.bdata.toCapnp_toObj schema (some call.url) (some other)
  obtain ⟨back, reached, done, agrees⟩ := call.agrees_of_put given
    { call.bdata.toObj schema (some call.url) with id := some other } rfl nid rfl newest.2
    serialised read present put
  exact ⟨back, reached, call.setDynamicObj_eq_ok_iff.mpr ⟨_, _, made, done⟩, agrees⟩

end Plain

/-- Without contradictions all forms agree. -/
theorem Plain.asClaimed (plain : call.Plain) : call.AsClaimed := by
  obtain ⟨id, given, _⟩ := plain.id
  constructor
  · intro form
    cases form with
    | json => exact plain.json given
    | dict => exact plain.dict given
    | obj => exact plain.obj given
    | bytes => exact plain.bytes given
  · have own : idIn call.content.datadict "nid" = some 1 := by
      rw [call.content.idIn_nid call.noNid, plain.nid.2]
    simp [callerDict, own]

variable (call)

theorem back_of_stored (given : call.objId = some id) :
    call.back.id = some id ∧ call.back.nid = call.nid.getD call.obj.nid ∧
      call.back.dumps = .ok
        { objId := id, md5 := call.model.schema.md5, message := call.bdata.message } := by
  have puts := call.stored_under given
  have dumps := puts.dumps_back rfl call.bdata_of_obj.1
  obtain ⟨_, _, _, _, _, _, _, _, _, _, _, _, _, back, _⟩ := puts.effect
  rw [call.obj_of_content.1] at dumps
  exact ⟨by rw [back], by rw [back], dumps⟩

omit call in
/-- A form that returns an object under the id of the call had no other id in its
data. -/
theorem of_returned {url : Url} {obj back : JSXObject} {between reached : BCDB}
    (done : (dynamicRoot { obj := obj, acl := .none } (some id)).returning
      (set url true true) between = .ok back reached) (returned : back.id = some id) :
    (obj.id.getD 0 = 0 ∨ obj.id = some id) ∧
      PutsUnder url { obj with id := some id } id between back reached := by
  have fits : obj.id.getD 0 = 0 ∨ obj.id = some id := by
    cases own : obj.id with
    | none => exact .inl rfl
    | some other =>
        by_cases zero : other = 0
        · exact .inl zero
        · have kept : dynamicRoot { obj := obj, acl := .none } (some id) =
              { obj := obj, acl := .none } := by
            simp [dynamicRoot, own, zero]
          rw [kept, returning_set_eq_ok_iff own] at done
          obtain ⟨_, _, _, _, _, _, _, _, _, _, _, _, _, same, _⟩ := done.effect
          rw [same] at returned
          exact .inr (own.symm.trans returned)
  rw [dynamicRoot_eq { obj := obj, acl := .none } fits] at done
  exact ⟨fits, (returning_set_eq_ok_iff rfl).mp done⟩

/-- What an agreeing form has stored. -/
theorem of_agrees (given : call.objId = some id) {form : DynamicForm}
    (agrees : call.Agrees form) :
    ∃ root between back reached,
      dynamicObj call.url (call.data form) call.objId call.nid call.bcdb =
        .ok root between ∧
      root.returning (set call.url true true) between = .ok back reached ∧
      back.id = some id ∧ back.nid = call.nid.getD call.obj.nid ∧
      back.dumps = .ok
        { objId := id, md5 := call.model.schema.md5, message := call.bdata.message } := by
  obtain ⟨back, reached, done, _, sameId, sameNid, sameData⟩ := agrees
  obtain ⟨root, between, made, done⟩ := call.setDynamicObj_eq_ok_iff.mp done
  obtain ⟨refId, refNid, refData⟩ := call.back_of_stored given
  exact ⟨root, between, back, reached, made, done, sameId.trans refId, sameNid.trans refNid,
    sameData.trans refData⟩

/-- The object itself agrees when its id and its nid are those of the call. -/
theorem of_agrees_obj (given : call.objId = some id) (agrees : call.Agrees .obj) :
    (call.obj.id.getD 0 = 0 ∨ call.obj.id = some id) ∧
      (call.obj.nid ≠ 0 → call.obj.nid = call.nid.getD call.obj.nid) := by
  obtain ⟨root, between, back, reached, made, done, backId, backNid, _⟩ :=
    call.of_agrees given agrees
  obtain ⟨rfl, makes⟩ := call.dynamicObj_obj_iff.mp made
  simp only [dynamicGiven, bind_eq_ok_iff, ensure_eq_ok_iff, pure_eq_ok_iff, given,
    Option.some_or] at makes
  obtain ⟨_, _, rfl⟩ := makes
  obtain ⟨fits, puts⟩ := of_returned done backId
  obtain ⟨_, _, _, _, _, _, _, _, _, _, _, _, _, same, _⟩ := puts.effect
  rw [same] at backNid
  by_cases zero : call.obj.nid = 0
  · rw [if_pos zero] at fits
    exact ⟨fits, fun numbered => (numbered zero).elim⟩
  · rw [if_neg zero] at fits backNid
    exact ⟨fits, fun _ => backNid⟩

theorem of_agrees_dict (given : call.objId = some id) (agrees : call.Agrees .dict) :
    call.nid.getD 0 ≠ 0 := by
  obtain ⟨root, between, back, reached, made, done, backId, _, _⟩ :=
    call.of_agrees given agrees
  obtain ⟨rfl, makes⟩ := call.dynamicObj_dict_iff.mp made
  simp only [dynamicDict_eq, bind_eq_ok_iff, ensure_eq_ok_iff, pure_eq_ok_iff, given,
    Option.some_or] at makes
  obtain ⟨_, _, _, _, rfl⟩ := makes
  exact (of_returned done backId).2.hasNid

theorem of_agrees_json (given : call.objId = some id) (agrees : call.Agrees .json)
    (readonly : call.model.readonly = true) : call.model.schema.properties = [] := by
  obtain ⟨root, between, back, reached, made, _, _, _, _⟩ := call.of_agrees given agrees
  obtain ⟨rfl, makes⟩ := call.dynamicObj_json_iff.mp made
  simp only [dynamicJson, bind_eq_ok_iff, ensure_eq_ok_iff, pure_eq_ok_iff, readonly] at makes
  obtain ⟨_, _, _, makes, _⟩ := makes
  exact Schema.properties_of_new_readonly makes

/-- The bytes agree when the nid of the call is 1 and they are read under the
version that they were written under. -/
theorem of_agrees_bytes (agrees : call.Agrees .bytes) :
    ∃ id, call.objId = some id ∧ call.nid.getD call.obj.nid = 1 ∧
      ∃ schema, call.Newest schema ∧ call.Indexable schema id := by
  obtain ⟨id, given⟩ : ∃ id, call.objId = some id := by
    obtain ⟨_, _, done, _⟩ := agrees
    obtain ⟨_, _, made, _⟩ := call.setDynamicObj_eq_ok_iff.mp done
    obtain ⟨_, id, _, given, _⟩ := call.of_dynamicObj_bytes made
    exact ⟨id, given⟩
  obtain ⟨root, between, back, reached, made, done, backId, backNid, backData⟩ :=
    call.of_agrees given agrees
  obtain ⟨schema, other, newest, given', rfl, unchanged⟩ := call.of_dynamicObj_bytes made
  have same : other = id := Option.some.inj (given'.symm.trans given)
  subst same
  obtain ⟨_, puts⟩ := of_returned done backId
  have serialised := call.bdata.toCapnp_toObj schema (some call.url) (some other)
  have dumps := puts.dumps_back rfl serialised
  have sameData := Except.ok.inj (dumps.symm.trans backData)
  have md5 : schema.md5 = call.model.schema.md5 := congrArg BData.md5 sameData
  rw [unchanged md5] at puts
  obtain ⟨message, model, row, table, table', _, serialised', found, read, present, _, put,
    _, same, _⟩ := puts.effect
  have sameModel : call.model = model := Option.some.inj (call.found.symm.trans found)
  subst sameModel
  have sameMessage : message = call.bdata.message :=
    Except.ok.inj (serialised'.symm.trans serialised)
  subst sameMessage
  refine ⟨other, given, ?_, schema, ⟨newest, md5⟩, row, table, table', ?_, present, put⟩
  · rw [← backNid, same]
    rfl
  · rw [← read]
    exact JSXObject.indexRow_congr rfl rfl (fun _ _ => rfl) _

/-- The forms of `set_dynamic` agree, and leave the dict of the caller as it was,
exactly when the call and the data have the nid 1, the call gives an id that
the data does not contradict, and the bytes are read as they were written. -/
theorem forms_agree_iff (call : DynamicCall) : call.AsClaimed ↔ call.Plain := by
  constructor
  · rintro ⟨agrees, unchanged⟩
    obtain ⟨id, given, isOne, newest⟩ := call.of_agrees_bytes (agrees .bytes)
    obtain ⟨fits, keptNid⟩ := call.of_agrees_obj given (agrees .obj)
    have hasNid := call.of_agrees_dict given (agrees .dict)
    have callNid : call.nid = some 1 := by
      cases numbered : call.nid with
      | none =>
          rw [numbered] at hasNid
          exact (hasNid rfl).elim
      | some nid =>
          rw [numbered] at isOne
          exact congrArg some isOne
    have own : call.content.nid.getD 0 ≠ 0 := by
      intro zero
      have changed := idIn_callerDict call.content.datadict
        (by rw [call.content.idIn_nid call.noNid]; exact zero) Nat.one_ne_zero
      rw [callNid] at unchanged
      rw [unchanged, call.content.idIn_nid call.noNid] at changed
      rw [changed] at zero
      cases zero
    have contentNid : call.content.nid = some 1 := by
      cases numbered : call.content.nid with
      | none =>
          rw [numbered] at own
          exact (own rfl).elim
      | some nid =>
          rw [numbered] at own
          have objNid : call.obj.nid = nid := by rw [call.obj_of_content.2.2.1, numbered]; rfl
          have kept := keptNid (by rw [objNid]; exact own)
          rw [isOne, objNid] at kept
          rw [kept]
    rw [call.obj_of_content.2.1] at fits
    exact ⟨⟨id, given, fits, newest⟩, ⟨callNid, contentNid⟩,
      call.of_agrees_json given (agrees .json)⟩
  · exact Plain.asClaimed

end DynamicCall

/-! ## A call with another nid -/

/-- The object that is made from a dict with the name `a` and the nid 1. -/
def namedContent : JSXObject :=
  { (nameSchema "test.one" "1").fromCapnp .empty (some "test.one") with
    deserializedItems := Function.update (fun _ => none) "name" (some (.str "a"))
    changed := true
    aclId := some 0 }

/-- The content is given with the id 1 and the nid 2 to a model without
objects. -/
def movedCall : DynamicCall where
  bcdb := twoModels
  url := "test.one"
  model := (nameSchema "test.one" "1").model
  found := rfl
  noId := rfl
  noNid := rfl
  content :=
    { values := [("name", .str "a")]
      distinct := by decide
      known := by
        intro item member
        cases List.mem_singleton.mp member
        rfl
      id := none
      nid := some 1 }
  obj := namedContent
  made := rfl
  bdata := { objId := 0, md5 := "1", message := .insert .empty 1 (.str "a") }
  dumped := rfl
  objId := some 1
  nid := some 2
  back := { namedContent with
    id := some 1, nid := 2, capnpObj := .insert .empty 1 (.str "a") }
  reached := final ((JSXObjectRoot.mk { namedContent with
    id := some 1, nid := 2 } .none).returning
      (BCDBModel.set "test.one" true true)) twoModels
  stored := rfl

/-- The bytes keep the nid 1 whatever nid the call gives. -/
theorem moved_forms_differ : ¬ movedCall.AsClaimed := by
  rintro ⟨agrees, _⟩
  obtain ⟨_, _, isOne, _⟩ := movedCall.of_agrees_bytes (agrees .bytes)
  cases isOne

end JumpscaleX
