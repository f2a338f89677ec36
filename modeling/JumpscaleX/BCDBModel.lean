import JumpscaleX.BCDB

/-!
# The operations of a model

`get`, `find`, `set`, `set_dynamic`, `delete` and `save`, on a database
together with the object that the call works on.  A call that fails keeps what
it did to the database and to the object before.  Models have no triggers
beside `_maintenance`, which returns nothing for these actions.
-/

namespace JumpscaleX

open Fallible Stateful

/-- The url of the model that `bcdb.acl` holds. -/
def aclUrl : Url := "jumpscale.bcdb.acl.2"

/-- The attribute `_acl` of a root object.  Reading `acl` of an object with an
acl id attaches the ACL model in place of an object.  An ACL object has no ACL
of its own. -/
inductive AclRef where
  | none
  | obj (acl : JSXObject)
  | model

/-- A root object with the ACL attached to it. -/
structure JSXObjectRoot where
  obj : JSXObject
  acl : AclRef

/-- The database, and the object that a call works on. -/
structure Session extends JSXObjectRoot where
  bcdb : BCDB

abbrev SessionM := EStateM Exn Session

namespace Session

def onBcdb {α : Type} : BCDBM α → SessionM α :=
  onPart Session.bcdb (fun session bcdb => { session with bcdb := bcdb })

/-- Work on the object that is attached as ACL, which carries none itself. -/
def onAcl {α : Type} (acl : JSXObject) (computation : SessionM α) : SessionM α :=
  onPart (fun session => { session with obj := acl, acl := .none })
    (fun session part =>
      { session with bcdb := part.bcdb, acl := .obj part.obj }) computation

def setObj (obj : JSXObject) : SessionM Unit :=
  modify (fun session => { session with obj := obj })

end Session

/-- Work on a root object of which only the effect on the database stays. -/
def JSXObjectRoot.on {α : Type} (root : JSXObjectRoot)
    (computation : SessionM α) : BCDBM α :=
  onPart (fun bcdb => { root with bcdb := bcdb }) (fun _ session => session.bcdb)
    computation

namespace BCDBModel

/-! ## Reading -/

def schemaOf (url : Url) (bcdb : BCDB) : Except Exn Schema :=
  (bcdb.model url).map Model.schema

/-- The data under an id, when there is any. -/
def storedData (id : Nat) (bcdb : BCDB) : Except Exn Stored :=
  match bcdb.storclient.get id with
  | some data =>
      if data.truthy then .ok data
      else .error (.notFound "could not find obj with id")
  | none => .error (.notFound "could not find obj with id")

/-- `get`. -/
def get (url : Url) (objId : Option Nat) : BCDBM JSXObject := do
  attempt (ensure (objId.getD 0 ≠ 0) (.base "id cannot be None or 0"))
  let data ← query (storedData (objId.getD 0))
  let schema ← query (schemaOf url)
  let obj ← BCDB.unserialize (objId.getD 0) data (some schema)
  let schema ← query (schemaOf url)
  attempt (ensure (obj.schema.url = schema.url ∧ obj.schema.md5 = schema.md5)
    (.jsBug "no object with this id found in the model"))
  return obj

/-- The parameter that a value becomes in a query. -/
def bindValue : PyVal → Except Exn Cell
  | .none => .ok .null
  | .bool value => .ok (.int (if value then 1 else 0))
  | .int value => .ok (.int value)
  | .float value => .ok (.real value)
  | .str value => .ok (.text value)
  | .bytes value => .ok (.blob value)
  | _ => .error (.interfaceError "Error binding parameter")

/-- Two values are equal in SQL. -/
def sqlEq : Cell → Cell → Bool
  | .null, _ => false
  | _, .null => false
  | .int left, .real right => decide ((left : Rat) = right)
  | .real left, .int right => decide (left = (right : Rat))
  | left, right => decide (left = right)

/-- The value of a column that a `where` clause can name. -/
def rowValue (id : Nat) (row : Row) (name : String) : Option Cell :=
  if name = "id" then some (.int id)
  else if name = "nid" then some (.int row.nid)
  else row.cell name

/-- The row satisfies all comparisons of a `where` clause. -/
def rowMatches (values : List (String × Cell)) (id : Nat) (row : Row) : Bool :=
  values.all (fun item =>
    match rowValue id row item.1 with
    | some cell => sqlEq cell item.2
    | none => false)

def bindItem (item : String × PyVal) : Except Exn (String × Cell) := do
  let cell ← bindValue item.2
  return (item.1, cell)

/-- The table behind a model. -/
def tableOf (url : Url) (bcdb : BCDB) : Except Exn Table := do
  let model ← bcdb.model url
  match bcdb.tables model.key with
  | some table => .ok table
  | none => .error (.operationalError "no such table")

/-- `_find_query` and the loop over its cursor.  The nid takes no part in the
query. -/
def findIds (url : Url) (_nid : Option Nat) (kwargs : DataDict) (bcdb : BCDB) :
    Except Exn (List Nat) := do
  let table ← tableOf url bcdb
  let values ← kwargs.mapM bindItem
  ensure (∀ item ∈ values, item.1 ∈
      "id" :: "nid" :: table.columns.map Column.name)
    (.operationalError "no such column")
  return (table.rows.map.entries.filter (fun entry =>
    rowMatches values entry.1 entry.2)).map Prod.fst

/-- A row whose object is missing in the store is passed over. -/
def getOrSkip (url : Url) (id : Nat) : BCDBM (Option JSXObject) := fun bcdb =>
  match get url (some id) bcdb with
  | .ok obj reached => .ok (some obj) reached
  | .error (.notFound _) reached => .ok none reached
  | .error problem reached => .error problem reached

def find (url : Url) (nid : Option Nat) (kwargs : DataDict) :
    BCDBM (List JSXObject) := do
  let ids ← query (findIds url nid kwargs)
  let objs ← ids.mapM (getOrSkip url)
  return objs.filterMap id

def count (url : Url) (nid : Option Nat) (kwargs : DataDict) (bcdb : BCDB) :
    Except Exn Nat :=
  (findIds url nid kwargs bcdb).map List.length

/-- `iterate` of a model. -/
def iterate (url : Url) (nid : Nat) : BCDBM (List JSXObject) := do
  let ids ← query (findIds url (some nid) [])
  ids.mapM (fun id => get url (some id))

/-! ## Deleting -/

def storDelete (id : Nat) : BCDBM Unit :=
  advance (fun bcdb => do
    let storclient ← bcdb.storclient.delete id
    return { bcdb with storclient := storclient })

/-- `index.delete_by_id`. -/
def indexDeleteById (url : Url) (id : Nat) : BCDBM Unit :=
  advance (fun bcdb => do
    let model ← bcdb.model url
    bcdb.writeTable model (fun table => .ok (table.deleteById id)))

/-- The storclient's and the index's part of `delete`. -/
def deleteStored (url : Url) (id : Nat) : BCDBM Unit := do
  storDelete id
  indexDeleteById url id

/-- `delete` with an int. -/
def deleteId (url : Url) (id : Nat) : BCDBM Unit := do
  let bcdb ← getThe BCDB
  let _ := bcdb.isWritableCheck
  attempt (ensure (0 < id) .assertionError)
  deleteStored url id

/-- `delete` with a JSX object. -/
def deleteObj (url : Url) : SessionM Unit := do
  let session ← getThe Session
  let _ := session.bcdb.isWritableCheck
  attempt (ensure (session.obj.nid ≠ 0) .assertionError)
  match session.obj.id with
  | none => return
  | some id => Session.onBcdb (deleteStored url id)

/-! ## Storing and indexing -/

/-- `obj._data`: the message is renewed on the way. -/
def data : SessionM BData := do
  let session ← getThe Session
  let message ← attempt session.obj.toCapnp
  Session.setObj { session.obj with capnpObj := message }
  let session ← getThe Session
  attempt session.obj.dumps

/-- `obj.id = self.storclient.set(data)`. -/
def storAppend (record : Record) : SessionM Unit := do
  let session ← getThe Session
  let added ← attempt (session.bcdb.storclient.append (.record record))
  modify (fun session => { session with
    bcdb := { session.bcdb with storclient := added.2 }
    obj := { session.obj with id := some added.1 } })

/-- A new record.  The first entry of the store is left to its mark. -/
def storNew (record : Record) : SessionM Unit := do
  storAppend record
  let session ← getThe Session
  runIf (session.obj.id = some 0) (storAppend record)
  let session ← getThe Session
  attempt (ensure (session.obj.id.getD 0 ≠ 0) .assertionError)

/-- `self.storclient.set(data, key=obj.id)`. -/
def storUpdate (id : Nat) (record : Record) : BCDBM Unit :=
  advance (fun bcdb => do
    let storclient ← bcdb.storclient.set id (.record record)
    return { bcdb with storclient := storclient })

/-- The part of `set` that puts a record into the store. -/
def storSet (record : Record) : SessionM Unit := do
  let session ← getThe Session
  match session.obj.id with
  | none => storNew record
  | some id => Session.onBcdb (storUpdate id record)

/-- `_sql_index_set`. -/
def indexSet (url : Url) : SessionM Unit := do
  let session ← getThe Session
  attempt (ensure (session.obj.id.getD 0 ≠ 0) .assertionError)
  attempt (ensure (session.obj.nid ≠ 0) .assertionError)
  let model ← Session.onBcdb (query (BCDB.model url))
  let row ← attempt (session.obj.indexRow model.index)
  Session.onBcdb (advance (fun bcdb =>
    bcdb.writeTable model (fun table =>
      table.set (session.obj.id.getD 0) row)))

/-- The parameter of the comparison with the column `name`. -/
def nameCell (model : Model) (obj : JSXObject) : Except Exn Cell := do
  let value ← obj.getattr "name"
  match model.index.find? (fun field => field.name = "name") with
  | some field => field.jumpscaletype.columnValue value
  | none => throw (.attributeError "name")

/-- Delete the rows that have the name of an object. -/
def indexDeleteByName (url : Url) (obj : JSXObject) : BCDBM Unit := do
  let model ← query (BCDB.model url)
  let cell ← attempt (nameCell model obj)
  advance (fun bcdb =>
    bcdb.writeTable model (fun table => .ok (table.deleteByCell "name" cell)))

/-- `index.delete`: the row of the object's id, and the rows that have its
name. -/
def indexDelete (url : Url) : SessionM Unit := do
  let session ← getThe Session
  match session.obj.id with
  | none => return
  | some id =>
      Session.onBcdb (indexDeleteById url id)
      runIf (session.obj.schema.hasName = true)
        (Session.onBcdb (indexDeleteByName url session.obj))

def translateIntegrity : Exn → Exn
  | .integrityError error => .input (.constraintFailed error)
  | problem => problem

/-- The store's part of `set`, after the ACL. -/
def setRecord : SessionM Unit := do
  let bdata ← data
  let session ← getThe Session
  attempt (ensure (0 < session.obj.nid) .assertionError)
  storSet
    { nid := session.obj.nid, aclId := session.obj.aclId, bdata := bdata }

/-- The part of `set` under `if store`, with the way in which an attached ACL
is brought into the store. -/
def setStore (attachAcl : SessionM Unit) : SessionM Unit := do
  let session ← getThe Session
  let _ := session.bcdb.isWritableCheck
  Session.setObj
    { session.obj with aclId := some (session.obj.aclId.getD 0) }
  attachAcl
  setRecord

/-- The part of `set` under `if index`. -/
def setIndex (url : Url) (store : Bool) : SessionM Unit := do
  runIf (store = false) (indexDelete url)
  rename translateIntegrity (indexSet url)

/-- `set`, with the way in which an attached ACL is brought into the store. -/
def setWith (attachAcl : SessionM Unit) (url : Url) (index store : Bool) :
    SessionM Unit := do
  let session ← getThe Session
  attempt (ensure (session.obj.nid ≠ 0) .assertionError)
  runIf (store = true) (setStore attachAcl)
  runIf (index = true) (setIndex url store)

/-! ## Saving an object -/

/-- `not value and not isinstance(value, (int, float, complex))`. -/
def emptyValue : PyVal → Bool
  | .bool _ => false
  | .int _ => false
  | .float _ => false
  | value => !value.truthy

/-- The parts of a name between its double underscores. -/
def dunderParts (name : String) : List String :=
  (split [] name.toList).map String.ofList
where
  split (part : List Char) : List Char → List (List Char)
    | '_' :: '_' :: rest => part.reverse :: split [] rest
    | char :: rest => split (char :: part) rest
    | [] => [part.reverse]

/-- The value that `check_empty_indexed_fields` evaluates.  Of a name with
double underscores it takes the first two parts. -/
def checkedValue (obj : JSXObject) (name : String) : Except Exn PyVal :=
  match dunderParts name with
  | prop :: sub :: _ => do
      match ← obj.getattr prop with
      | .jsx _ props =>
          match props.find? (fun item => item.1 = sub) with
          | some item => return item.2
          | none => throw (.attributeError sub)
      | _ => throw (.attributeError sub)
  | _ => obj.getattr name

def checkEmptyIndexedFields (fields : List IndexField) (obj : JSXObject) :
    Except Exn Unit :=
  fields.forM (fun field => do
    ensure ('.' ∉ field.name.toList) (.input .dotInProperty)
    let value ← checkedValue obj field.name
    ensure (emptyValue value = false) (.input (.emptyIndexedField field.name)))

/-- What the query of `save` found for a unique property lets the object
pass. -/
def uniqueAmong (obj : JSXObject) : List JSXObject → Prop
  | [] => True
  | [other] => obj.id.getD 0 = 0 ∨ obj.id = other.id
  | _ => False

instance (obj : JSXObject) (found : List JSXObject) :
    Decidable (uniqueAmong obj found) := by
  unfold uniqueAmong
  split <;> infer_instance

/-- The check of one unique property in `save`. -/
def checkUnique (url : Url) (obj : JSXObject) (prop : SchemaProperty) :
    BCDBM Unit := do
  let value ← attempt (obj.getattr prop.name)
  let found ← find url none [(prop.name, value)]
  attempt (ensure (uniqueAmong obj found) (.input (.notUnique prop.name)))

/-- The part of `save` that talks to the model. -/
def saveInModel (saveAcl attachAcl : SessionM Unit) (url : Url) (model : Model) :
    SessionM Unit := do
  let session ← getThe Session
  attempt (checkEmptyIndexedFields model.schema.propertiesIndexSql session.obj)
  runIf (url ≠ aclUrl) saveAcl
  let session ← getThe Session
  Session.onBcdb (model.schema.propertiesUnique.forM (checkUnique url session.obj))
  setWith attachAcl url true true
  let session ← getThe Session
  attempt (ensure (session.obj.id.getD 0 ≠ 0) .assertionError)

/-- The part of `save` for an object that has changed. -/
def saveChanged (saveAcl attachAcl : SessionM Unit) : SessionM Unit := do
  let session ← getThe Session
  let message ← attempt session.obj.toCapnp
  Session.setObj { session.obj with capnpObj := message }
  match session.obj.model with
  | none =>
      Session.setObj { session.obj with capnpObj := message, changed := false }
  | some url =>
      let model ← Session.onBcdb (query (BCDB.model url))
      runIf (model.nosave = false) (saveInModel saveAcl attachAcl url model)

/-- `save`, with the ways in which an attached ACL is saved by the object and
by `set`. -/
def saveWith (saveAcl attachAcl : SessionM Unit) : SessionM Unit := do
  let session ← getThe Session
  runIf (session.obj.changed = true) (saveChanged saveAcl attachAcl)

/-! ## The attached ACL -/

/-- `save` of an attached ACL. -/
def aclSave (acl : JSXObject) : SessionM Unit :=
  Session.onAcl acl (saveWith (pure ()) (pure ()))

/-- `self._deserialized_items["ACL"] = True` when the object has another
`acl_id` than its ACL. -/
def markAcl (root : JSXObjectRoot) : JSXObject :=
  match root.acl with
  | .obj acl =>
      if acl.id = root.obj.aclId then root.obj
      else { root.obj with
        deserializedItems :=
          Function.update root.obj.deserializedItems "ACL" (some (.bool true)) }
  | _ => root.obj

/-- The ACL part of `save`. -/
def saveAcl : SessionM Unit := do
  let session ← getThe Session
  match session.acl with
  | .none => return
  | .model => throw (.attributeError "id")
  | .obj acl =>
      runIf (acl.id = none) (aclSave acl)
      modify (fun session =>
        { session with obj := markAcl session.toJSXObjectRoot })

/-- The ACL in the store has another md5 than the attached one. -/
def aclDiffers (acl stored : JSXObject) : Except Exn Bool := do
  let md5 ← acl.getattr "md5"
  let md5' ← stored.getattr "md5"
  return decide (md5 ≠ md5')

/-- Bring an attached ACL into the store: without an id, or with another md5
than the stored one, it is saved as a new object. -/
def aclStore (acl : JSXObject) : SessionM Unit := do
  match acl.id with
  | none => aclSave acl
  | some id =>
      let session ← getThe Session
      attempt (ensure (session.obj.model ≠ none) (.attributeError "bcdb"))
      let stored ← Session.onBcdb (get aclUrl (some id))
      let differs ← attempt (aclDiffers acl stored)
      runIf (differs = true) (aclSave { acl with id := none })

/-- `obj.acl_id = obj.acl.id`. -/
def takeAclId (root : JSXObjectRoot) : JSXObject :=
  match root.acl with
  | .obj acl => { root.obj with aclId := acl.id }
  | _ => root.obj

/-- The ACL part of `set`. -/
def attachAcl : SessionM Unit := do
  let session ← getThe Session
  match session.acl with
  | .none => return
  | .model => throw (.attributeError "id")
  | .obj acl =>
      aclStore acl
      modify (fun session =>
        { session with obj := takeAclId session.toJSXObjectRoot })

/-- `set(obj, index, store)`. -/
def set (url : Url) (index store : Bool) : SessionM Unit :=
  setWith attachAcl url index store

/-- `save` of a JSX object. -/
def save : SessionM Unit :=
  saveWith saveAcl attachAcl

/-- The object after a delete: an empty message and the defaults over it. -/
def resetObj (obj : JSXObject) : Except Exn JSXObject := do
  let empty : JSXObject :=
    { obj with
      capnpObj := .empty
      deserializedItems := fun _ => none
      changed := obj.schema.freshChanged .empty }
  let obj ← empty.defaultsSet false
  return { obj with id := none }

/-- `_reset`, `_defaults_set` and the loss of the id. -/
def reset : SessionM Unit := do
  let session ← getThe Session
  let obj ← attempt (resetObj session.obj)
  Session.setObj obj

/-- `delete` of an object that has a model.  Objects of the ACL model stay in
the database. -/
def objDeleteInModel (url : Url) (model : Model) : SessionM Unit := do
  attempt (ensure (model.readonly = false)
    (.base "object _readonly, cannot be saved."))
  runIf (url ≠ aclUrl) (deleteObj url)
  reset

/-- `delete` of a JSX object. -/
def objDelete : SessionM Unit := do
  let session ← getThe Session
  match session.obj.model with
  | none => reset
  | some url =>
      let model ← Session.onBcdb (query (BCDB.model url))
      runIf (model.nosave = false) (objDeleteInModel url model)

/-! ## `set_dynamic` -/

/-- The forms in which `set_dynamic` takes its data.  Json text is taken as
the dict that it holds. -/
inductive DynamicData where
  | json (data : DataDict)
  | bytes (data : BData)
  | obj (data : JSXObjectRoot)
  | dict (data : DataDict)

/-- The entry of a dict that holds an id. -/
def idIn (data : DataDict) (key : String) : Option Nat :=
  match data.find? (fun item => item.1 = key) with
  | some (_, .int (.ofNat id)) => some id
  | _ => none

/-- `if not obj.id: obj.id = obj_id`. -/
def dynamicRoot (root : JSXObjectRoot) (objId : Option Nat) : JSXObjectRoot :=
  if root.obj.id.getD 0 = 0 then
    { root with obj := { root.obj with id := objId } }
  else root

def dynamicJson (url : Url) (data : DataDict) (objId nid : Option Nat)
    (model : Model) : Except Exn JSXObjectRoot := do
  ensure ((nid.or (idIn data "nid")).isSome) (.base "need to specify nid")
  let obj ← model.schema.new model.readonly (some url) data
  return dynamicRoot
    { obj := { obj with nid := (nid.or (idIn data "nid")).getD 0 }, acl := .none }
    (objId.or (idIn data "id"))

def dynamicBytes (url : Url) (data : BData) (objId : Option Nat) :
    BCDBM JSXObjectRoot := do
  let obj ← query (fun bcdb => bcdb.schemaFactory.loads data (some url))
  runIf (data.md5 ≠ obj.schema.md5 ∧ obj.schema.url = url)
    (modify (fun bcdb => bcdb.schemaChange obj.schema))
  attempt (ensure (objId ≠ none) (.base "objid cannot be None"))
  return dynamicRoot { obj := obj, acl := .none } objId

def dynamicGiven (data : JSXObjectRoot) (objId nid : Option Nat) :
    Except Exn JSXObjectRoot := do
  ensure (data.obj.nid ≠ 0 ∨ nid.getD 0 ≠ 0) (.base "need to specify nid")
  return dynamicRoot
    { data with obj :=
        if data.obj.nid = 0 then { data.obj with nid := nid.getD 0 } else data.obj }
    (objId.or data.obj.id)

/-- A dict without a nid gets the one of the call before the object is made
from it, and the object gets it again afterwards. -/
def dynamicDict (data : DataDict) (objId nid : Option Nat) (model : Model) :
    Except Exn JSXObjectRoot := do
  ensure ((idIn data "nid").getD 0 ≠ 0 ∨ nid.getD 0 ≠ 0)
    (.base "need to specify nid")
  let withNid :=
    if (idIn data "nid").getD 0 ≠ 0 then data
    else data.filter (fun item => item.1 ≠ "nid") ++ [("nid", .int (nid.getD 0))]
  let obj ← model.schema.new false none withNid
  return dynamicRoot { obj := { obj with nid := nid.getD 0 }, acl := .none }
    (objId.or (idIn data "id"))

/-- The object that `set_dynamic` passes on to `set`. -/
def dynamicObj (url : Url) (data : DynamicData) (objId nid : Option Nat) :
    BCDBM JSXObjectRoot := do
  let model ← query (BCDB.model url)
  match data with
  | .json data => attempt (dynamicJson url data objId nid model)
  | .bytes data => dynamicBytes url data objId
  | .obj data => attempt (dynamicGiven data objId nid)
  | .dict data => attempt (dynamicDict data objId nid model)

/-- `set_dynamic(data, obj_id, nid)`. -/
def setDynamic (url : Url) (data : DynamicData) (objId nid : Option Nat) :
    BCDBM Unit := do
  let bcdb ← getThe BCDB
  let _ := bcdb.isWritableCheck
  let root ← dynamicObj url data objId nid
  root.on (set url true true)

end BCDBModel

end JumpscaleX
