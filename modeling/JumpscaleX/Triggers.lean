import JumpscaleX.Library.Outcomes
import JumpscaleX.Value

/-!
# Triggers

`BCDBModel._triggers_call` and the operations that call it, on the model, on
the schema and on the JSX object.  Objects are references into a heap, since a
trigger may change the object it is given.  What serialises, stores and
indexes is given as a `Host`; the calls of triggers and the modifications of
the store and the index are written down as they happen.
-/

namespace JumpscaleX.Triggers

open Stateful

/-- The action a trigger is told about.  `change`, which reports a property
that is set, is left to the host: none of the operations below documents it. -/
inductive Action where
  | new
  | get
  | set_pre
  | set_post
  | delete
  | schema_change
  deriving DecidableEq

/-- What an object remembers of its ACL object: its id, and its md5. -/
structure AclPart where
  id : Option Nat
  md5 : String

/-- The attributes of a `JSXObjectRoot` that the operations look at. -/
structure Obj where
  id : Option Nat
  nid : Nat
  acl_id : Option Nat
  _acl : Option AclPart
  _changed : Bool

/-- The objects by reference, two attributes of the model, and everything that
the host and the triggers keep. -/
structure World (σ : Type) where
  objects : Nat → Obj
  nosave : Bool
  readonly : Bool
  rest : σ

/-- What a trigger returns; an answer that is no pair has `stop` false. -/
inductive Returned where
  | nothing
  | obj (ref : Nat)
  | other
  deriving DecidableEq

structure Response where
  returned : Returned
  stop : Bool
  deriving DecidableEq

/-- A trigger, with `model` and `propertyname` left out. -/
abbrev Trigger (σ : Type) := Action → Nat → EStateM Exn (World σ) Response

/-- What the store gives for an id. -/
structure Stored where
  nid : Nat
  acl_id : Nat
  bdata : List Nat

/-- The schema found for stored data: does it have the url of the model, and
has it been replaced by a newer one? -/
structure Found where
  sameUrl : Bool
  outdated : Bool

/-- What an object is made out of. -/
inductive Source where
  | nothing
  | datadict (data : PyVal)
  | capnpdata (data : List Nat)

/-- The code around the triggers.  No text in json starts with the version
byte of serialised data. -/
structure Host (σ : Type) where
  url : String
  properties_unique : List String
  /-- `_classname == "acl"` and `__class__.__name__ == "ACL"` -/
  classnameAcl : Bool
  classAcl : Bool
  json_check : String → Option PyVal
  json_loads : List Nat → Option PyVal
  objclass : Source → EStateM Exn (World σ) Nat
  ddict : Nat → EStateM Exn (World σ) PyVal
  methods_add : Nat → World σ → World σ
  schema_get : List Nat → EStateM Exn (World σ) Found
  schema_change : EStateM Exn (World σ) PUnit
  reattach : EStateM Exn (World σ) PUnit
  unpack : List Nat → Except Exn Stored
  has_schema : Nat → EStateM Exn (World σ) Bool
  capnp_obj : Nat → EStateM Exn (World σ) PUnit
  data : Nat → EStateM Exn (World σ) (List Nat)
  check_empty_indexed_fields : Nat → EStateM Exn (World σ) PUnit
  find_ids : String → Nat → EStateM Exn (World σ) (List Nat)
  /-- `obj.acl.save()`: was the ACL written? -/
  acl_save : Nat → EStateM Exn (World σ) Bool
  acl_get : Nat → EStateM Exn (World σ) (Option String)
  stor_get : Nat → EStateM Exn (World σ) (Option (List Nat))
  stor_set : Stored → Option Nat → EStateM Exn (World σ) Nat
  stor_delete : Option Nat → EStateM Exn (World σ) PUnit
  index_set : Nat → EStateM Exn (World σ) PUnit
  index_delete : Nat → EStateM Exn (World σ) PUnit
  index_delete_by_id : Option Nat → Nat → EStateM Exn (World σ) PUnit
  /-- The attributes of a deleted object go back to their defaults. -/
  reset : Nat → EStateM Exn (World σ) PUnit
  json_version : ∀ raw value, json_loads raw = some value → raw.head? ≠ some 3

/-- A model with the triggers that were added to it. -/
structure Model (σ : Type) where
  host : Host σ
  added : List (Trigger σ)

/-! ## What is written down -/

/-- A call of a trigger: which one, for what, on which object, and its answer
unless it raised. -/
structure Call where
  index : Nat
  action : Action
  seen : Nat
  response : Option Response
  deriving DecidableEq

inductive Event where
  | called (call : Call)
  | modified
  deriving DecidableEq

structure Run (σ : Type) where
  world : World σ
  log : List Event

abbrev M (σ : Type) := EStateM Exn (Run σ)

variable {σ : Type}

/-- Run code that is not part of the model. -/
def lift {α : Type} (code : EStateM Exn (World σ) α) : M σ α :=
  onPart Run.world (fun run world => { run with world := world }) code

def note (event : Event) : M σ PUnit :=
  modify fun run => { run with log := run.log ++ [event] }

/-- Run code that modifies the store or the index when it returns. -/
def modifying {α : Type} (code : EStateM Exn (World σ) α) : M σ α := do
  let value ← lift code
  note .modified
  return value

/-- Read an attribute of an object. -/
def attr {α : Type} (ref : Nat) (read : Obj → α) : M σ α := do
  let run ← getThe (Run σ)
  return read (run.world.objects ref)

/-- Set attributes of an object. -/
def setattr (ref : Nat) (change : Obj → Obj) : M σ PUnit :=
  modify fun run =>
    { run with
      world :=
        { run.world with
          objects := fun other =>
            if other = ref then change (run.world.objects ref)
            else run.world.objects other } }

def nosave : M σ Bool := do
  let run ← getThe (Run σ)
  return run.world.nosave

def readonly : M σ Bool := do
  let run ← getThe (Run σ)
  return run.world.readonly

namespace Model

/-- `_maintenance`, the trigger that every model adds to itself. -/
def _maintenance (model : Model σ) : Trigger σ := fun action _ => do
  match action with
  | .schema_change => model.host.reattach
  | _ => pure PUnit.unit
  return ⟨.nothing, false⟩

def _triggers (model : Model σ) : List (Trigger σ) :=
  model._maintenance :: model.added

/-- Call one trigger. -/
def method (trigger : Trigger σ) (index : Nat) (action : Action) (obj : Nat) :
    M σ Response := fun run =>
  match trigger action obj run.world with
  | .ok response world =>
      .ok response
        ⟨world, run.log ++ [.called ⟨index, action, obj, some response⟩]⟩
  | .error problem world =>
      .error problem ⟨world, run.log ++ [.called ⟨index, action, obj, none⟩]⟩

/-- The loop of `_triggers_call`. -/
def triggersFrom : List (Trigger σ) → Nat → Action → Nat → M σ (Nat × Bool)
  | [], _, _, obj => return (obj, false)
  | trigger :: triggers, index, action, obj => do
      let response ← method trigger index action obj
      if response.stop then return (obj, true)
      else
        match response.returned with
        | .obj obj2 => triggersFrom triggers (index + 1) action obj2
        | .nothing => triggersFrom triggers (index + 1) action obj
        | .other =>
            throw (.base "obj return from action needs to be a JSXObject or None")

def _triggers_call (model : Model σ) (obj : Nat) (action : Action) :
    M σ (Nat × Bool) :=
  triggersFrom model._triggers 0 action obj

/-! ## Making an object -/

/-- `Schema.new` for a model; what the triggers return is not used. -/
def schema_new (model : Model σ) (source : Source) : M σ Nat := do
  let obj ← lift (model.host.objclass source)
  let _ ← model._triggers_call obj .new
  return obj

/-- `int.from_bytes`, little endian. -/
def int_from_bytes : List Nat → Nat
  | [] => 0
  | byte :: bytes => byte + 256 * int_from_bytes bytes

/-- `jsxdata.loads`, up to the object: here the schema is looked up. -/
def loadsObject (model : Model σ) (raw : List Nat) : M σ (Nat × Found) := do
  attempt (Fallible.ensure (raw.head? = some 3)
    (.base "version wrong, versionnr found: (needs to be 1 or 10)"))
  let found ← lift (model.host.schema_get raw)
  let obj ← model.schema_new (.capnpdata (raw.drop 21))
  return (obj, found)

/-- `jsxdata.loads`, with the object at hand. -/
def loadsRest (model : Model σ) (raw : List Nat) (obj : Nat) (found : Found) : M σ Nat := do
  let obj_id := int_from_bytes ((raw.drop 1).take 4)
  setattr obj fun attrs => { attrs with id := if obj_id = 0 then none else some obj_id }
  if found.sameUrl then
    let _ ← model._triggers_call obj .new
    if found.outdated then
      let _ ← model._triggers_call obj .schema_change
      -- `model.schema_change`, with triggers that see no object
      lift model.host.schema_change
      return obj
    else return obj
  else return obj

/-- `jsxdata.loads`. -/
def loads (model : Model σ) (raw : List Nat) : M σ Nat := do
  let (obj, found) ← model.loadsObject raw
  model.loadsRest raw obj found

/-- The data given to `BCDBModel.new`. -/
inductive Data where
  | none
  | dict (items : List (String × PyVal))
  | str (text : String)
  | bytes (raw : List Nat)
  | obj (ref : Nat)

/-- The data once `new` has looked at its type and put `kwargs` into it. -/
inductive Given where
  | nothing
  | value (data : PyVal)
  | bytes (raw : List Nat)
  | obj (ref : Nat)

/-- Put `kwargs` over the data; only a dict has `update`. -/
def updated (data : PyVal) (kwargs : List (String × PyVal)) : Except Exn PyVal :=
  match data with
  | .dict items =>
      let kept := items.map fun item =>
        (kwargs.find? fun other => other.1 == item.1).getD item
      let new := kwargs.filter fun other => items.all fun item => item.1 != other.1
      .ok (.dict (kept ++ new))
  | _ => .error (.attributeError "update")

/-- The first lines of `new`. -/
def given (host : Host σ) (data : Data) (kwargs : List (String × PyVal)) :
    Except Exn Given :=
  let value (data : PyVal) : Except Exn Given :=
    if data.truthy then
      if kwargs = [] then .ok (.value data)
      else (updated data kwargs).map .value
    else if kwargs = [] then .ok .nothing
    else .ok (.value (.dict kwargs))
  match data with
  | .none => value .none
  | .dict items => value (.dict items)
  | .str text =>
      match host.json_check text with
      | some data => value data
      | none => value (.str text)
  | .bytes raw =>
      if raw = [] then value .none
      else if kwargs = [] then .ok (.bytes raw)
      else .error (.attributeError "update")
  | .obj ref =>
      if kwargs = [] then .ok (.obj ref) else .error (.attributeError "update")

/-- The object that `new` makes out of its data. -/
def create (model : Model σ) : Given → M σ Nat
  | .nothing => lift (model.host.objclass .nothing)
  | .value (.dict items) => model.schema_new (.datadict (.dict items))
  | .value _ => throw (.base "need dict")
  | .bytes raw => fun run =>
      -- `except:` takes every exception, also those of the triggers
      match model.host.json_loads raw with
      | some data =>
          match model.schema_new (.datadict data) run with
          | .ok obj reached => .ok obj reached
          | .error _ reached => model.loads raw reached
      | none => model.loads raw run
  | .obj ref => do
      let data ← lift (model.host.ddict ref)
      model.schema_new (.datadict data)

/-- `new`, with the object at hand. -/
def newRest (model : Model σ) (obj nid : Nat) : M σ Nat := do
  modify fun run => { run with world := model.host.methods_add obj run.world }
  setattr obj fun attrs => { attrs with nid := nid }
  let (obj, _) ← model._triggers_call obj .new
  return obj

def new (model : Model σ) (data : Data) (nid : Nat) (kwargs : List (String × PyVal)) :
    M σ Nat := do
  let source ← attempt (given model.host data kwargs)
  let obj ← model.create source
  model.newRest obj nid

/-! ## Getting an object -/

/-- `BCDB._unserialize`. -/
def _unserialize (model : Model σ) (id : Nat) (data : List Nat) : M σ Nat := do
  let stored ← attempt (model.host.unpack data)
  let obj ← model.loads stored.bdata
  let same ← lift (model.host.has_schema obj)
  attempt (Fallible.ensure (same = true) .assertionError)
  setattr obj fun attrs =>
    { attrs with
      nid := stored.nid
      id := if attrs.id.getD 0 = 0 ∧ id ≠ 0 then some id else attrs.id
      acl_id := if stored.acl_id = 0 then attrs.acl_id else some stored.acl_id }
  return obj

def get (model : Model σ) (obj_id : Nat) (die : Bool) : M σ (Option Nat) := do
  attempt (Fallible.ensure (obj_id ≠ 0) (.base "id cannot be None or 0"))
  let data ← lift (model.host.stor_get obj_id)
  match data with
  | none =>
      if die then
        throw (.notFound s!"could not find obj with id:{obj_id} of {model.host.url}")
      else return none
  | some data =>
      let obj ← model._unserialize obj_id data
      let same ← lift (model.host.has_schema obj)
      attempt (Fallible.ensure (same = true)
        (.jsBug "no object with id found, different schema url."))
      let (obj, _) ← model._triggers_call obj .get
      return some obj

/-- The loop of `find`, with every object it gets. -/
def find (model : Model σ) : List Nat → M σ (List Nat)
  | [] => return []
  | id :: ids => do
      let obj ← fun run =>
        match model.get id true run with
        | .ok obj reached => .ok obj reached
        | .error (.notFound _) reached => .ok none reached
        | .error problem reached => .error problem reached
      let found ← model.find ids
      return obj.toList ++ found

/-! ## Setting an object -/

/-- The ACL part of `set`. -/
def setAcl (model : Model σ) (obj : Nat) : M σ PUnit := do
  setattr obj fun attrs =>
    { attrs with acl_id := some (attrs.acl_id.getD 0) }
  let acl ← attr obj Obj._acl
  match acl with
  | none => return PUnit.unit
  | some acl =>
      match acl.id with
      | none =>
          let written ← lift (model.host.acl_save obj)
          runIf (written = true) (note .modified)
      | some id =>
          let acl2 ← lift (model.host.acl_get id)
          runIf (acl2 ≠ some acl.md5) do
            runIf (acl2 ≠ none) (setattr obj fun attrs =>
              { attrs with _acl := attrs._acl.map fun acl => { acl with id := none } })
            let written ← lift (model.host.acl_save obj)
            runIf (written = true) (note .modified)
      setattr obj fun attrs =>
        { attrs with acl_id := attrs._acl.bind AclPart.id }

/-- Store new data, under the id that the store gives out. -/
def storeNew (model : Model σ) (obj : Nat) (data : Stored) : M σ PUnit := do
  let id ← modifying (model.host.stor_set data none)
  setattr obj fun attrs => { attrs with id := some id }

/-- The store part of `set`. -/
def setStore (model : Model σ) (obj : Nat) : M σ PUnit := do
  let bdata ← lift (model.host.data obj)
  let attrs ← attr obj id
  attempt (Fallible.ensure (attrs.nid > 0) .assertionError)
  let data : Stored := ⟨attrs.nid, attrs.acl_id.getD 0, bdata⟩
  match attrs.id with
  | none =>
      model.storeNew obj data
      -- the first id is skipped
      let id ← attr obj Obj.id
      runIf (id = some 0) (model.storeNew obj data)
      let id ← attr obj Obj.id
      attempt (Fallible.ensure (id.getD 0 ≠ 0) .assertionError)
  | some id =>
      let _ ← modifying (model.host.stor_set data (some id))

/-- A constraint of the index is reported as a problem of the input. -/
def notUnique : Exn → Exn
  | .integrityError error => .input (.constraintFailed error)
  | problem => problem

/-- The index part of `set`. -/
def setIndex (model : Model σ) (obj : Nat) (store : Bool) : M σ PUnit := do
  runIf (store = false) (modifying (model.host.index_delete obj))
  modifying (rename notUnique (model.host.index_set obj))

/-- What `set` writes. -/
def setWrite (model : Model σ) (obj : Nat) (index store : Bool) : M σ PUnit := do
  runIf (store = true) do
    model.setAcl obj
    model.setStore obj
  runIf (index = true) (model.setIndex obj store)

/-- What `set` does when a trigger of `set_pre` stopped. -/
def setStopped (obj : Nat) : M σ PUnit := do
  let id ← attr obj Obj.id
  attempt (Fallible.ensure (id.getD 0 ≠ 0) .assertionError)

/-- `set` up to its triggers of `set_post`: the object, and whether a trigger
stopped. -/
def setData (model : Model σ) (obj : Nat) (index store : Bool) :
    M σ (Nat × Bool) := do
  let nid ← attr obj Obj.nid
  attempt (Fallible.ensure (nid ≠ 0) .assertionError)
  if store then
    let (obj, stop) ← model._triggers_call obj .set_pre
    if stop then
      setStopped obj
      return (obj, true)
    else
      model.setWrite obj index true
      return (obj, false)
  else
    model.setWrite obj index false
    return (obj, false)

def set (model : Model σ) (obj : Nat) (index store : Bool) : M σ Nat := do
  let (obj, stop) ← model.setData obj index store
  if stop then return obj
  else
    let (obj, _) ← model._triggers_call obj .set_post
    return obj

/-- The check of one unique property in `JSXObjectRoot.save`. -/
def checkUnique (model : Model σ) (self : Nat) (property : String) : M σ PUnit := do
  let ids ← lift (model.host.find_ids property self)
  let found ← model.find ids
  match found with
  | [] => return PUnit.unit
  | [other] =>
      let id ← attr self Obj.id
      let otherId ← attr other Obj.id
      attempt (Fallible.ensure (id.getD 0 = 0 ∨ id = otherId)
        (.input (.notUnique property)))
  | _ => throw (.input (.notUnique property))

/-- What `JSXObjectRoot.save` does before it calls `set`. -/
def prepare (model : Model σ) (self : Nat) : M σ PUnit := do
  lift (model.host.check_empty_indexed_fields self)
  let acl ← attr self Obj._acl
  runIf (model.host.classnameAcl = false ∧ acl.any (fun acl => acl.id.isNone) = true) do
    let written ← lift (model.host.acl_save self)
    runIf (written = true) (note .modified)
  model.host.properties_unique.forM (model.checkUnique self)

/-- `JSXObjectRoot.save`, from its call of `set` on. -/
def saveSet (model : Model σ) (self : Nat) : M σ Nat := do
  let obj ← model.set self true true
  let id ← attr obj Obj.id
  attempt (Fallible.ensure (id.getD 0 ≠ 0) .assertionError)
  setattr self fun attrs => { attrs with id := id }
  return obj

/-- `JSXObjectRoot.save` of a changed object. -/
def saveChanged (model : Model σ) (self : Nat) : M σ Nat := do
  lift (model.host.capnp_obj self)
  let unsaved ← nosave
  if unsaved then
    let (obj, _) ← model._triggers_call self .set_pre
    return obj
  else
    model.prepare self
    model.saveSet self

/-- `JSXObjectRoot.save`. -/
def save (model : Model σ) (self : Nat) : M σ Nat := do
  let changed ← attr self Obj._changed
  if changed then model.saveChanged self else return self

/-! ## Deleting an object -/

/-- Take an id out of the store and the index. -/
def remove (model : Model σ) (id : Option Nat) (nid : Nat) : M σ PUnit := do
  modifying (model.host.stor_delete id)
  modifying (model.host.index_delete_by_id id nid)

/-- `BCDBModel.delete` of an id. -/
def deleteId (model : Model σ) (id : Nat) : M σ PUnit := do
  attempt (Fallible.ensure (id > 0) .assertionError)
  model.remove (some id) 1

/-- `BCDBModel.delete` of an object. -/
def delete (model : Model σ) (obj : Nat) : M σ PUnit := do
  let attrs ← attr obj id
  attempt (Fallible.ensure (attrs.nid ≠ 0) .assertionError)
  if attrs.id.isSome then
    let (obj, stop) ← model._triggers_call obj .delete
    if stop then return PUnit.unit
    else
      let attrs ← attr obj id
      model.remove attrs.id attrs.nid
  else return PUnit.unit

/-- `JSXObjectRoot.delete`, behind its own call of the triggers. -/
def objectRemove (model : Model σ) (self : Nat) : M σ PUnit := do
  let unsaved ← nosave
  if unsaved then return PUnit.unit
  else
    let locked ← readonly
    attempt (Fallible.ensure (locked = false)
      (.base "object _readonly, cannot be saved."))
    runIf (model.host.classAcl = false) (model.delete self)
    lift (model.host.reset self)
    setattr self fun attrs => { attrs with id := none }

/-- `JSXObjectRoot.delete`; what the triggers return is not used. -/
def objectDelete (model : Model σ) (self : Nat) : M σ PUnit := do
  let _ ← model._triggers_call self .delete
  model.objectRemove self

end Model

/-! ## The operations -/

inductive Operation where
  | new (data : Model.Data) (nid : Nat) (kwargs : List (String × PyVal))
  | get (obj_id : Nat) (die : Bool)
  | set (obj : Nat) (index store : Bool)
  | save (self : Nat)
  | deleteId (id : Nat)
  | delete (obj : Nat)
  | objectDelete (self : Nat)

namespace Operation

/-- The actions that are documented for an operation, in their order. -/
def documented : Operation → List Action
  | .new .. => [.new]
  | .get .. => [.get]
  | .set .. | .save _ => [.set_pre, .set_post]
  | .deleteId _ | .delete _ | .objectDelete _ => [.delete]

def perform (model : Model σ) : Operation → M σ PUnit
  | .new data nid kwargs => do let _ ← model.new data nid kwargs
  | .get obj_id die => do let _ ← model.get obj_id die
  | .set obj index store => do let _ ← model.set obj index store
  | .save self => do let _ ← model.save self
  | .deleteId id => model.deleteId id
  | .delete obj => model.delete obj
  | .objectDelete self => model.objectDelete self

end Operation

end JumpscaleX.Triggers
