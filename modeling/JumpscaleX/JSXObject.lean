import Mathlib.Algebra.Group.Nat.Defs
import Mathlib.Logic.Function.Basic
import JumpscaleX.Library.OrderedMap
import JumpscaleX.Library.Stateful
import JumpscaleX.Schema

/-!
# JSX objects

The generated object class: a capnp message, the items that were read from it
or assigned over it, and the flag that tells whether they differ.  `toCapnp`,
`dumps` and `loads` go to the stored form and back, `ddict` and `dataUpdate`
to the dict form and back.
-/

namespace JumpscaleX

open Fallible

/-- The fields of a capnp message by their number.  A missing field reads as
the zero value of its type. -/
abbrev Message := OrderedMap Nat PyVal

/-- A JSX object at the root level, without its attached ACL.  `changed` is
what `_changed` answers: the flag of the object together with the flags of its
lists and sub-objects. -/
structure JSXObject where
  schema : Schema
  model : Option Url
  capnpObj : Message
  deserializedItems : String → Option PyVal
  changed : Bool
  id : Option Nat
  nid : Nat
  aclId : Option Nat

/-- What `jsxdata.dumps` writes behind the version byte. -/
structure BData where
  objId : Nat
  md5 : Md5
  message : Message
  deriving DecidableEq

/-- The triple kept in the store.  The encryption of the third part is taken
as transparent. -/
structure Record where
  nid : Nat
  aclId : Option Nat
  bdata : BData
  deriving DecidableEq

abbrev DataDict := List (String × PyVal)

/-- What the getter computes when the property was not read or set before. -/
def readField (prop : SchemaProperty) (message : Message) : Except Exn PyVal :=
  prop.jumpscaletype.clean
    ((message.lookup prop.nr).getD prop.jumpscaletype.capnpZero)

/-- Write the data of a property that was read or set into the message. -/
def writeField (deserializedItems : String → Option PyVal) (message : Message)
    (prop : SchemaProperty) : Except Exn Message :=
  match deserializedItems prop.name with
  | none => .ok message
  | some value => do
      let data ← prop.jumpscaletype.toData value
      return message.insert prop.nr data

namespace JSXObject

def readProp (obj : JSXObject) (prop : SchemaProperty) : Except Exn PyVal :=
  match obj.deserializedItems prop.name with
  | some value => .ok value
  | none => readField prop obj.capnpObj

def getattr (obj : JSXObject) (name : String) : Except Exn PyVal :=
  match obj.schema.property? name with
  | some prop => obj.readProp prop
  | none => .error (.attributeError name)

/-- The property setter.  Comparing with the present value reads it, and
reading a dict flags the object. -/
def setProp (readonly : Bool) (obj : JSXObject) (prop : SchemaProperty)
    (value : PyVal) : Except Exn JSXObject := do
  ensure (readonly = false) (.input .readonlyObject)
  let cleaned ← prop.jumpscaletype.clean value
  let present ← obj.readProp prop
  let flagged := obj.changed || decide (prop.jumpscaletype.NAME = "dict")
  if prop.jumpscaletype.eq cleaned present then
    return { obj with changed := flagged }
  else
    return { obj with
      deserializedItems :=
        Function.update obj.deserializedItems prop.name (some cleaned)
      changed := true }

/-- `setattr(self, key, val)`.  A key that is neither a property nor one of
the object's own attributes makes an attribute that nothing reads. -/
def setattr (readonly : Bool) (obj : JSXObject) (key : String)
    (value : PyVal) : Except Exn JSXObject :=
  match obj.schema.property? key with
  | some prop => obj.setProp readonly prop value
  | none =>
      match key, value with
      | "id", .int (.ofNat id) => .ok { obj with id := some id }
      | "id", .none => .ok { obj with id := none }
      | "nid", .int (.ofNat nid) => .ok { obj with nid := nid }
      | "acl_id", .int (.ofNat aclId) => .ok { obj with aclId := some aclId }
      | _, _ => .ok obj

def defaultsSet (readonly : Bool) (obj : JSXObject) : Except Exn JSXObject :=
  obj.schema.properties.foldlM
    (fun obj prop => obj.setProp readonly prop prop.jumpscaletype.defaultGet) obj

def dataUpdate (readonly : Bool) (obj : JSXObject) (datadict : DataDict) :
    Except Exn JSXObject :=
  datadict.foldlM (fun obj item => obj.setattr readonly item.1 item.2) obj

/-- `_capnp_obj`. -/
def toCapnp (obj : JSXObject) : Except Exn Message :=
  if obj.changed then
    obj.schema.properties.foldlM (writeField obj.deserializedItems) obj.capnpObj
  else .ok obj.capnpObj

/-- `jsxdata.dumps`.  The id has four bytes in the stored form. -/
def dumps (obj : JSXObject) : Except Exn BData := do
  let message ← obj.toCapnp
  ensure (obj.id.getD 0 < 2 ^ 32) .overflowError
  return { objId := obj.id.getD 0, md5 := obj.schema.md5, message := message }

/-- `_ddict`. -/
def ddict (obj : JSXObject) : Except Exn DataDict := do
  let props ← obj.schema.properties.mapM (fun prop => do
    let value ← obj.readProp prop
    return (prop.name, prop.jumpscaletype.datadict value))
  return props ++ (obj.id.map (fun id => ("id", .int id))).toList

end JSXObject

/-- `_changed` of an object over a message that nothing was read from: a
sub-object that is missing in the message is made anew, and may report its own
defaults as a change. -/
def Schema.freshChanged (schema : Schema) (message : Message) : Bool :=
  schema.properties.any (fun prop =>
    prop.jumpscaletype.freshChanged && (message.lookup prop.nr).isNone)

/-- An object over an existing message, as `schema.new(capnpdata)` makes it. -/
def Schema.fromCapnp (schema : Schema) (message : Message) (model : Option Url) :
    JSXObject :=
  { schema := schema
    model := model
    capnpObj := message
    deserializedItems := fun _ => none
    changed := schema.freshChanged message
    id := none
    nid := 1
    aclId := none }

/-- `schema.new()` and `schema.new(datadict)`. -/
def Schema.new (schema : Schema) (readonly : Bool) (model : Option Url)
    (datadict : DataDict) : Except Exn JSXObject := do
  let empty : JSXObject := { schema.fromCapnp .empty model with aclId := some 0 }
  let obj ← empty.defaultsSet readonly
  obj.dataUpdate readonly datadict

/-- The object over the message of a stored form, with the id that stands in
it. -/
def BData.toObj (bdata : BData) (schema : Schema) (model : Option Url) :
    JSXObject :=
  { schema.fromCapnp bdata.message model with
    id := if bdata.objId = 0 then none else some bdata.objId }

namespace SchemaFactory

/-- `jsxdata.loads`: the message is read under the newest version of the url
that its md5 belongs to. -/
def loads (factory : SchemaFactory) (bdata : BData) (model : Option Url) :
    Except Exn JSXObject := do
  let schemaMd5 ← factory.getFromMd5 bdata.md5
  let schema ← factory.getFromUrl schemaMd5.url
  return bdata.toObj schema model

end SchemaFactory

/-! ## Serialising -/

/-- Writing the items of an object into a message writes the same entries
whatever the message held. -/
theorem writeFields_eq_insertAll
    {items : String → Option PyVal} {props : List SchemaProperty}
    {start message : Message}
    (done : props.foldlM (writeField items) start = .ok message) :
    ∃ written : List (Nat × PyVal), ∀ other : Message,
      props.foldlM (writeField items) other = .ok (other.insertAll written) := by
  induction props generalizing start with
  | nil => exact ⟨[], fun _ => rfl⟩
  | cons prop rest induction =>
      rw [List.foldlM_cons, bind_eq_ok_iff] at done
      obtain ⟨between, first, later⟩ := done
      obtain ⟨written, same⟩ := induction later
      unfold writeField at first
      cases value : items prop.name with
      | none =>
          refine ⟨written, ?_⟩
          intro other
          rw [List.foldlM_cons]
          simp [writeField, value, bind, Except.bind, same]
      | some item =>
          rw [value] at first
          simp only [bind_eq_ok_iff, pure_eq_ok_iff] at first
          obtain ⟨data, encoded, _⟩ := first
          refine ⟨(prop.nr, data) :: written, ?_⟩
          intro other
          rw [List.foldlM_cons]
          simp [writeField, value, encoded, bind, Except.bind, pure,
            Except.pure, same, OrderedMap.insertAll]

/-- Serialising an object again writes the same message. -/
theorem JSXObject.toCapnp_again {obj : JSXObject} {message : Message}
    (done : obj.toCapnp = .ok message) :
    ({ obj with capnpObj := message } : JSXObject).toCapnp = .ok message := by
  unfold JSXObject.toCapnp at done ⊢
  by_cases changed : obj.changed = true
  · simp only [changed, if_true] at done ⊢
    obtain ⟨written, same⟩ := writeFields_eq_insertAll done
    rw [same] at done ⊢
    cases done
    rw [OrderedMap.insertAll_insertAll]
  · simp only [changed] at done ⊢
    rfl

/-- Every value that an object holds is the one its stored form reads back. -/
def JSXObject.Settled (obj : JSXObject) : Prop :=
  ∀ message, obj.toCapnp = .ok message →
    ∀ prop ∈ obj.schema.properties, ∀ value,
      obj.deserializedItems prop.name = some value →
        readField prop message = .ok value

theorem JSXObject.Settled.readProp {obj : JSXObject} {message : Message}
    (settled : obj.Settled) (done : obj.toCapnp = .ok message)
    {prop : SchemaProperty} (member : prop ∈ obj.schema.properties) :
    ({ obj with capnpObj := message } : JSXObject).readProp prop =
      readField prop message := by
  unfold JSXObject.readProp
  cases held : obj.deserializedItems prop.name with
  | none => rfl
  | some value => exact (settled message done prop member value held).symm

end JumpscaleX
