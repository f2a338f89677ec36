import JumpscaleX.JSXObject
import JumpscaleX.Library.TextBytes

/-!
# Messages between 3Bots

`EncryptorTools._serialize` and `_unserialize`: the items of a message, the
form in which each is handed to the json or the msgpack encoder, and the way
back.  An object travels as a list that starts with 999, a JSX dict as a list
that starts with 998.  The two encoders themselves are parameters.
-/

namespace JumpscaleX

open Fallible TextBytes

inductive SerializationFormat where
  | json
  | msgpack
  deriving DecidableEq

/-- What `dumps` yields: a text for json, bytes for msgpack. -/
inductive Dumped where
  | text (value : String)
  | binary (content : Bytes)
  deriving DecidableEq

/-- `data.encode()` of a dumped text; bytes are left as they are. -/
def Dumped.encode : Dumped → Bytes
  | .text value => utf8 value
  | .binary content => content

/-- The libraries json and msgpack, on the values that they know themselves. -/
structure Codecs where
  jsonDumps : PyVal → Except Exn String
  jsonLoads : String → Except Exn PyVal
  packb : PyVal → Except Exn Bytes
  unpackb : Bytes → Except Exn PyVal

namespace BytesEncoder

/-- `bytes.decode("ascii")`. -/
def ascii (content : List Nat) : Except Exn String := do
  ensure (∀ byte ∈ content, byte < 128) (.valueError "ordinal not in range(128)")
  return String.ofList (content.map Char.ofNat)

mutual

/-- The value that json sees once `default` was asked about everything it does
not know itself. -/
def default : PyVal → Except Exn PyVal
  | .bytes content => .str <$> ascii content
  | .list items => .list <$> defaultItems items
  | .dict fields => .dict <$> defaultFields fields
  | .numeric _ | .enum _ _ | .jsx _ _ => .error (.typeError "not JSON serializable")
  | value => .ok value

def defaultItems : List PyVal → Except Exn (List PyVal)
  | [] => .ok []
  | item :: rest => do
      let native ← default item
      let natives ← defaultItems rest
      return native :: natives

def defaultFields : List (String × PyVal) → Except Exn (List (String × PyVal))
  | [] => .ok []
  | (name, value) :: rest => do
      let native ← default value
      let natives ← defaultFields rest
      return (name, native) :: natives

end

end BytesEncoder

/-- A failing encoder or decoder is reported as `j.exceptions.Value`. -/
def orValueError {α : Type} (message : String) : Except Exn α → Except Exn α
  | .ok value => .ok value
  | .error _ => .error (.valueError message)

namespace SerializerUJson

def dumps (codecs : Codecs) (value : PyVal) : Except Exn String :=
  orValueError "Cannot dump (package) json"
    (BytesEncoder.default value >>= codecs.jsonDumps)

def loads (codecs : Codecs) : Dumped → Except Exn PyVal
  | .text text => orValueError "Cannot load json" (codecs.jsonLoads text)
  | .binary content =>
      match utf8Decode content with
      | some text => orValueError "Cannot load json" (codecs.jsonLoads text)
      | none => .error (.valueError "'utf-8' codec can't decode")

end SerializerUJson

namespace SerializerMSGPack

def dumps (codecs : Codecs) (value : PyVal) : Except Exn Bytes :=
  orValueError "Cannot dump (package) msgpack" (codecs.packb value)

def loads (codecs : Codecs) : Dumped → Except Exn PyVal
  | .text _ => .error (.valueError "Cannot loads msgpack, input needs to be bytes")
  | .binary content =>
      orValueError "Cannot dump (package) msgpack" (codecs.unpackb content)

end SerializerMSGPack

namespace Codecs

def dumps (codecs : Codecs) (format : SerializationFormat) (value : PyVal) :
    Except Exn Dumped :=
  match format with
  | .json => .text <$> SerializerUJson.dumps codecs value
  | .msgpack => .binary <$> SerializerMSGPack.dumps codecs value

def loads (codecs : Codecs) (format : SerializationFormat) (dumped : Dumped) :
    Except Exn PyVal :=
  match format with
  | .json => SerializerUJson.loads codecs dumped
  | .msgpack => SerializerMSGPack.loads codecs dumped

end Codecs

/-- An item of a message: a plain value, a JSX object, or a JSX dict with its
`_data`. -/
inductive Item where
  | value (value : PyVal)
  | jsx (obj : JSXObject)
  | jsdict (data : PyVal)

/-- What is sent: a list of items, or a single item. -/
inductive MessageData where
  | list (items : List Item)
  | single (item : Item)

structure EncryptorTools where
  codecs : Codecs
  schemas : SchemaFactory

/-- `_json`. -/
def JSXObject.json (codecs : Codecs) (obj : JSXObject) : Except Exn String := do
  SerializerUJson.dumps codecs (.dict (← obj.ddict))

namespace EncryptorTools

def serializeItem (tools : EncryptorTools) : Item → Except Exn PyVal
  | .value (.str text) => .ok (.str text)
  | .value (.int value) => .ok (.int value)
  | .value (.bool value) => .ok (.bool value)
  | .value (.float value) => .ok (.float value)
  | .value (.bytes content) => .ok (.bytes content)
  | .jsx obj => do
      let text ← obj.json tools.codecs
      return .list [.int 999, .str obj.schema.md5, .str text]
  | .jsdict data => .ok (.list [.int 998, data])
  | .value (.list items) => .ok (.list items)
  | .value (.dict fields) => .ok (.dict fields)
  | .value _ => .error (.input (.other "did not find supported format"))

/-- What the encoder takes a single item for.  Json knows JSX dicts, through
`BytesEncoder`. -/
def nativeItem (format : SerializationFormat) : Item → Except Exn PyVal
  | .value value => .ok value
  | .jsx _ => .error (.valueError "Cannot dump (package)")
  | .jsdict data =>
      match format with
      | .json => .ok data
      | .msgpack => .error (.valueError "Cannot dump (package) msgpack")

/-- The value that is handed to the encoder. -/
def nativeMessage (tools : EncryptorTools) (format : SerializationFormat) :
    MessageData → Except Exn PyVal
  | .list items => .list <$> items.mapM tools.serializeItem
  | .single (.value (.list values)) =>
      .list <$> (values.map Item.value).mapM tools.serializeItem
  | .single item => nativeItem format item

/-- `_serialize`. -/
def serialize (tools : EncryptorTools) (format : SerializationFormat)
    (message : MessageData) : Except Exn Dumped := do
  tools.codecs.dumps format (← tools.nativeMessage format message)

/-- `schema.new(datadict=datadict)` with what json read from the text. -/
def newObject (schema : Schema) : PyVal → Except Exn JSXObject
  | .dict fields => schema.new false none fields
  | datadict => do
      let obj ← schema.new false none []
      ensure (datadict.truthy = false) (.base "need to be dict, was:")
      return obj

/-- The object that a list `[999, md5, json]` stands for. -/
def readObject (tools : EncryptorTools) (md5 text : PyVal) : Except Exn JSXObject :=
  match md5, text with
  | .str md5, .str text => do
      let schema ← tools.schemas.getFromMd5 md5
      let datadict ← SerializerUJson.loads tools.codecs (.binary (utf8 text))
      newObject schema datadict
  | .str md5, _ => do
      let _ ← tools.schemas.getFromMd5 md5
      throw (.attributeError "encode")
  | _, _ => .error .assertionError

/-- `_unserialize_item`. -/
def unserializeItem (tools : EncryptorTools) (format : SerializationFormat) :
    PyVal → Except Exn Item
  | .list [tag, data] =>
      if tag.pyEq (.int 998) then .ok (.jsdict data) else .ok (.value (.list [tag, data]))
  | .list [tag, md5, text] =>
      if tag.pyEq (.int 999) then .jsx <$> tools.readObject md5 text
      else .ok (.value (.list [tag, md5, text]))
  | .bytes content =>
      -- every other kind of value is returned as it is, bytes are decoded if
      -- they happen to be a dump
      match tools.codecs.loads format (.binary (content.map UInt8.ofNat)) with
      | .ok value => .ok (.value value)
      | .error _ => .ok (.value (.bytes content))
  | data => .ok (.value data)

/-- `_unserialize`. -/
def unserialize (tools : EncryptorTools) (format : SerializationFormat)
    (dumped : Dumped) : Except Exn MessageData := do
  match ← tools.codecs.loads format dumped with
  | .list items => .list <$> items.mapM (tools.unserializeItem format)
  | data => .single <$> tools.unserializeItem format data

end EncryptorTools

end JumpscaleX
