import JumpscaleX.AgreementRuns
import JumpscaleX.ObjectCopies

/-!
# What comes back of a message

A message is read back as it was sent exactly when none of its lists looks like
a tagged object, none of its byte strings happens to be a dump itself, the
values of its objects survive their dict form, and no object or JSX dict is
sent on its own.
-/

namespace JumpscaleX

open Fallible TextBytes

namespace SerializationFormat

mutual

/-- The values that the encoder of the format knows itself. -/
def knows (format : SerializationFormat) : PyVal → Bool
  | .bytes _ => decide (format = .msgpack)
  | .list items => knowsItems format items
  | .dict fields => knowsFields format fields
  | .numeric _ | .enum _ _ | .jsx _ _ => false
  | _ => true

def knowsItems (format : SerializationFormat) : List PyVal → Bool
  | [] => true
  | item :: rest => knows format item && knowsItems format rest

def knowsFields (format : SerializationFormat) : List (String × PyVal) → Bool
  | [] => true
  | (_, value) :: rest => knows format value && knowsFields format rest

end

end SerializationFormat

namespace BytesEncoder

mutual

/-- Json is handed what it knows as it is. -/
theorem default_of_knows {value : PyVal}
    (known : SerializationFormat.json.knows value = true) : default value = .ok value := by
  cases value with
  | bytes content => simp [SerializationFormat.knows] at known
  | numeric data => simp [SerializationFormat.knows] at known
  | enum values data => simp [SerializationFormat.knows] at known
  | jsx md5 props => simp [SerializationFormat.knows] at known
  | list items =>
      rw [SerializationFormat.knows] at known
      rw [default, defaultItems_of_knows known]
      rfl
  | dict fields =>
      rw [SerializationFormat.knows] at known
      rw [default, defaultFields_of_knows known]
      rfl
  | none => rfl
  | bool value => rfl
  | int value => rfl
  | float value => rfl
  | str value => rfl

theorem defaultItems_of_knows {items : List PyVal}
    (known : SerializationFormat.json.knowsItems items = true) :
    defaultItems items = .ok items := by
  cases items with
  | nil => rfl
  | cons item rest =>
      rw [SerializationFormat.knowsItems, Bool.and_eq_true] at known
      rw [defaultItems, default_of_knows known.1, defaultItems_of_knows known.2]
      rfl

theorem defaultFields_of_knows {fields : List (String × PyVal)}
    (known : SerializationFormat.json.knowsFields fields = true) :
    defaultFields fields = .ok fields := by
  cases fields with
  | nil => rfl
  | cons field rest =>
      obtain ⟨name, value⟩ := field
      rw [SerializationFormat.knowsFields, Bool.and_eq_true] at known
      rw [defaultFields, default_of_knows known.1, defaultFields_of_knows known.2]
      rfl

end

theorem default_dict_eq_ok_iff {fields : List (String × PyVal)} {native : PyVal} :
    default (.dict fields) = .ok native ↔
      ∃ natives, defaultFields fields = .ok natives ∧ native = .dict natives := by
  rw [default]
  cases defaultFields fields with
  | error problem => simp [Functor.map, Except.map]
  | ok natives => simp [Functor.map, Except.map, eq_comm]

theorem defaultFields_append_eq_ok_iff {first second natives : List (String × PyVal)} :
    defaultFields (first ++ second) = .ok natives ↔
      ∃ before after, defaultFields first = .ok before ∧
        defaultFields second = .ok after ∧ natives = before ++ after := by
  induction first generalizing natives with
  | nil => simp [defaultFields, eq_comm]
  | cons field rest induction =>
      obtain ⟨name, value⟩ := field
      simp only [List.cons_append, defaultFields, bind_eq_ok_iff, pure_eq_ok_iff, induction]
      constructor
      · rintro ⟨native, encoded, _, ⟨before, after, one, two, rfl⟩, rfl⟩
        exact ⟨(name, native) :: before, after, ⟨native, encoded, before, one, rfl⟩, two, rfl⟩
      · rintro ⟨_, after, ⟨native, encoded, before, one, rfl⟩, two, rfl⟩
        exact ⟨native, encoded, before ++ after, ⟨before, after, one, two, rfl⟩, rfl⟩

end BytesEncoder

@[simp] theorem orValueError_eq_ok_iff {α : Type} {message : String}
    {outcome : Except Exn α} {value : α} :
    orValueError message outcome = .ok value ↔ outcome = .ok value := by
  cases outcome <;> simp [orValueError]

namespace Codecs

/-- Decoding the dump of the value gives the value back. -/
def Keeps (codecs : Codecs) (format : SerializationFormat) (value : PyVal) : Prop :=
  match format with
  | .json => ∃ text, codecs.jsonDumps value = .ok text ∧ codecs.jsonLoads text = .ok value
  | .msgpack => ∃ content,
      codecs.packb value = .ok content ∧ codecs.unpackb content = .ok value

theorem dumps_of_keeps {codecs : Codecs} {format : SerializationFormat} {value : PyVal}
    (known : format.knows value = true) (keeps : codecs.Keeps format value) :
    ∃ dumped, codecs.dumps format value = .ok dumped ∧
      codecs.loads format dumped = .ok value := by
  cases format with
  | json =>
      obtain ⟨text, dumped, loaded⟩ := keeps
      refine ⟨.text text, ?_, ?_⟩
      · simp [dumps, SerializerUJson.dumps, BytesEncoder.default_of_knows known, bind,
          Except.bind, dumped, orValueError, Functor.map, Except.map]
      · simp [loads, SerializerUJson.loads, loaded]
  | msgpack =>
      obtain ⟨content, dumped, loaded⟩ := keeps
      refine ⟨.binary content, ?_, ?_⟩
      · simp [dumps, SerializerMSGPack.dumps, dumped, orValueError, Functor.map, Except.map]
      · simp [loads, SerializerMSGPack.loads, loaded]

end Codecs

/-! ## Objects -/

namespace JSXObject

/-- The value of the property as it stands in the json of the object. -/
def dictValue (obj : JSXObject) (prop : SchemaProperty) : Except Exn PyVal := do
  let value ← obj.readProp prop
  BytesEncoder.default (prop.jumpscaletype.datadict value)

/-- Every property value can be written to json, and a new object to which the
written value is assigned holds the same value. -/
def ReadsBack (obj : JSXObject) : Prop :=
  ∀ prop ∈ obj.schema.properties, ∃ native value,
    obj.dictValue prop = .ok native ∧ obj.readProp prop = .ok value ∧
      prop.assigned native = .ok value

/-- The same schema, id and property values. -/
structure Same (back obj : JSXObject) : Prop where
  schema : back.schema = obj.schema
  id : back.id = obj.id
  readProp : ∀ prop ∈ obj.schema.properties, ∃ value,
    back.readProp prop = .ok value ∧ obj.readProp prop = .ok value

theorem fields_native_iff {obj : JSXObject} {props : List SchemaProperty}
    {natives : List (String × PyVal)} :
    (∃ fields, props.mapM (fun prop => do
        let value ← obj.readProp prop
        return (prop.name, prop.jumpscaletype.datadict value)) = .ok fields ∧
      BytesEncoder.defaultFields fields = .ok natives) ↔
    ∃ pairs : List (SchemaProperty × PyVal), pairs.map Prod.fst = props ∧
      (∀ pair ∈ pairs, obj.dictValue pair.1 = .ok pair.2) ∧
      natives = pairs.map (fun pair => (pair.1.name, pair.2)) := by
  induction props generalizing natives with
  | nil =>
      constructor
      · rintro ⟨fields, read, encoded⟩
        have empty : [] = fields := Except.ok.inj read
        subst empty
        exact ⟨[], rfl, by simp, (Except.ok.inj encoded).symm⟩
      · rintro ⟨pairs, none, _, rfl⟩
        rw [List.map_eq_nil_iff.mp none]
        exact ⟨[], rfl, rfl⟩
  | cons prop rest induction =>
      constructor
      · rintro ⟨fields, read, encoded⟩
        simp only [List.mapM_cons, bind_eq_ok_iff, pure_eq_ok_iff] at read
        obtain ⟨_, ⟨value, reads, rfl⟩, others, readOthers, rfl⟩ := read
        simp only [BytesEncoder.defaultFields, bind_eq_ok_iff, pure_eq_ok_iff] at encoded
        obtain ⟨native, nativeOf, later, encodedLater, rfl⟩ := encoded
        obtain ⟨pairs, all, values, rfl⟩ := induction.mp ⟨others, readOthers, encodedLater⟩
        refine ⟨(prop, native) :: pairs, by simp [all], ?_, rfl⟩
        intro pair member
        rcases List.mem_cons.mp member with rfl | member
        · simp [dictValue, reads, nativeOf]
        · exact values pair member
      · rintro ⟨pairs, all, values, rfl⟩
        cases pairs with
        | nil => simp at all
        | cons pair pairs =>
            obtain ⟨rfl, allLater⟩ : pair.1 = prop ∧ pairs.map Prod.fst = rest := by
              simpa using all
            obtain ⟨fields, read, encoded⟩ := induction.mpr ⟨pairs, allLater, by
              intro other member
              exact values other (List.mem_cons_of_mem _ member), rfl⟩
            have first := values pair List.mem_cons_self
            simp only [dictValue, bind_eq_ok_iff] at first
            obtain ⟨value, reads, nativeOf⟩ := first
            refine ⟨(pair.1.name, pair.1.jumpscaletype.datadict value) :: fields, ?_, ?_⟩
            · simp only [List.mapM_cons, bind_eq_ok_iff, pure_eq_ok_iff]
              exact ⟨_, ⟨value, reads, rfl⟩, fields, read, rfl⟩
            · simp only [BytesEncoder.defaultFields, bind_eq_ok_iff, pure_eq_ok_iff]
              exact ⟨pair.2, nativeOf, _, encoded, rfl⟩

/-- What json is handed for the object: the written values of its properties,
and its id. -/
theorem ddict_native_iff {obj : JSXObject} {native : PyVal} :
    (∃ fields, obj.ddict = .ok fields ∧ BytesEncoder.default (.dict fields) = .ok native) ↔
    ∃ pairs : List (SchemaProperty × PyVal), pairs.map Prod.fst = obj.schema.properties ∧
      (∀ pair ∈ pairs, obj.dictValue pair.1 = .ok pair.2) ∧
      native = .dict (Schema.dictForm pairs obj.id) := by
  have idNative : BytesEncoder.defaultFields
      (obj.id.map (fun id : Nat => ("id", PyVal.int id))).toList =
        .ok (obj.id.map (fun id : Nat => ("id", PyVal.int id))).toList := by
    cases obj.id <;> rfl
  constructor
  · rintro ⟨fields, dict, encoded⟩
    simp only [ddict, bind_eq_ok_iff, pure_eq_ok_iff] at dict
    obtain ⟨props, read, rfl⟩ := dict
    obtain ⟨natives, encodedFields, rfl⟩ := BytesEncoder.default_dict_eq_ok_iff.mp encoded
    obtain ⟨before, after, one, two, rfl⟩ :=
      BytesEncoder.defaultFields_append_eq_ok_iff.mp encodedFields
    obtain ⟨pairs, all, values, rfl⟩ := fields_native_iff.mp ⟨props, read, one⟩
    have same := Except.ok.inj (two.symm.trans idNative)
    exact ⟨pairs, all, values, by rw [Schema.dictForm, same]⟩
  · rintro ⟨pairs, all, values, rfl⟩
    obtain ⟨props, read, one⟩ := fields_native_iff.mpr ⟨pairs, all, values, rfl⟩
    refine ⟨props ++ (obj.id.map (fun id : Nat => ("id", PyVal.int id))).toList, ?_, ?_⟩
    · simp only [ddict, bind_eq_ok_iff, pure_eq_ok_iff]
      exact ⟨props, read, rfl⟩
    · apply BytesEncoder.default_dict_eq_ok_iff.mpr
      refine ⟨_, BytesEncoder.defaultFields_append_eq_ok_iff.mpr ?_, rfl⟩
      exact ⟨_, _, one, idNative, rfl⟩

theorem json_eq_ok_iff {codecs : Codecs} {obj : JSXObject} {text : String} :
    obj.json codecs = .ok text ↔
      ∃ native, (∃ fields, obj.ddict = .ok fields ∧
        BytesEncoder.default (.dict fields) = .ok native) ∧
          codecs.jsonDumps native = .ok text := by
  simp only [json, SerializerUJson.dumps, bind_eq_ok_iff, orValueError_eq_ok_iff]
  constructor
  · rintro ⟨fields, dict, native, encoded, dumped⟩
    exact ⟨native, ⟨fields, dict, encoded⟩, dumped⟩
  · rintro ⟨native, ⟨fields, dict, encoded⟩, dumped⟩
    exact ⟨fields, dict, native, encoded, dumped⟩

end JSXObject

namespace EncryptorTools

theorem newObject_dictForm {schema : Schema} {pairs : List (SchemaProperty × PyVal)}
    {id : Option Nat} :
    newObject schema (.dict (Schema.dictForm pairs id)) =
      schema.new false none (Schema.dictForm pairs id) := rfl

variable {tools : EncryptorTools} {format : SerializationFormat}

theorem readObject_eq {obj : JSXObject} {text : String} {native : PyVal}
    (registered : tools.schemas.getFromMd5 obj.schema.md5 = .ok obj.schema)
    (loaded : tools.codecs.jsonLoads text = .ok native) :
    tools.readObject (.str obj.schema.md5) (.str text) = newObject obj.schema native := by
  simp only [readObject, registered, SerializerUJson.loads, utf8Decode_utf8, loaded,
    orValueError, bind, Except.bind]

/-- An object is read from its json as it was written exactly when all its
values survive the dict form. -/
theorem object_returns_iff {obj : JSXObject}
    (registered : tools.schemas.getFromMd5 obj.schema.md5 = .ok obj.schema)
    (noId : obj.schema.property? "id" = none)
    (lossless : ∀ fields native, obj.ddict = .ok fields →
      BytesEncoder.default (.dict fields) = .ok native → tools.codecs.Keeps .json native) :
    (∃ text back, obj.json tools.codecs = .ok text ∧
      tools.readObject (.str obj.schema.md5) (.str text) = .ok back ∧ back.Same obj) ↔
    obj.ReadsBack := by
  constructor
  · rintro ⟨text, back, written, read, same⟩
    obtain ⟨native, ⟨fields, dict, encoded⟩, dumped⟩ := JSXObject.json_eq_ok_iff.mp written
    obtain ⟨text', dumped', loaded⟩ := lossless fields native dict encoded
    have sameText : text' = text := Except.ok.inj (dumped'.symm.trans dumped)
    subst sameText
    obtain ⟨pairs, all, values, rfl⟩ :=
      JSXObject.ddict_native_iff.mp ⟨fields, dict, encoded⟩
    rw [readObject_eq registered loaded, newObject_dictForm] at read
    obtain ⟨_, _, reads⟩ := Schema.new_dictForm all noId obj.id read
    intro prop member
    rw [← all] at member
    obtain ⟨pair, pairMember, rfl⟩ := List.mem_map.mp member
    obtain ⟨left, readsLeft, assigned⟩ := reads pair pairMember
    rw [all] at member
    obtain ⟨value, backReads, objReads⟩ := same.readProp pair.1 member
    have sameValue : left = value := Except.ok.inj (readsLeft.symm.trans backReads)
    exact ⟨pair.2, value, values pair pairMember, objReads, sameValue ▸ assigned⟩
  · intro readsBack
    have : Nonempty PyVal := ⟨.none⟩
    choose! native value dictValue objReads assigned using readsBack
    let pairs := obj.schema.properties.map (fun prop => (prop, native prop))
    have all : pairs.map Prod.fst = obj.schema.properties := by
      simp [pairs, Function.comp_def]
    have values : ∀ pair ∈ pairs, obj.dictValue pair.1 = .ok pair.2 := by
      intro pair member
      obtain ⟨prop, propMember, rfl⟩ := List.mem_map.mp member
      exact dictValue prop propMember
    obtain ⟨fields, dict, encoded⟩ :=
      JSXObject.ddict_native_iff.mpr ⟨pairs, all, values, rfl⟩
    obtain ⟨text, dumped, loaded⟩ := lossless fields _ dict encoded
    obtain ⟨back, made⟩ := Schema.new_dictForm_of_assigned none all noId obj.id (by
      intro pair member
      obtain ⟨prop, propMember, rfl⟩ := List.mem_map.mp member
      exact ⟨value prop, assigned prop propMember⟩)
    obtain ⟨backSchema, backId, reads⟩ := Schema.new_dictForm all noId obj.id made
    refine ⟨text, back, ?_, ?_, backSchema, backId, ?_⟩
    · exact JSXObject.json_eq_ok_iff.mpr ⟨_, ⟨fields, dict, encoded⟩, dumped⟩
    · rw [readObject_eq registered loaded]
      exact made
    · intro prop member
      obtain ⟨left, readsLeft, assignedLeft⟩ :=
        reads (prop, native prop) (List.mem_map.mpr ⟨prop, member, rfl⟩)
      have sameValue : left = value prop :=
        Except.ok.inj (assignedLeft.symm.trans (assigned prop member))
      exact ⟨value prop, sameValue ▸ readsLeft, objReads prop member⟩

end EncryptorTools

/-! ## Items -/

namespace Item

/-- The list starts as the form of a JSX dict or of an object does. -/
def tagged : List PyVal → Bool
  | [tag, _] => tag.pyEq (.int 998)
  | [tag, _, _] => tag.pyEq (.int 999)
  | _ => false

/-- What the item has to meet to come back in a list. -/
def ReadsBack (codecs : Codecs) (format : SerializationFormat) : Item → Prop
  | .value (.list items) => tagged items = false
  | .value (.bytes content) => ∀ loaded,
      codecs.loads format (.binary (content.map UInt8.ofNat)) = .ok loaded →
        loaded = .bytes content
  | .value _ => True
  | .jsx obj => obj.ReadsBack
  | .jsdict _ => True

/-- The same kind of item with an equal value. -/
def Same : Item → Item → Prop
  | .value back, .value sent => back = sent
  | .jsx back, .jsx obj => back.Same obj
  | .jsdict back, .jsdict data => back = data
  | _, _ => False

/-- The items of a message: values that the format knows, objects of a
registered schema, and JSX dicts.  The schema parser takes no property called
`id`. -/
def Supported (schemas : SchemaFactory) (format : SerializationFormat) : Item → Prop
  | .value sent => sent ≠ .none ∧ format.knows sent = true
  | .jsx obj =>
      schemas.getFromMd5 obj.schema.md5 = .ok obj.schema ∧
        obj.schema.property? "id" = none
  | .jsdict data => format.knows data = true

end Item

namespace EncryptorTools

variable {tools : EncryptorTools} {format : SerializationFormat}

theorem serializeItem_value {value : PyVal} (some : value ≠ .none)
    (known : format.knows value = true) : tools.serializeItem (.value value) = .ok value := by
  cases value with
  | none => exact absurd rfl some
  | numeric data => simp [SerializationFormat.knows] at known
  | enum values data => simp [SerializationFormat.knows] at known
  | jsx md5 props => simp [SerializationFormat.knows] at known
  | bool value => rfl
  | int value => rfl
  | float value => rfl
  | str value => rfl
  | bytes value => rfl
  | list items => rfl
  | dict fields => rfl

theorem unserializeItem_list {items : List PyVal} (plain : Item.tagged items = false) :
    tools.unserializeItem format (.list items) = .ok (.value (.list items)) := by
  match items with
  | [] => rfl
  | [item] => rfl
  | [tag, data] =>
      rw [Item.tagged] at plain
      simp [unserializeItem, plain]
  | [tag, md5, text] =>
      rw [Item.tagged] at plain
      simp [unserializeItem, plain]
  | first :: second :: third :: fourth :: rest => rfl

theorem unserializeItem_tagged {items : List PyVal} (form : Item.tagged items = true)
    {back : Item} (read : tools.unserializeItem format (.list items) = .ok back)
    (value : PyVal) : back ≠ .value value := by
  match items with
  | [] => cases form
  | [item] => cases form
  | [tag, data] =>
      rw [Item.tagged] at form
      simp only [unserializeItem, form, if_true] at read
      cases read
      exact nofun
  | [tag, md5, text] =>
      rw [Item.tagged] at form
      simp only [unserializeItem, form, if_true] at read
      cases object : tools.readObject md5 text with
      | error problem => simp [object, Functor.map, Except.map] at read
      | ok obj =>
          simp only [object, Functor.map, Except.map, Except.ok.injEq] at read
          subst read
          exact nofun
  | first :: second :: third :: fourth :: rest => cases form

/-- A plain value comes back as it is, under the condition on lists and byte
strings. -/
theorem value_returns_iff {value : PyVal} :
    (∃ back, tools.unserializeItem format value = .ok back ∧
      Item.Same back (.value value)) ↔
    Item.ReadsBack tools.codecs format (.value value) := by
  cases value with
  | list items =>
      cases form : Item.tagged items with
      | false => simp [unserializeItem_list form, Item.Same, Item.ReadsBack, form]
      | true =>
          simp only [Item.ReadsBack, form, Bool.true_eq_false, iff_false]
          rintro ⟨back, read, same⟩
          cases back with
          | value other => exact unserializeItem_tagged form read other rfl
          | jsx obj => exact same
          | jsdict data => exact same
  | bytes content =>
      cases loads : tools.codecs.loads format (.binary (content.map UInt8.ofNat)) with
      | ok other => simp [unserializeItem, loads, Item.Same, Item.ReadsBack]
      | error problem => simp [unserializeItem, loads, Item.Same, Item.ReadsBack]
  | none => simp [unserializeItem, Item.Same, Item.ReadsBack]
  | bool value => simp [unserializeItem, Item.Same, Item.ReadsBack]
  | int value => simp [unserializeItem, Item.Same, Item.ReadsBack]
  | float value => simp [unserializeItem, Item.Same, Item.ReadsBack]
  | str value => simp [unserializeItem, Item.Same, Item.ReadsBack]
  | dict fields => simp [unserializeItem, Item.Same, Item.ReadsBack]
  | numeric data => simp [unserializeItem, Item.Same, Item.ReadsBack]
  | enum values data => simp [unserializeItem, Item.Same, Item.ReadsBack]
  | jsx md5 props => simp [unserializeItem, Item.Same, Item.ReadsBack]

/-- An item of a list comes back exactly under its condition. -/
theorem item_returns_iff {item : Item} (supported : item.Supported tools.schemas format)
    (lossless : ∀ obj, item = .jsx obj → ∀ fields native, obj.ddict = .ok fields →
      BytesEncoder.default (.dict fields) = .ok native → tools.codecs.Keeps .json native) :
    (∃ native back, tools.serializeItem item = .ok native ∧
      tools.unserializeItem format native = .ok back ∧ back.Same item) ↔
    item.ReadsBack tools.codecs format := by
  cases item with
  | value value =>
      rw [← value_returns_iff]
      simp [serializeItem_value supported.1 supported.2]
  | jsdict data =>
      have tag : PyVal.pyEq (.int 998) (.int 998) = true := by decide
      simp [serializeItem, unserializeItem, tag, Item.Same, Item.ReadsBack]
  | jsx obj =>
      have tag : PyVal.pyEq (.int 999) (.int 999) = true := by decide
      rw [Item.ReadsBack, ← object_returns_iff supported.1 supported.2 (lossless obj rfl)]
      simp only [serializeItem, bind_eq_ok_iff, pure_eq_ok_iff]
      constructor
      · rintro ⟨_, back, ⟨text, written, rfl⟩, read, same⟩
        simp only [unserializeItem, tag, if_true] at read
        cases object : tools.readObject (.str obj.schema.md5) (.str text) with
        | error problem => simp [object, Functor.map, Except.map] at read
        | ok other =>
            simp only [object, Functor.map, Except.map, Except.ok.injEq] at read
            subst read
            exact ⟨text, other, written, object, same⟩
      · rintro ⟨text, back, written, object, same⟩
        refine ⟨_, .jsx back, ⟨text, written, rfl⟩, ?_, same⟩
        simp [unserializeItem, tag, object, Functor.map, Except.map]

theorem known_of_serializeItem {item : Item} {native : PyVal}
    (supported : item.Supported tools.schemas format)
    (written : tools.serializeItem item = .ok native) : format.knows native = true := by
  cases item with
  | value value =>
      rw [serializeItem_value supported.1 supported.2] at written
      cases written
      exact supported.2
  | jsdict data =>
      cases written
      simpa [SerializationFormat.knows, SerializationFormat.knowsItems, Item.Supported]
        using supported
  | jsx obj =>
      simp only [serializeItem, bind_eq_ok_iff, pure_eq_ok_iff] at written
      obtain ⟨text, _, rfl⟩ := written
      simp [SerializationFormat.knows, SerializationFormat.knowsItems]

end EncryptorTools

/-! ## Messages -/

namespace MessageData

/-- The objects among the items. -/
def objects : MessageData → List JSXObject
  | .list items => items.filterMap (fun item =>
      match item with
      | .jsx obj => some obj
      | _ => none)
  | .single _ => []

/-- A list of supported items, or one that is no list. -/
def Supported (schemas : SchemaFactory) (format : SerializationFormat) :
    MessageData → Prop
  | .list items => ∀ item ∈ items, item.Supported schemas format
  | .single item =>
      item.Supported schemas format ∧ ∀ values, item ≠ .value (.list values)

/-- What the message has to meet to come back: each item of a list its own
condition, and a single item is neither an object nor a JSX dict. -/
def ReadsBack (codecs : Codecs) (format : SerializationFormat) : MessageData → Prop
  | .list items => ∀ item ∈ items, item.ReadsBack codecs format
  | .single (.value sent) => Item.ReadsBack codecs format (.value sent)
  | .single _ => False

/-- Equal item by item, or equal single items. -/
def Same : MessageData → MessageData → Prop
  | .list backs, .list items => List.Forall₂ Item.Same backs items
  | .single back, .single item => back.Same item
  | _, _ => False

end MessageData

namespace EncryptorTools

/-- The encoders lose nothing of the values that the message hands to them. -/
structure Lossless (tools : EncryptorTools) (format : SerializationFormat)
    (message : MessageData) : Prop where
  whole : ∀ native, tools.nativeMessage format message = .ok native →
    tools.codecs.Keeps format native
  objects : ∀ obj ∈ message.objects, ∀ fields native, obj.ddict = .ok fields →
    BytesEncoder.default (.dict fields) = .ok native → tools.codecs.Keeps .json native

/-- The message is written, and read back as it was. -/
def RoundTrips (tools : EncryptorTools) (format : SerializationFormat)
    (message : MessageData) : Prop :=
  ∃ dumped back, tools.serialize format message = .ok dumped ∧
    tools.unserialize format dumped = .ok back ∧ back.Same message

variable {tools : EncryptorTools} {format : SerializationFormat}

theorem knowsItems_of_serialized {items : List Item} {natives : List PyVal}
    (supported : ∀ item ∈ items, item.Supported tools.schemas format)
    (written : List.Forall₂ (fun item native => tools.serializeItem item = .ok native)
      items natives) : format.knowsItems natives = true := by
  induction written with
  | nil => rfl
  | cons first _ induction =>
      rw [SerializationFormat.knowsItems, Bool.and_eq_true]
      refine ⟨known_of_serializeItem (supported _ List.mem_cons_self) first, ?_⟩
      apply induction
      intro item member
      exact supported item (List.mem_cons_of_mem _ member)

/-- The items of a list come back together exactly when each of them does. -/
theorem items_return_iff {items : List Item} :
    (∃ natives backs,
      List.Forall₂ (fun item native => tools.serializeItem item = .ok native) items natives ∧
      List.Forall₂ (fun native back => tools.unserializeItem format native = .ok back)
        natives backs ∧
      List.Forall₂ Item.Same backs items) ↔
    ∀ item ∈ items, ∃ native back, tools.serializeItem item = .ok native ∧
      tools.unserializeItem format native = .ok back ∧ back.Same item := by
  induction items with
  | nil =>
      constructor
      · intro _ item member
        cases member
      · intro _
        exact ⟨[], [], .nil, .nil, .nil⟩
  | cons item rest induction =>
      rw [List.forall_mem_cons, ← induction]
      constructor
      · rintro ⟨_, _, written, read, same⟩
        cases written with
        | cons writes written =>
            cases read with
            | cons reads read =>
                cases same with
                | cons equal same =>
                    exact ⟨⟨_, _, writes, reads, equal⟩, _, _, written, read, same⟩
      · rintro ⟨⟨native, back, writes, reads, equal⟩, natives, backs, written, read, same⟩
        exact ⟨native :: natives, back :: backs, .cons writes written, .cons reads read,
          .cons equal same⟩

/-- What is handed to the encoder comes out of the decoder. -/
theorem serialize_loads {message : MessageData} {native : PyVal} {dumped : Dumped}
    (known : format.knows native = true) (keeps : tools.codecs.Keeps format native)
    (handed : tools.nativeMessage format message = .ok native)
    (written : tools.serialize format message = .ok dumped) :
    tools.codecs.loads format dumped = .ok native := by
  obtain ⟨other, dumps, loads⟩ := Codecs.dumps_of_keeps known keeps
  simp only [serialize, handed, bind, Except.bind] at written
  have same : other = dumped := Except.ok.inj (dumps.symm.trans written)
  rw [← same]
  exact loads

theorem nativeMessage_list_iff {items : List Item} {native : PyVal} :
    tools.nativeMessage format (.list items) = .ok native ↔
      ∃ natives, List.Forall₂ (fun item native => tools.serializeItem item = .ok native)
        items natives ∧ native = .list natives := by
  rw [nativeMessage]
  cases written : items.mapM tools.serializeItem with
  | error problem =>
      simp only [Functor.map, Except.map, reduceCtorEq, false_iff]
      rintro ⟨natives, every, _⟩
      rw [← mapM_ok_iff, written] at every
      cases every
  | ok natives =>
      simp only [Functor.map, Except.map, Except.ok.injEq]
      constructor
      · intro same
        exact ⟨natives, mapM_ok_iff.mp written, same.symm⟩
      · rintro ⟨others, every, rfl⟩
        rw [← mapM_ok_iff, written] at every
        rw [Except.ok.inj every]

theorem list_returns_iff {items : List Item}
    (supported : ∀ item ∈ items, item.Supported tools.schemas format)
    (lossless : tools.Lossless format (.list items)) :
    tools.RoundTrips format (.list items) ↔
      ∀ item ∈ items, item.ReadsBack tools.codecs format := by
  have each : (∀ item ∈ items, item.ReadsBack tools.codecs format) ↔
      ∀ item ∈ items, ∃ native back, tools.serializeItem item = .ok native ∧
        tools.unserializeItem format native = .ok back ∧ back.Same item := by
    refine forall₂_congr (fun item member => ?_)
    refine (item_returns_iff (supported item member) ?_).symm
    intro obj same
    apply lossless.objects
    exact List.mem_filterMap.mpr ⟨item, member, by rw [same]⟩
  rw [each, ← items_return_iff]
  constructor
  · rintro ⟨dumped, back, written, read, same⟩
    have serialized := written
    rw [serialize, bind_eq_ok_iff] at serialized
    obtain ⟨native, handed, _⟩ := serialized
    obtain ⟨natives, each, rfl⟩ := nativeMessage_list_iff.mp handed
    have known : format.knows (.list natives) = true :=
      knowsItems_of_serialized supported each
    have loads := serialize_loads known
      (lossless.whole _ handed) handed written
    simp only [unserialize, loads, bind, Except.bind] at read
    cases backs : natives.mapM (tools.unserializeItem format) with
    | error problem => simp [backs, Functor.map, Except.map] at read
    | ok backs' =>
        simp only [backs, Functor.map, Except.map, Except.ok.injEq] at read
        subst read
        exact ⟨natives, backs', each, mapM_ok_iff.mp backs, same⟩
  · rintro ⟨natives, backs, each, reads, same⟩
    have handed : tools.nativeMessage format (.list items) = .ok (.list natives) :=
      nativeMessage_list_iff.mpr ⟨natives, each, rfl⟩
    have known : format.knows (.list natives) = true :=
      knowsItems_of_serialized supported each
    obtain ⟨dumped, dumps, loads⟩ := Codecs.dumps_of_keeps known (lossless.whole _ handed)
    refine ⟨dumped, .list backs, ?_, ?_, same⟩
    · simp only [serialize, handed, bind, Except.bind]
      exact dumps
    · simp only [unserialize, loads, bind, Except.bind, mapM_ok_iff.mpr reads, Functor.map,
        Except.map]

/-- A value that is no list is read as a plain value. -/
theorem unserializeItem_value {native : PyVal} (single : ∀ values, native ≠ .list values) :
    ∃ other, tools.unserializeItem format native = .ok (.value other) := by
  cases native with
  | list items => exact absurd rfl (single items)
  | bytes content =>
      rw [unserializeItem]
      split
      · exact ⟨_, rfl⟩
      · exact ⟨_, rfl⟩
  | none => exact ⟨_, rfl⟩
  | bool value => exact ⟨_, rfl⟩
  | int value => exact ⟨_, rfl⟩
  | float value => exact ⟨_, rfl⟩
  | str value => exact ⟨_, rfl⟩
  | dict fields => exact ⟨_, rfl⟩
  | numeric data => exact ⟨_, rfl⟩
  | enum values data => exact ⟨_, rfl⟩
  | jsx md5 props => exact ⟨_, rfl⟩

theorem unserialize_single {native : PyVal} {dumped : Dumped}
    (single : ∀ values, native ≠ .list values)
    (loads : tools.codecs.loads format dumped = .ok native) :
    tools.unserialize format dumped =
      MessageData.single <$> tools.unserializeItem format native := by
  simp only [unserialize, loads, bind, Except.bind]

theorem nativeMessage_single {item : Item} (single : ∀ values, item ≠ .value (.list values)) :
    tools.nativeMessage format (.single item) = nativeItem format item := by
  rw [nativeMessage]
  exact single

/-- A plain value on its own comes back under the condition that it meets as an
item. -/
theorem single_returns_iff {sent : PyVal}
    (known : format.knows sent = true) (single : ∀ values, sent ≠ .list values)
    (lossless : tools.Lossless format (.single (.value sent))) :
    tools.RoundTrips format (.single (.value sent)) ↔
      Item.ReadsBack tools.codecs format (.value sent) := by
  have handed : tools.nativeMessage format (.single (.value sent)) = .ok sent :=
    nativeMessage_single (fun values same => single values (Item.value.inj same))
  rw [← value_returns_iff]
  constructor
  · rintro ⟨dumped, back, written, read, same⟩
    have loads := serialize_loads known (lossless.whole _ handed) handed written
    rw [unserialize_single single loads] at read
    cases item : tools.unserializeItem format sent with
    | error problem => simp [item, Functor.map, Except.map] at read
    | ok other =>
        simp only [item, Functor.map, Except.map, Except.ok.injEq] at read
        subst read
        exact ⟨other, rfl, same⟩
  · rintro ⟨back, read, same⟩
    obtain ⟨dumped, dumps, loads⟩ := Codecs.dumps_of_keeps known (lossless.whole _ handed)
    refine ⟨dumped, .single back, ?_, ?_, same⟩
    · simp only [serialize, handed, bind, Except.bind]
      exact dumps
    · rw [unserialize_single single loads, read]
      rfl

/-- An object on its own is not written at all. -/
theorem single_object_fails (obj : JSXObject) :
    ¬ tools.RoundTrips format (.single (.jsx obj)) := by
  rintro ⟨dumped, back, written, _⟩
  simp [serialize, nativeMessage, nativeItem, bind, Except.bind] at written

/-- A JSX dict on its own is not written, or read as a plain value. -/
theorem single_jsdict_fails {data : PyVal}
    (known : format.knows data = true)
    (lossless : tools.Lossless format (.single (.jsdict data))) :
    ¬ tools.RoundTrips format (.single (.jsdict data)) := by
  rintro ⟨dumped, back, written, read, same⟩
  cases format with
  | msgpack => simp [serialize, nativeMessage, nativeItem, bind, Except.bind] at written
  | json =>
      have handed : tools.nativeMessage .json (.single (.jsdict data)) = .ok data := rfl
      have loads := serialize_loads known (lossless.whole _ handed) handed written
      by_cases several : ∃ values, data = .list values
      · obtain ⟨values, rfl⟩ := several
        simp only [unserialize, loads, bind, Except.bind] at read
        cases backs : values.mapM (tools.unserializeItem .json) with
        | error problem => simp [backs, Functor.map, Except.map] at read
        | ok backs' =>
            simp only [backs, Functor.map, Except.map, Except.ok.injEq] at read
            subst read
            exact same
      · have single : ∀ values, data ≠ .list values := by
          intro values equal
          exact several ⟨values, equal⟩
        obtain ⟨other, item⟩ : ∃ other,
            tools.unserializeItem .json data = .ok (.value other) :=
          unserializeItem_value single
        rw [unserialize_single single loads, item] at read
        cases read
        exact same

theorem message_returns_iff {message : MessageData}
    (supported : message.Supported tools.schemas format)
    (lossless : tools.Lossless format message) :
    tools.RoundTrips format message ↔ message.ReadsBack tools.codecs format := by
  cases message with
  | list items => exact list_returns_iff supported lossless
  | single item =>
      cases item with
      | value sent =>
          apply single_returns_iff supported.1.2 _ lossless
          intro values same
          exact supported.2 values (by rw [same])
      | jsx obj => exact iff_of_false (single_object_fails obj) id
      | jsdict data => exact iff_of_false (single_jsdict_fails supported.1 lossless) id

/-- A message comes back as it was sent exactly when it meets the condition. -/
theorem round_trip_iff (tools : EncryptorTools) (format : SerializationFormat)
    (message : MessageData) (supported : message.Supported tools.schemas format)
    (lossless : tools.Lossless format message) :
    tools.RoundTrips format message ↔ message.ReadsBack tools.codecs format :=
  message_returns_iff supported lossless

/-! ## Two messages -/

/-- Tools whose json knows the texts of the given values. -/
def knowing (schemas : SchemaFactory) (texts : List (PyVal × String)) : EncryptorTools where
  codecs :=
    { jsonDumps := fun value =>
        match texts.find? (fun entry => entry.1 = value) with
        | some entry => .ok entry.2
        | none => .error (.typeError "not JSON serializable")
      jsonLoads := fun text =>
        match texts.find? (fun entry => entry.2 = text) with
        | some entry => .ok entry.1
        | none => .error (.valueError "Expecting value")
      packb := fun _ => .error (.typeError "can not serialize object")
      unpackb := fun _ => .error (.valueError "Unpack failed: incomplete input") }
  schemas := schemas

section

variable {schemas : SchemaFactory} {texts : List (PyVal × String)} {value : PyVal}
  {text : String}

theorem knowing_dumps (member : (value, text) ∈ texts)
    (values : (texts.map Prod.fst).Nodup) :
    (knowing schemas texts).codecs.jsonDumps value = .ok text := by
  have byValue : texts.find? (fun entry => entry.1 = value) = some (value, text) := by
    cases found : texts.find? (fun entry => entry.1 = value) with
    | none => simpa using List.find?_eq_none.mp found _ member
    | some entry =>
        have same : entry.1 = value := by simpa using List.find?_some found
        have entryMember := List.mem_of_find?_eq_some found
        exact congrArg some (List.inj_on_of_nodup_map values entryMember member same)
  simp only [knowing, byValue]

theorem knowing_loads (member : (value, text) ∈ texts)
    (distinct : (texts.map Prod.snd).Nodup) :
    (knowing schemas texts).codecs.jsonLoads text = .ok value := by
  have byText : texts.find? (fun entry => entry.2 = text) = some (value, text) := by
    cases found : texts.find? (fun entry => entry.2 = text) with
    | none => simpa using List.find?_eq_none.mp found _ member
    | some entry =>
        have same : entry.2 = text := by simpa using List.find?_some found
        have entryMember := List.mem_of_find?_eq_some found
        exact congrArg some (List.inj_on_of_nodup_map distinct entryMember member same)
  simp only [knowing, byText]

/-- The values of a table without repetitions are kept. -/
theorem knowing_keeps (member : (value, text) ∈ texts)
    (values : (texts.map Prod.fst).Nodup) (distinct : (texts.map Prod.snd).Nodup) :
    (knowing schemas texts).codecs.Keeps .json value :=
  ⟨text, knowing_dumps member values, knowing_loads member distinct⟩

end

/-- An object of the schema with one name. -/
def rex : JSXObject where
  schema := nameSchema "a" "m"
  model := none
  capnpObj := .empty
  deserializedItems := Function.update (fun _ => none) "name" (some (.str "rex"))
  changed := true
  id := none
  nid := 1
  aclId := some 0

def rexDict : PyVal := .dict [("name", .str "rex")]

def rexJson : String := "\x7b\"name\": \"rex\"\x7d"

def oneAndRex : PyVal := .list [.int 1, .list [.int 999, .str "m", .str rexJson]]

def oneAndRexJson : String :=
  "[1, [999, \"m\", \"\x7b\\\"name\\\": \\\"rex\\\"\x7d\"]]"

def rexTexts : List (PyVal × String) := [(rexDict, rexJson), (oneAndRex, oneAndRexJson)]

def rexTools : EncryptorTools :=
  knowing (.ofList [nameSchema "a" "m"] (by decide)) rexTexts

theorem rexTexts_values : (rexTexts.map Prod.fst).Nodup := by
  simp [rexTexts, rexDict, oneAndRex]

theorem rexTexts_distinct : (rexTexts.map Prod.snd).Nodup := by
  simp [rexTexts, rexJson, oneAndRexJson]

theorem rex_ddict : rex.ddict = .ok [("name", .str "rex")] := rfl

theorem rex_native : BytesEncoder.default (.dict [("name", .str "rex")]) = .ok rexDict := rfl

theorem rex_json : rex.json rexTools.codecs = .ok rexJson :=
  JSXObject.json_eq_ok_iff.mpr ⟨rexDict, ⟨_, rex_ddict, rex_native⟩,
    knowing_dumps List.mem_cons_self rexTexts_values⟩

theorem rex_serialized :
    rexTools.serializeItem (.jsx rex) = .ok (.list [.int 999, .str "m", .str rexJson]) := by
  rw [serializeItem, rex_json]
  rfl

theorem rex_written :
    rexTools.nativeMessage .json (.list [.value (.int 1), .jsx rex]) = .ok oneAndRex :=
  nativeMessage_list_iff.mpr ⟨_, .cons rfl (.cons rex_serialized .nil), rfl⟩

theorem rex_lossless :
    rexTools.Lossless .json (.list [.value (.int 1), .jsx rex]) := by
  constructor
  case whole =>
    intro native handed
    have same : oneAndRex = native := Except.ok.inj (rex_written.symm.trans handed)
    rw [← same]
    exact knowing_keeps (List.mem_cons_of_mem _ List.mem_cons_self) rexTexts_values
      rexTexts_distinct
  case objects =>
    intro obj member fields native dict encoded
    have named : obj = rex := List.mem_singleton.mp member
    rw [named] at dict
    have fieldsOf : _ = fields := Except.ok.inj (rex_ddict.symm.trans dict)
    rw [← fieldsOf] at encoded
    have nativeOf : rexDict = native := Except.ok.inj (rex_native.symm.trans encoded)
    rw [← nativeOf]
    exact knowing_keeps List.mem_cons_self rexTexts_values rexTexts_distinct

theorem rex_readsBack : rex.ReadsBack := by
  intro prop member
  rw [List.mem_singleton.mp member]
  exact ⟨.str "rex", .str "rex", rfl, rfl, by decide⟩

/-- A number and an object. -/
theorem round_trip_iff_rex :
    rexTools.RoundTrips .json (.list [.value (.int 1), .jsx rex]) := by
  apply (round_trip_iff _ _ _ ?_ rex_lossless).mpr
  · intro item member
    rcases List.mem_pair.mp member with rfl | rfl
    · trivial
    · exact rex_readsBack
  · intro item member
    rcases List.mem_pair.mp member with rfl | rfl
    · exact ⟨nofun, rfl⟩
    · exact ⟨rfl, rfl⟩

def pair998 : PyVal := .list [.int 998, .int 1]

theorem distinct_nil : (([] : List Schema).map Schema.md5).Nodup :=
  List.nodup_nil

def pairTools : EncryptorTools :=
  knowing (.ofList [] distinct_nil) [(.list [pair998], "[[998, 1]]")]

/-- The one message that a table of one text knows. -/
theorem single_lossless {schemas : SchemaFactory} {sent : PyVal} {text : String}
    (some : sent ≠ .none) (known : SerializationFormat.json.knows sent = true) :
    (knowing schemas [(.list [sent], text)]).Lossless .json (.list [.value sent]) := by
  constructor
  case whole =>
    intro native handed
    obtain ⟨natives, each, rfl⟩ := nativeMessage_list_iff.mp handed
    cases each with
    | cons written rest =>
        cases rest
        rw [serializeItem_value some known] at written
        cases written
        exact knowing_keeps List.mem_cons_self (by simp) (by simp)
  case objects =>
    intro obj member
    cases member

/-- A plain list that starts with 998 comes back as a JSX dict. -/
theorem tagged_list_misread :
    ¬ ∀ (tools : EncryptorTools) (format : SerializationFormat) (message : MessageData),
      message.Supported tools.schemas format → tools.Lossless format message →
        tools.RoundTrips format message := by
  intro claim
  have supported :
      MessageData.Supported pairTools.schemas .json (.list [.value pair998]) := by
    intro item member
    rw [List.mem_singleton.mp member]
    exact ⟨nofun, rfl⟩
  have lossless : pairTools.Lossless .json (.list [.value pair998]) :=
    single_lossless nofun rfl
  have returns := claim pairTools .json (.list [.value pair998]) supported lossless
  have plain : Item.tagged [.int 998, .int 1] = false :=
    (list_returns_iff supported lossless).mp returns _ (List.mem_singleton.mpr rfl)
  exact absurd plain (by decide)

end EncryptorTools

end JumpscaleX
