import JumpscaleX.AgreementRuns

/-!
# Objects under a newer schema

The newest version of a url reads the message of an older one field by field,
by number.  What both versions declare reads as it was stored.  What only the
newer one declares reads as its default when the type reads it out of an empty
field, and out of all that an older property of the same number has written.
-/

namespace JumpscaleX

open Fallible

namespace SchemaProperty

/-- The property writes this into a message. -/
def Writes (prop : SchemaProperty) (data : PyVal) : Prop :=
  ∃ value, prop.jumpscaletype.toData value = .ok data

end SchemaProperty

namespace Schema

/-- A message that the properties of the schema have written. -/
def Wrote (schema : Schema) (message : Message) : Prop :=
  ∀ nr data, message.lookup nr = some data →
    ∃ prop ∈ schema.properties, prop.nr = nr ∧ prop.Writes data

/-- What two versions both declare has one number and one type in them. -/
def Agrees (older newest : Schema) : Prop :=
  ∀ prop ∈ older.properties, ∀ later ∈ newest.properties, prop.name = later.name →
    prop.nr = later.nr ∧ prop.jumpscaletype = later.jumpscaletype

/-- The property is new in the second version. -/
def Lacks (older : Schema) (prop : SchemaProperty) : Prop :=
  ∀ other ∈ older.properties, other.name ≠ prop.name

/-- What only the newer version declares reads its default out of an empty
field and out of what an older property of the same number has written. -/
def Extends (older newest : Schema) : Prop :=
  ∀ prop ∈ newest.properties, older.Lacks prop →
    prop.jumpscaletype.clean prop.jumpscaletype.capnpZero =
        .ok prop.jumpscaletype.defaultGet ∧
      ∀ replaced ∈ older.properties, replaced.nr = prop.nr → ∀ data, replaced.Writes data →
        prop.jumpscaletype.clean data = .ok prop.jumpscaletype.defaultGet

/-- The object loaded under the newer version has the stored values, and
defaults for what the older one did not declare. -/
def KeepsData (older newest : Schema) (bdata : BData) (obj : JSXObject) : Prop :=
  obj.schema = newest ∧
  (∀ prop ∈ older.properties, ∀ later ∈ newest.properties, prop.name = later.name →
    obj.getattr later.name = (bdata.toObj older obj.model).getattr prop.name) ∧
  ∀ prop ∈ newest.properties, older.Lacks prop →
    obj.getattr prop.name = .ok prop.jumpscaletype.defaultGet

end Schema

/-! ### Written messages -/

/-- A written item is data of its property. -/
theorem writeField_wrote {schema : Schema} {items : String → Option PyVal}
    {prop : SchemaProperty} {message written : Message} (member : prop ∈ schema.properties)
    (wrote : schema.Wrote message) (done : writeField items message prop = .ok written) :
    schema.Wrote written := by
  unfold writeField at done
  split at done
  · cases done
    exact wrote
  · rename_i value _
    obtain ⟨data, encoded, same⟩ := bind_eq_ok_iff.mp done
    cases same
    intro nr found stored
    by_cases same : nr = prop.nr
    · rw [same, OrderedMap.lookup_insert_self] at stored
      cases stored
      exact ⟨prop, member, same.symm, value, encoded⟩
    · rw [OrderedMap.lookup_insert_of_ne _ same] at stored
      exact wrote nr found stored

theorem writeFields_wrote {schema : Schema} {items : String → Option PyVal}
    {props : List SchemaProperty} {message written : Message}
    (members : ∀ prop ∈ props, prop ∈ schema.properties) (wrote : schema.Wrote message)
    (done : props.foldlM (writeField items) message = .ok written) :
    schema.Wrote written := by
  induction props generalizing message with
  | nil =>
      cases done
      exact wrote
  | cons prop props induction =>
      rw [List.foldlM_cons, bind_eq_ok_iff] at done
      obtain ⟨between, first, rest⟩ := done
      obtain ⟨member, members⟩ := List.forall_mem_cons.mp members
      exact induction members (writeField_wrote member wrote first) rest

/-- Saving keeps a message written by the schema. -/
theorem JSXObject.dumps_wrote {obj : JSXObject} {bdata : BData}
    (wrote : obj.schema.Wrote obj.capnpObj) (done : obj.dumps = .ok bdata) :
    obj.schema.Wrote bdata.message ∧ bdata.md5 = obj.schema.md5 := by
  obtain ⟨message, encoded, rest⟩ := bind_eq_ok_iff.mp done
  obtain ⟨_, _, same⟩ := bind_eq_ok_iff.mp rest
  cases same
  refine ⟨?_, rfl⟩
  unfold JSXObject.toCapnp at encoded
  split at encoded
  · exact writeFields_wrote (fun _ member => member) wrote encoded
  · cases encoded
    exact wrote

/-- Writing the one item of a property that there is. -/
theorem writeFields_single {items : String → Option PyVal} {props : List SchemaProperty}
    {prop : SchemaProperty} {value data : PyVal} {message : Message}
    (distinct : (props.map SchemaProperty.name).Nodup) (member : prop ∈ props)
    (only : ∀ name, items name = if name = prop.name then some value else none)
    (encoded : prop.jumpscaletype.toData value = .ok data) :
    props.foldlM (writeField items) message = .ok (message.insert prop.nr data) := by
  have skips {rest : List SchemaProperty} {message : Message}
      (others : ∀ other ∈ rest, other.name ≠ prop.name) :
      rest.foldlM (writeField items) message = .ok message := by
    induction rest with
    | nil => rfl
    | cons other rest induction =>
        obtain ⟨different, others⟩ := List.forall_mem_cons.mp others
        rw [List.foldlM_cons, writeField, only, if_neg different]
        exact induction others
  induction props with
  | nil => cases member
  | cons head rest induction =>
      obtain ⟨fresh, distinct⟩ := List.nodup_cons.mp distinct
      rw [List.foldlM_cons, writeField, only]
      rcases List.mem_cons.mp member with rfl | later
      · rw [if_pos rfl]
        simp only [encoded, bind, Except.bind, pure, Except.pure]
        apply skips
        intro other others same
        exact fresh (same ▸ List.mem_map_of_mem others)
      · rw [if_neg]
        · exact induction distinct later
        · intro same
          exact fresh (same ▸ List.mem_map_of_mem later)

/-! ### Reading under the newer version -/

section

variable {bdata : BData} {schema : Schema} (model : Option Url)

theorem toObj_getattr {prop : SchemaProperty} (member : prop ∈ schema.properties) :
    (bdata.toObj schema model).getattr prop.name = readField prop bdata.message := by
  have found : (bdata.toObj schema model).schema.property? prop.name = some prop :=
    Schema.property?_of_mem member
  rw [JSXObject.getattr, found]
  rfl

end

theorem SchemaFactory.loads_newest {factory : SchemaFactory} {older newest : Schema}
    {bdata : BData} (model : Option Url) (known : factory.schemasMd5 bdata.md5 = some older)
    (loaded : factory.schemasLoaded older.url = some newest) :
    factory.loads bdata model = .ok (bdata.toObj newest model) := by
  simp [SchemaFactory.loads, SchemaFactory.getFromMd5, SchemaFactory.getFromUrl, known, loaded,
    bind, Except.bind, pure, Except.pure]

/-- An object that holds one value and was saved never before. -/
def Schema.holding (schema : Schema) (prop : SchemaProperty) (value : PyVal) : JSXObject :=
  { schema.fromCapnp .empty none with
    deserializedItems := fun name => if name = prop.name then some value else none
    changed := true }

theorem Schema.holding_dumps {schema : Schema} {prop : SchemaProperty} {value data : PyVal}
    (member : prop ∈ schema.properties)
    (encoded : prop.jumpscaletype.toData value = .ok data) :
    (schema.holding prop value).dumps =
      .ok { objId := 0, md5 := schema.md5, message := OrderedMap.empty.insert prop.nr data } := by
  have message : (schema.holding prop value).toCapnp =
      .ok (OrderedMap.empty.insert prop.nr data) := by
    rw [JSXObject.toCapnp]
    exact writeFields_single schema.namesDistinct member (fun _ => rfl) encoded
  rw [JSXObject.dumps, message]
  rfl

/-- Every object of the older version keeps its data under the newest one
exactly when the newest one extends it. -/
theorem keepsData_iff_extends {factory : SchemaFactory} {older newest : Schema}
    (model : Option Url) (known : factory.schemasMd5 older.md5 = some older)
    (loaded : factory.schemasLoaded older.url = some newest)
    (agrees : older.Agrees newest) :
    (∀ (obj : JSXObject) bdata, obj.schema = older → older.Wrote obj.capnpObj →
      obj.dumps = .ok bdata →
        ∃ later, factory.loads bdata model = .ok later ∧
          older.KeepsData newest bdata later) ↔
      older.Extends newest := by
  constructor
  · intro keeps prop member lacks
    have reads {message : Message} {obj : JSXObject} {bdata : BData} (isOlder : obj.schema = older)
        (wrote : older.Wrote obj.capnpObj) (done : obj.dumps = .ok bdata)
        (same : bdata.message = message) (md5 : bdata.md5 = older.md5) :
        readField prop message = .ok prop.jumpscaletype.defaultGet := by
      obtain ⟨later, loads, _, _, defaults⟩ := keeps obj bdata isOlder wrote done
      rw [SchemaFactory.loads_newest model (md5 ▸ known) loaded] at loads
      cases loads
      rw [← same, ← toObj_getattr model member]
      exact defaults prop member lacks
    have empty : older.Wrote (OrderedMap.empty : Message) := by
      intro nr data found
      rw [OrderedMap.lookup_empty] at found
      cases found
    constructor
    · have saved : ({ older.fromCapnp .empty none with changed := false } : JSXObject).dumps =
          .ok { objId := 0, md5 := older.md5, message := .empty } := rfl
      have read := reads rfl empty saved rfl rfl
      rw [readField, OrderedMap.lookup_empty] at read
      exact read
    · rintro replaced present sameNr data ⟨value, encoded⟩
      have read := reads (rfl : (older.holding replaced value).schema = older) empty
        (older.holding_dumps present encoded) rfl rfl
      rw [readField, ← sameNr, OrderedMap.lookup_insert_self] at read
      exact read
  · intro extend obj bdata isOlder wrote done
    subst isOlder
    obtain ⟨wroteSaved, md5⟩ := obj.dumps_wrote wrote done
    refine ⟨bdata.toObj newest model, SchemaFactory.loads_newest model (md5 ▸ known) loaded,
      rfl, ?_, ?_⟩
    · intro prop member later laterMember same
      obtain ⟨nr, type⟩ := agrees prop member later laterMember same
      rw [toObj_getattr _ laterMember, toObj_getattr _ member, readField, readField, nr, type]
    · intro prop member lacks
      obtain ⟨zero, taken⟩ := extend prop member lacks
      rw [toObj_getattr _ member, readField]
      cases found : bdata.message.lookup prop.nr with
      | none => exact zero
      | some data =>
          obtain ⟨replaced, present, sameNr, writes⟩ := wroteSaved prop.nr data found
          exact taken replaced present sameNr data writes

/-- An object whose values survive being stored is read with them under the
newer version. -/
theorem Schema.KeepsData.value_kept {older newest : Schema} {obj later : JSXObject}
    {bdata : BData} {message : Message} (kept : older.KeepsData newest bdata later)
    (isOlder : obj.schema = older) (settled : obj.Settled)
    (done : obj.toCapnp = .ok message) (same : bdata.message = message)
    {prop common : SchemaProperty} (member : prop ∈ older.properties)
    (commonMember : common ∈ newest.properties) (named : prop.name = common.name) :
    later.getattr common.name =
      ({ obj with capnpObj := message } : JSXObject).getattr prop.name := by
  subst isOlder
  have found : obj.schema.property? prop.name = some prop := Schema.property?_of_mem member
  rw [kept.2.1 prop member common commonMember named, toObj_getattr _ member, same,
    ← settled.readProp done member, JSXObject.getattr, found]

/-! ### A property with a default is added -/

/-- The schema with a name, and a colour that is red unless it is set. -/
def colouredSchema (url : Url) (md5 : Md5) : Schema where
  url := url
  md5 := md5
  properties := (nameSchema url md5).properties ++
    [{ nr := 2
       name := "color"
       jumpscaletype := stringType "red"
       index := false
       unique := false
       sub := none }]
  namesDistinct := by simp [nameSchema]
  nameUnique := by simp [nameSchema]

/-- A url whose newest version has the colour. -/
def colourAdded : SchemaFactory :=
  .ofList [colouredSchema "test.one" "2", nameSchema "test.one" "1"]
    (by simp [colouredSchema, nameSchema])

theorem nameSchema_agrees :
    (nameSchema "test.one" "1").Agrees (colouredSchema "test.one" "2") := by
  intro prop member later laterMember same
  rw [List.mem_singleton.mp member] at same ⊢
  rcases List.mem_append.mp laterMember with laterMember | laterMember
  · rw [List.mem_singleton.mp laterMember]
    exact ⟨rfl, rfl⟩
  · rw [List.mem_singleton.mp laterMember] at same
    exact absurd same (by decide)

theorem keepsData_iff_extends_colour :
    (∀ (obj : JSXObject) bdata, obj.schema = nameSchema "test.one" "1" →
      (nameSchema "test.one" "1").Wrote obj.capnpObj → obj.dumps = .ok bdata →
        ∃ later, colourAdded.loads bdata none = .ok later ∧
          (nameSchema "test.one" "1").KeepsData (colouredSchema "test.one" "2") bdata later) ↔
      (nameSchema "test.one" "1").Extends (colouredSchema "test.one" "2") :=
  keepsData_iff_extends none rfl rfl nameSchema_agrees

/-- The colour of an object that was stored without one is empty. -/
theorem not_keepsData_colour :
    ¬ ∀ (factory : SchemaFactory) (older newest : Schema) (model : Option Url)
      (obj : JSXObject) (bdata : BData),
      factory.schemasMd5 older.md5 = some older →
      factory.schemasLoaded older.url = some newest → older.Agrees newest →
      obj.schema = older → older.Wrote obj.capnpObj → obj.dumps = .ok bdata →
        ∃ later, factory.loads bdata model = .ok later ∧
          older.KeepsData newest bdata later := by
  intro claim
  have lacks : (nameSchema "test.one" "1").Lacks
      { nr := 2, name := "color", jumpscaletype := stringType "red", index := false,
        unique := false, sub := none } := by
    intro other member same
    rw [List.mem_singleton.mp member] at same
    exact absurd same (by decide)
  have wrote : (nameSchema "test.one" "1").Wrote OrderedMap.empty := by
    intro nr data found
    rw [OrderedMap.lookup_empty] at found
    cases found
  obtain ⟨later, loads, _, _, defaults⟩ :=
    claim colourAdded (nameSchema "test.one" "1") (colouredSchema "test.one" "2") none
      { (nameSchema "test.one" "1").fromCapnp .empty none with changed := false }
      { objId := 0, md5 := "1", message := .empty } rfl rfl nameSchema_agrees rfl wrote rfl
  cases loads
  have red := defaults _ (List.mem_append_right _ (List.mem_singleton_self _)) lacks
  have empty : ((BData.toObj { objId := 0, md5 := "1", message := .empty }
      (colouredSchema "test.one" "2") none).getattr "color") = .ok (.str "") := rfl
  rw [empty] at red
  exact absurd (Except.ok.inj red) (by decide)

end JumpscaleX
