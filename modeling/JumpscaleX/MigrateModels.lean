import JumpscaleX.SetDynamic

/-!
# Migrating a model

`migrate_models` makes an object of the target model for each object of the
source model, saves it and deletes the one it was made from.  What the new
object holds and stores is worked out here property by property.
-/

namespace JumpscaleX

open Fallible Stateful

/-! ## The loop -/

/-- The value of the source object for a property of the target.  A name that
the source does not have counts as a value that is not set. -/
def migratedValue (source : Schema) (obj : JSXObject) (name : String) :
    Except Exn PyVal :=
  if (source.property? name).isSome then obj.getattr name else .ok .none

/-- What the loop over the properties does to one of the new object. -/
def migrateProp (source : Schema) (readonly : Bool) (generateXCharID : String → String)
    (obj new : JSXObject) (prop : SchemaProperty) : Except Exn JSXObject := do
  let value ← migratedValue source obj prop.name
  if value.truthy then new.setProp readonly prop value
  else if prop.index then do
    let present ← new.readProp prop
    if present.truthy then return new
    else new.setProp readonly prop (.str (generateXCharID prop.name))
  else return new

/-- The object of the target that is made for an object of the source. -/
def migratedObj (source : Schema) (toUrl : Url) (toModel : Model)
    (generateXCharID : String → String) (obj : JSXObject) : Except Exn JSXObject := do
  let new ← toModel.schema.new false none []
  toModel.schema.properties.foldlM
    (migrateProp source toModel.readonly generateXCharID obj)
    { new with model := some toUrl, nid := 1 }

/-- `model_get(url=url)`. -/
def modelGetUrl (url : Url) : BCDBM Unit :=
  advance (fun bcdb => do
    let schema ← bcdb.schemaFactory.getFromUrl url
    bcdb.modelGet schema)

/-- The body of the loop over the objects of the source. -/
def migrateObj (fromUrl toUrl : Url) (generateXCharID : Nat → String → String)
    (obj : JSXObject) : BCDBM Unit := do
  let fromModel ← query (BCDB.model fromUrl)
  let toModel ← query (BCDB.model toUrl)
  let new ← attempt (migratedObj fromModel.schema toUrl toModel
    (generateXCharID (obj.id.getD 0)) obj)
  (JSXObjectRoot.mk new .none).on BCDBModel.save
  (JSXObjectRoot.mk obj .none).on BCDBModel.objDelete

/-- `migrate_models(from_url, to_url)`.  The generator is asked for each object
and each property anew. -/
def migrateModels (fromUrl toUrl : Url) (generateXCharID : Nat → String → String) :
    BCDBM Unit := do
  modelGetUrl fromUrl
  modelGetUrl toUrl
  let objs ← BCDBModel.find fromUrl none []
  objs.forM (migrateObj fromUrl toUrl generateXCharID)

/-! ## One property -/

namespace SchemaProperty

variable (prop : SchemaProperty)

/-- What a property of a new object reads as, given the item that is held for
it. -/
def present (held : Option PyVal) : Except Exn PyVal :=
  match held with
  | some value => .ok value
  | none => readField prop .empty

/-- The item after a value was assigned, and whether this counts as a change. -/
def put (held : Option PyVal) (value : PyVal) : Except Exn (Option PyVal × Bool) := do
  let cleaned ← prop.jumpscaletype.clean value
  let present ← prop.present held
  if prop.jumpscaletype.eq cleaned present then
    return (held, decide (prop.jumpscaletype.NAME = "dict"))
  else return (some cleaned, true)

/-- The item after the loop came to the property with the value of the source
object. -/
def carry (value : PyVal) (generated : String) (held : Option PyVal) :
    Except Exn (Option PyVal × Bool) :=
  if value.truthy then prop.put held value
  else if prop.index then do
    let present ← prop.present held
    if present.truthy then return (held, false) else prop.put held (.str generated)
  else return (held, false)

/-- The item for the value of a source object: the default first, then what the
loop does. -/
def carried (value : PyVal) (generated : String) : Except Exn (Option PyVal × Bool) := do
  let fresh ← prop.put none prop.jumpscaletype.defaultGet
  let item ← prop.carry value generated fresh.1
  return (item.1, fresh.2 || item.2)

/-- What the stored form of the item is read back as. -/
def reread (held : Option PyVal) : Except Exn PyVal :=
  match held with
  | some value => do
      let data ← prop.jumpscaletype.toData value
      prop.jumpscaletype.clean data
  | none => readField prop .empty

end SchemaProperty

namespace JSXObject

/-- The object with another item for one property. -/
def withItem (obj : JSXObject) (name : String) (item : Option PyVal × Bool) :
    JSXObject :=
  { obj with
    deserializedItems := Function.update obj.deserializedItems name item.1
    changed := obj.changed || item.2 }

/-- An object over the empty message reads its items and zero values. -/
theorem readProp_empty {obj : JSXObject} (empty : obj.capnpObj = .empty)
    (prop : SchemaProperty) :
    obj.readProp prop = prop.present (obj.deserializedItems prop.name) := by
  unfold readProp SchemaProperty.present
  cases obj.deserializedItems prop.name with
  | some value => rfl
  | none => rw [empty]

/-- The setter on an object over the empty message changes one item. -/
theorem setProp_empty {readonly : Bool} {obj next : JSXObject}
    (empty : obj.capnpObj = .empty) {prop : SchemaProperty} {value : PyVal}
    (done : obj.setProp readonly prop value = .ok next) :
    ∃ item, prop.put (obj.deserializedItems prop.name) value = .ok item ∧
      next = obj.withItem prop.name item := by
  simp only [setProp, bind_eq_ok_iff, obj.readProp_empty empty] at done
  obtain ⟨_, _, cleaned, cleans, present, reads, done⟩ := done
  by_cases equal : prop.jumpscaletype.eq cleaned present = true
  · rw [if_pos equal] at done
    cases done
    refine ⟨(obj.deserializedItems prop.name, decide (prop.jumpscaletype.NAME = "dict")),
      ?_, ?_⟩
    · simp [SchemaProperty.put, cleans, reads, equal, bind, Except.bind, pure, Except.pure]
    · simp [withItem]
  · rw [if_neg equal] at done
    cases done
    refine ⟨(some cleaned, true), ?_, ?_⟩
    · simp [SchemaProperty.put, cleans, reads, equal, bind, Except.bind, pure, Except.pure]
    · simp [withItem]

end JSXObject

/-- A pass over properties that gives each of them an item for the one it
held. -/
def Passes (step : JSXObject → SchemaProperty → Except Exn JSXObject)
    (item : SchemaProperty → Option PyVal → Except Exn (Option PyVal × Bool)) : Prop :=
  ∀ obj prop next, obj.capnpObj = .empty → step obj prop = .ok next →
    ∃ left, item prop (obj.deserializedItems prop.name) = .ok left ∧
      next = obj.withItem prop.name left

/-- Properties with different names do not meet in a pass. -/
theorem Passes.foldlM {step : JSXObject → SchemaProperty → Except Exn JSXObject}
    {item : SchemaProperty → Option PyVal → Except Exn (Option PyVal × Bool)}
    (passes : Passes step item) {props : List SchemaProperty} {start next : JSXObject}
    (distinct : (props.map SchemaProperty.name).Nodup) (empty : start.capnpObj = .empty)
    (done : props.foldlM step start = .ok next) :
    start.SameAttributes next ∧ next.capnpObj = .empty ∧
      (∀ name, name ∉ props.map SchemaProperty.name →
        next.deserializedItems name = start.deserializedItems name) ∧
      (∀ prop ∈ props, ∃ left,
        item prop (start.deserializedItems prop.name) = .ok left ∧
          next.deserializedItems prop.name = left.1) ∧
      (next.changed = true ↔ start.changed = true ∨
        ∃ prop ∈ props, ∃ left,
          item prop (start.deserializedItems prop.name) = .ok left ∧ left.2 = true) := by
  induction props generalizing start with
  | nil =>
      cases done
      exact ⟨⟨rfl, rfl, rfl, rfl, rfl⟩, empty, fun _ _ => rfl, by simp, by simp⟩
  | cons prop rest induction =>
      rw [List.map_cons, List.nodup_cons] at distinct
      rw [List.foldlM_cons, bind_eq_ok_iff] at done
      obtain ⟨between, first, later⟩ := done
      obtain ⟨left, itemLeft, rfl⟩ := passes start prop between empty first
      have emptyBetween : (start.withItem prop.name left).capnpObj = .empty := empty
      obtain ⟨same, stillEmpty, others, items, changes⟩ :=
        induction distinct.2 emptyBetween later
      have untouched : ∀ other ∈ rest,
          (start.withItem prop.name left).deserializedItems other.name =
            start.deserializedItems other.name := by
        intro other member
        have different : other.name ≠ prop.name := by
          intro same
          exact distinct.1 (same ▸ List.mem_map_of_mem member)
        simp [JSXObject.withItem, different]
      refine ⟨⟨same.schema, same.model, same.id, same.nid, same.aclId⟩, stillEmpty, ?_, ?_,
        ?_⟩
      · intro name outside
        rw [List.map_cons, List.mem_cons, not_or] at outside
        rw [others name outside.2]
        simp [JSXObject.withItem, outside.1]
      · intro other member
        rcases List.mem_cons.mp member with rfl | member
        · refine ⟨left, itemLeft, ?_⟩
          rw [others other.name distinct.1]
          simp [JSXObject.withItem]
        · rw [← untouched other member]
          exact items other member
      · have first : (start.withItem prop.name left).changed = true ↔
            start.changed = true ∨ left.2 = true := by
          simp [JSXObject.withItem]
        rw [changes, first, List.exists_mem_cons_iff, or_assoc]
        apply or_congr_right
        constructor
        · rintro (changed | ⟨other, member, item', done, changed⟩)
          · exact .inl ⟨left, itemLeft, changed⟩
          · rw [untouched other member] at done
            exact .inr ⟨other, member, item', done, changed⟩
        · rintro (⟨item', done, changed⟩ | ⟨other, member, item', done, changed⟩)
          · rw [itemLeft, Except.ok.injEq] at done
            subst done
            exact .inl changed
          · rw [← untouched other member] at done
            exact .inr ⟨other, member, item', done, changed⟩

theorem defaults_pass :
    Passes (fun obj prop => obj.setProp false prop prop.jumpscaletype.defaultGet)
      (fun prop held => prop.put held prop.jumpscaletype.defaultGet) := by
  intro obj prop next empty done
  exact JSXObject.setProp_empty empty done

theorem migrate_pass (source : Schema) (readonly : Bool)
    (generateXCharID : String → String) (obj : JSXObject) :
    Passes (migrateProp source readonly generateXCharID obj)
      (fun prop held => do
        let value ← migratedValue source obj prop.name
        prop.carry value (generateXCharID prop.name) held) := by
  intro new prop next empty done
  simp only [migrateProp, bind_eq_ok_iff, new.readProp_empty empty] at done
  obtain ⟨value, given, done⟩ := done
  have unassigned : new = new.withItem prop.name (new.deserializedItems prop.name, false) := by
    simp [JSXObject.withItem]
  simp only [bind_eq_ok_iff, given, Except.ok.injEq, exists_eq_left', SchemaProperty.carry]
  by_cases truthy : value.truthy = true
  · rw [if_pos truthy] at done ⊢
    exact JSXObject.setProp_empty empty done
  · rw [if_neg truthy] at done ⊢
    by_cases indexed : prop.index = true
    · rw [if_pos indexed] at done ⊢
      simp only [bind_eq_ok_iff] at done ⊢
      obtain ⟨present, reads, done⟩ := done
      by_cases filled : present.truthy = true
      · rw [if_pos filled] at done
        cases done
        exact ⟨_, ⟨present, reads, by rw [if_pos filled]; rfl⟩, unassigned⟩
      · rw [if_neg filled] at done
        obtain ⟨left, put, same⟩ := JSXObject.setProp_empty empty done
        exact ⟨left, ⟨present, reads, by rw [if_neg filled]; exact put⟩, same⟩
    · rw [if_neg indexed] at done ⊢
      cases done
      exact ⟨_, rfl, unassigned⟩

/-- The loop gives each property of the new object its item. -/
structure Carries (source : Schema) (toUrl : Url) (toModel : Model)
    (generateXCharID : String → String) (obj new : JSXObject) : Prop where
  schema : new.schema = toModel.schema
  model : new.model = some toUrl
  id : new.id = none
  nid : new.nid = 1
  aclId : new.aclId = some 0
  capnpObj : new.capnpObj = .empty
  items : ∀ prop ∈ toModel.schema.properties, ∃ value item,
    migratedValue source obj prop.name = .ok value ∧
    prop.carried value (generateXCharID prop.name) = .ok item ∧
    new.deserializedItems prop.name = item.1
  changed : new.changed = true ↔ toModel.schema.freshChanged .empty = true ∨
    ∃ prop ∈ toModel.schema.properties, ∃ value item,
      migratedValue source obj prop.name = .ok value ∧
      prop.carried value (generateXCharID prop.name) = .ok item ∧ item.2 = true

theorem migratedObj_carries {source : Schema} {toUrl : Url} {toModel : Model}
    {generateXCharID : String → String} {obj new : JSXObject}
    (done : migratedObj source toUrl toModel generateXCharID obj = .ok new) :
    Carries source toUrl toModel generateXCharID obj new := by
  simp only [migratedObj, Schema.new, JSXObject.dataUpdate, List.foldlM_nil,
    bind_eq_ok_iff, pure_eq_ok_iff] at done
  obtain ⟨_, ⟨fresh, defaults, rfl⟩, done⟩ := done
  have distinct := toModel.schema.namesDistinct
  obtain ⟨same, empty, _, items, changes⟩ := defaults_pass.foldlM distinct rfl defaults
  have start : ({ fresh with model := some toUrl, nid := 1 } : JSXObject).capnpObj =
      .empty := empty
  obtain ⟨same', empty', _, items', changes'⟩ :=
    (migrate_pass source toModel.readonly generateXCharID obj).foldlM distinct start done
  have carried : ∀ prop ∈ toModel.schema.properties, ∃ value left left',
      migratedValue source obj prop.name = .ok value ∧
      prop.put none prop.jumpscaletype.defaultGet = .ok left ∧
      prop.carry value (generateXCharID prop.name) (fresh.deserializedItems prop.name) =
        .ok left' ∧
      prop.carried value (generateXCharID prop.name) = .ok (left'.1, left.2 || left'.2) ∧
      new.deserializedItems prop.name = left'.1 := by
    intro prop member
    obtain ⟨left, put, held⟩ := items prop member
    obtain ⟨left', step, held'⟩ := items' prop member
    obtain ⟨value, given, carry⟩ := bind_eq_ok_iff.mp step
    refine ⟨value, left, left', given, put, carry, ?_, held'⟩
    have putNone : prop.put none prop.jumpscaletype.defaultGet = .ok left := put
    have carryLeft : prop.carry value (generateXCharID prop.name) left.1 = .ok left' := by
      rw [← held]
      exact carry
    simp [SchemaProperty.carried, putNone, carryLeft, bind, Except.bind, pure, Except.pure]
  refine ⟨same'.schema.trans same.schema, same'.model, same'.id.trans same.id, same'.nid,
    same'.aclId.trans same.aclId, empty', ?_, ?_⟩
  · intro prop member
    obtain ⟨value, left, left', given, _, _, done, held⟩ := carried prop member
    exact ⟨value, _, given, done, held⟩
  · rw [changes']
    change fresh.changed = true ∨ _ ↔ _
    rw [changes, or_assoc]
    apply or_congr_right
    constructor
    · rintro (⟨prop, member, item, put, changed⟩ | ⟨prop, member, item, step, changed⟩)
      · obtain ⟨value, left, left', given, put', _, done, _⟩ := carried prop member
        have sameItem : left = item := Except.ok.inj (put'.symm.trans put)
        exact ⟨prop, member, value, _, given, done, by simp [sameItem, changed]⟩
      · obtain ⟨value, left, left', given, _, carry, done, _⟩ := carried prop member
        obtain ⟨value', given', carry'⟩ := bind_eq_ok_iff.mp step
        have sameValue : value = value' := Except.ok.inj (given.symm.trans given')
        subst sameValue
        have sameItem : left' = item := Except.ok.inj (carry.symm.trans carry')
        exact ⟨prop, member, value, _, given, done, by simp [sameItem, changed]⟩
    · rintro ⟨prop, member, value, item, given, done, changed⟩
      obtain ⟨value', left, left', given', put, carry, done', _⟩ := carried prop member
      have sameValue : value' = value := Except.ok.inj (given'.symm.trans given)
      subst sameValue
      have sameItem : (left'.1, left.2 || left'.2) = item :=
        Except.ok.inj (done'.symm.trans done)
      rw [← sameItem, Bool.or_eq_true] at changed
      rcases changed with changed | changed
      · exact .inl ⟨prop, member, left, put, changed⟩
      · exact .inr ⟨prop, member, left', bind_eq_ok_iff.mpr ⟨value', given, carry⟩, changed⟩

/-! ## What is stored -/

/-- Each item stands in the written message under the number of its property. -/
theorem lookup_writeFields {items : String → Option PyVal} {props : List SchemaProperty}
    {start message : Message} (numbered : (props.map SchemaProperty.nr).Nodup)
    (done : props.foldlM (writeField items) start = .ok message) :
    (∀ nr, nr ∉ props.map SchemaProperty.nr → message.lookup nr = start.lookup nr) ∧
      ∀ prop ∈ props,
        (items prop.name = none → message.lookup prop.nr = start.lookup prop.nr) ∧
        ∀ value, items prop.name = some value → ∃ data,
          prop.jumpscaletype.toData value = .ok data ∧ message.lookup prop.nr = some data := by
  induction props generalizing start with
  | nil =>
      cases done
      exact ⟨fun _ _ => rfl, by simp⟩
  | cons prop rest induction =>
      rw [List.map_cons, List.nodup_cons] at numbered
      rw [List.foldlM_cons, bind_eq_ok_iff] at done
      obtain ⟨between, first, later⟩ := done
      obtain ⟨others, written⟩ := induction numbered.2 later
      have one : (∀ nr, nr ≠ prop.nr → between.lookup nr = start.lookup nr) ∧
          (items prop.name = none → between.lookup prop.nr = start.lookup prop.nr) ∧
          ∀ value, items prop.name = some value → ∃ data,
            prop.jumpscaletype.toData value = .ok data ∧
              between.lookup prop.nr = some data := by
        unfold writeField at first
        cases held : items prop.name with
        | none =>
            rw [held] at first
            cases first
            exact ⟨fun _ _ => rfl, fun _ => rfl, by simp⟩
        | some value =>
            rw [held] at first
            obtain ⟨data, encoded, same⟩ := bind_eq_ok_iff.mp first
            cases same
            refine ⟨?_, by simp, ?_⟩
            · intro nr different
              exact OrderedMap.lookup_insert_of_ne _ different _
            · intro value' same
              cases same
              exact ⟨data, encoded, OrderedMap.lookup_insert_self ..⟩
      refine ⟨?_, ?_⟩
      · intro nr outside
        rw [List.map_cons, List.mem_cons, not_or] at outside
        rw [others nr outside.2, one.1 nr outside.1]
      · intro other member
        rcases List.mem_cons.mp member with rfl | member
        · rw [others other.nr numbered.1]
          exact one.2
        · have different : other.nr ≠ prop.nr := by
            intro same
            exact numbered.1 (same ▸ List.mem_map_of_mem member)
          rw [← one.1 other.nr different]
          exact written other member

/-- A changed object over the empty message stores what rereads as its items. -/
theorem JSXObject.reread_toCapnp {obj : JSXObject} {message : Message}
    (numbered : (obj.schema.properties.map SchemaProperty.nr).Nodup)
    (empty : obj.capnpObj = .empty) (changed : obj.changed = true)
    (done : obj.toCapnp = .ok message) {prop : SchemaProperty}
    (member : prop ∈ obj.schema.properties) :
    readField prop message = prop.reread (obj.deserializedItems prop.name) := by
  rw [JSXObject.toCapnp, if_pos changed] at done
  obtain ⟨without, held⟩ := (lookup_writeFields numbered done).2 prop member
  unfold SchemaProperty.reread
  cases item : obj.deserializedItems prop.name with
  | none => simp [readField, without item, empty]
  | some value =>
      obtain ⟨data, encoded, stored⟩ := held value item
      simp [readField, stored, encoded, bind, Except.bind]

/-- The record that a migrated object is stored as, if it is stored at all. -/
def migratedRecord (source : Schema) (toUrl : Url) (toModel : Model)
    (generateXCharID : String → String) (obj : JSXObject) : Except Exn (Option Record) := do
  let new ← migratedObj source toUrl toModel generateXCharID obj
  if new.changed then do
    let message ← new.toCapnp
    return some (new.record message)
  else return none

section

variable (source target : Schema) (generateXCharID : String → String) (obj : JSXObject)

/-- The record has the nid of the source object, and its value for each property
that both schemas have.  An empty text of an indexed property may have become a
generated one. -/
structure KeptAs (record : Record) : Prop where
  nid : record.nid = obj.nid
  values : ∀ prop ∈ target.properties, ∀ own, source.property? prop.name = some own →
    ∃ value, obj.readProp own = .ok value ∧
      (readField prop record.bdata.message = .ok value ∨
        value = .str "" ∧ prop.index = true ∧
          readField prop record.bdata.message = .ok (.str (generateXCharID prop.name)))

/-- The source object has the nid 1, one of its values or of the defaults of the
target differs from what an empty message reads as, and the target's types read
back each value that counts as true, and hold no default in the place of one
that counts as false. -/
structure Portable : Prop where
  nid : obj.nid = 1
  changes : target.freshChanged .empty = true ∨
    ∃ prop ∈ target.properties, ∃ value item,
      migratedValue source obj prop.name = .ok value ∧
      prop.carried value (generateXCharID prop.name) = .ok item ∧ item.2 = true
  values : ∀ prop ∈ target.properties, ∀ own, source.property? prop.name = some own →
    ∃ value item, obj.readProp own = .ok value ∧
      prop.carried value (generateXCharID prop.name) = .ok item ∧
      (prop.reread item.1 = .ok value ∨
        value = .str "" ∧ prop.index = true ∧
          prop.reread item.1 = .ok (.str (generateXCharID prop.name)))

end

/-- What becomes of a source object keeps it exactly when it is portable. -/
theorem portable_iff {source : Schema} {toUrl : Url} {toModel : Model}
    {generateXCharID : String → String} {obj : JSXObject} {record : Option Record}
    (numbered : (toModel.schema.properties.map SchemaProperty.nr).Nodup)
    (ofSource : obj.schema = source)
    (done : migratedRecord source toUrl toModel generateXCharID obj = .ok record) :
    Portable source toModel.schema generateXCharID obj ↔
      ∃ stored, record = some stored ∧
        KeptAs source toModel.schema generateXCharID obj stored := by
  simp only [migratedRecord, bind_eq_ok_iff] at done
  obtain ⟨new, made, done⟩ := done
  have carries := migratedObj_carries made
  by_cases changed : new.changed = true
  · rw [if_pos changed] at done
    obtain ⟨message, serialised, same⟩ := bind_eq_ok_iff.mp done
    cases same
    have reads : ∀ prop ∈ toModel.schema.properties, ∀ own,
        source.property? prop.name = some own → ∃ value item,
          obj.readProp own = .ok value ∧
          prop.carried value (generateXCharID prop.name) = .ok item ∧
          readField prop message = prop.reread item.1 := by
      intro prop member own found
      obtain ⟨value, item, given, carried, held⟩ := carries.items prop member
      refine ⟨value, item, ?_, carried, ?_⟩
      · rw [← given, migratedValue, JSXObject.getattr, ofSource, found]
        rfl
      · rw [← held]
        rw [← carries.schema] at numbered member
        exact new.reread_toCapnp numbered carries.capnpObj changed serialised member
    constructor
    · intro portable
      refine ⟨_, rfl, ?_, ?_⟩
      · exact carries.nid.trans portable.nid.symm
      · intro prop member own found
        obtain ⟨value, item, value_eq, carried, kept⟩ := portable.values prop member own found
        obtain ⟨value', item', value_eq', carried', stored⟩ := reads prop member own found
        have sameValue : value = value' := Except.ok.inj (value_eq.symm.trans value_eq')
        subst sameValue
        have sameItem : item = item' := Except.ok.inj (carried.symm.trans carried')
        subst sameItem
        refine ⟨value, value_eq, ?_⟩
        change readField prop message = _ ∨ _ ∧ _ ∧ readField prop message = _
        rw [stored]
        exact kept
    · rintro ⟨_, same, kept⟩
      cases same
      refine ⟨kept.nid.symm.trans carries.nid, carries.changed.mp changed, ?_⟩
      intro prop member own found
      obtain ⟨value, item, value_eq, carried, stored⟩ := reads prop member own found
      obtain ⟨value', value_eq', same⟩ := kept.values prop member own found
      have sameValue : value = value' := Except.ok.inj (value_eq.symm.trans value_eq')
      subst sameValue
      refine ⟨value, item, value_eq, carried, ?_⟩
      rw [← stored]
      exact same
  · rw [if_neg changed] at done
    cases done
    constructor
    · intro portable
      exact (changed (carries.changed.mpr portable.changes)).elim
    · rintro ⟨_, impossible, _⟩
      cases impossible

end JumpscaleX
