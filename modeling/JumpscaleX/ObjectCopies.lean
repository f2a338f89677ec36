import JumpscaleX.EncryptorTools

/-!
# Objects made from a dict form

What a new object holds after the dict form of another one was put into it:
each property is cleaned, and keeps its default when the cleaned value compares
equal to that.
-/

namespace JumpscaleX

open Fallible TextBytes

namespace SchemaProperty

/-- What the property of a new object holds. -/
def fresh (prop : SchemaProperty) : Except Exn PyVal := do
  let cleaned ← prop.jumpscaletype.clean prop.jumpscaletype.defaultGet
  let zero ← readField prop .empty
  return if prop.jumpscaletype.eq cleaned zero then zero else cleaned

/-- What the property of a new object holds once the value was assigned. -/
def assigned (prop : SchemaProperty) (value : PyVal) : Except Exn PyVal := do
  let cleaned ← prop.jumpscaletype.clean value
  let present ← prop.fresh
  return if prop.jumpscaletype.eq cleaned present then present else cleaned

end SchemaProperty

namespace JSXObject

/-- What the property of the object holds once the value was assigned. -/
def assign (obj : JSXObject) (prop : SchemaProperty) (value : PyVal) :
    Except Exn PyVal := do
  let cleaned ← prop.jumpscaletype.clean value
  let present ← obj.readProp prop
  return if prop.jumpscaletype.eq cleaned present then present else cleaned

/-- The other object differs in the values of the named properties only. -/
structure AgreesOutside (names : List String) (obj other : JSXObject) : Prop where
  schema : other.schema = obj.schema
  id : other.id = obj.id
  readProp : ∀ prop : SchemaProperty, prop.name ∉ names →
    other.readProp prop = obj.readProp prop

namespace AgreesOutside

theorem refl (names : List String) (obj : JSXObject) : AgreesOutside names obj obj := by
  constructor
  · rfl
  · rfl
  · intro prop _
    rfl

theorem trans {names : List String} {first second third : JSXObject}
    (one : AgreesOutside names first second) (two : AgreesOutside names second third) :
    AgreesOutside names first third := by
  constructor
  · rw [two.schema, one.schema]
  · rw [two.id, one.id]
  · intro prop outside
    rw [two.readProp prop outside, one.readProp prop outside]

theorem mono {names more : List String} {obj other : JSXObject}
    (agrees : AgreesOutside names obj other) (included : names ⊆ more) :
    AgreesOutside more obj other := by
  constructor
  · exact agrees.schema
  · exact agrees.id
  · intro prop outside
    apply agrees.readProp
    intro member
    exact outside (included member)

theorem assign {names : List String} {obj other : JSXObject}
    (agrees : AgreesOutside names obj other) {prop : SchemaProperty}
    (outside : prop.name ∉ names) (value : PyVal) :
    other.assign prop value = obj.assign prop value := by
  simp only [JSXObject.assign, agrees.readProp prop outside]

end AgreesOutside

/-- Setting a property changes this property only, to what the assignment of
the value leaves. -/
theorem setProp_assigns {obj next : JSXObject} {prop : SchemaProperty} {value : PyVal}
    (done : obj.setProp false prop value = .ok next) :
    AgreesOutside [prop.name] obj next ∧
      ∃ left, next.readProp prop = .ok left ∧ obj.assign prop value = .ok left := by
  simp only [setProp, bind_eq_ok_iff, ensure_eq_ok_iff] at done
  obtain ⟨_, _, cleaned, cleans, present, reads, done⟩ := done
  by_cases equal : prop.jumpscaletype.eq cleaned present = true
  · rw [if_pos equal] at done
    cases done
    refine ⟨⟨rfl, rfl, fun _ _ => rfl⟩, present, reads, ?_⟩
    simp [assign, cleans, reads, equal, bind, Except.bind, pure, Except.pure]
  · rw [if_neg equal] at done
    cases done
    refine ⟨⟨rfl, rfl, ?_⟩, cleaned, ?_, ?_⟩
    · intro other outside
      have different : other.name ≠ prop.name := by simpa using outside
      simp [readProp, Function.update_of_ne different]
    · simp [readProp]
    · simp [assign, cleans, reads, equal, bind, Except.bind, pure, Except.pure]

theorem setProp_of_assign {obj : JSXObject} {prop : SchemaProperty} {value left : PyVal}
    (assigned : obj.assign prop value = .ok left) :
    ∃ next, obj.setProp false prop value = .ok next := by
  simp only [assign, bind_eq_ok_iff] at assigned
  obtain ⟨cleaned, cleans, present, reads, _⟩ := assigned
  simp only [setProp, cleans, reads, ensure, bind, Except.bind, if_true]
  split
  · exact ⟨_, rfl⟩
  · exact ⟨_, rfl⟩

/-- Assign the values one after the other. -/
def assignAll (obj : JSXObject) (pairs : List (SchemaProperty × PyVal)) :
    Except Exn JSXObject :=
  pairs.foldlM (fun obj pair => obj.setProp false pair.1 pair.2) obj

/-- What a loop over assignments leaves when no property is assigned twice. -/
theorem assignAll_assigns {pairs : List (SchemaProperty × PyVal)} {obj next : JSXObject}
    (distinct : (pairs.map (fun pair => pair.1.name)).Nodup)
    (done : obj.assignAll pairs = .ok next) :
    AgreesOutside (pairs.map (fun pair => pair.1.name)) obj next ∧
      ∀ pair ∈ pairs, ∃ left,
        next.readProp pair.1 = .ok left ∧ obj.assign pair.1 pair.2 = .ok left := by
  induction pairs generalizing obj with
  | nil =>
      cases done
      exact ⟨.refl [] next, by simp⟩
  | cons pair rest induction =>
      rw [List.map_cons, List.nodup_cons] at distinct
      rw [assignAll, List.foldlM_cons, bind_eq_ok_iff] at done
      obtain ⟨between, first, later⟩ := done
      obtain ⟨agrees, left, reads, assigned⟩ := setProp_assigns first
      obtain ⟨agreesLater, readsLater⟩ := induction distinct.2 later
      refine ⟨(agrees.mono (by simp)).trans (agreesLater.mono (by simp)), ?_⟩
      intro other member
      rcases List.mem_cons.mp member with same | member
      · subst same
        refine ⟨left, ?_, assigned⟩
        rw [agreesLater.readProp _ distinct.1, reads]
      · obtain ⟨value, readsNext, assignedBetween⟩ := readsLater other member
        have outside : other.1.name ∉ [pair.1.name] := by
          intro named
          apply distinct.1
          exact List.mem_map.mpr ⟨other, member, by simpa using named⟩
        rw [agrees.assign outside] at assignedBetween
        exact ⟨value, readsNext, assignedBetween⟩

/-- The loop succeeds when each value can be assigned to the object. -/
theorem assignAll_of_assign {pairs : List (SchemaProperty × PyVal)} {obj : JSXObject}
    (distinct : (pairs.map (fun pair => pair.1.name)).Nodup)
    (assignable : ∀ pair ∈ pairs, ∃ left, obj.assign pair.1 pair.2 = .ok left) :
    ∃ next, obj.assignAll pairs = .ok next := by
  induction pairs generalizing obj with
  | nil => exact ⟨obj, rfl⟩
  | cons pair rest induction =>
      rw [List.map_cons, List.nodup_cons] at distinct
      obtain ⟨left, assigned⟩ := assignable pair List.mem_cons_self
      obtain ⟨between, first⟩ := setProp_of_assign assigned
      have agrees := (setProp_assigns first).1
      have later : ∀ other ∈ rest, ∃ left, between.assign other.1 other.2 = .ok left := by
        intro other member
        have outside : other.1.name ∉ [pair.1.name] := by
          intro named
          apply distinct.1
          exact List.mem_map.mpr ⟨other, member, by simpa using named⟩
        rw [agrees.assign outside]
        exact assignable other (List.mem_cons_of_mem _ member)
      obtain ⟨next, done⟩ := induction distinct.2 later
      refine ⟨next, ?_⟩
      rw [assignAll, List.foldlM_cons, first]
      exact done

/-- `_defaults_set` as assignments. -/
theorem defaultsSet_eq_assignAll (obj : JSXObject) :
    obj.defaultsSet false =
      obj.assignAll (obj.schema.properties.map
        (fun prop => (prop, prop.jumpscaletype.defaultGet))) := by
  rw [defaultsSet, assignAll, List.foldlM_map]

/-- `_data_update` by property names, as assignments. -/
theorem dataUpdate_eq_assignAll {pairs : List (SchemaProperty × PyVal)} {obj : JSXObject}
    (members : ∀ pair ∈ pairs, pair.1 ∈ obj.schema.properties) :
    obj.dataUpdate false (pairs.map (fun pair => (pair.1.name, pair.2))) =
      obj.assignAll pairs := by
  induction pairs generalizing obj with
  | nil => rfl
  | cons pair rest induction =>
      have known : obj.schema.property? pair.1.name = some pair.1 :=
        Schema.property?_of_mem (members pair List.mem_cons_self)
      simp only [dataUpdate, assignAll, List.map_cons, List.foldlM_cons, setattr, known]
      cases first : obj.setProp false pair.1 pair.2 with
      | error problem => rfl
      | ok between =>
          have schema := (setProp_assigns first).1.schema
          apply induction
          intro other member
          rw [schema]
          exact members other (List.mem_cons_of_mem _ member)

/-- An id at the end of a dict form becomes the id of the object. -/
theorem dataUpdate_id (obj : JSXObject) (noId : obj.schema.property? "id" = none)
    (fresh : obj.id = none) (id : Option Nat) :
    obj.dataUpdate false (id.map (fun id => ("id", .int id))).toList =
      .ok { obj with id := id } := by
  cases id with
  | none =>
      have same : ({ obj with id := none } : JSXObject) = obj := by rw [← fresh]
      rw [same]
      rfl
  | some id =>
      have named : obj.setattr false "id" (.int id) = .ok { obj with id := some id } := by
        simp only [setattr, noId]
        rfl
      simp [dataUpdate, named]

end JSXObject

namespace Schema

/-- The dict form that gives every property a value. -/
def dictForm (pairs : List (SchemaProperty × PyVal)) (id : Option Nat) : DataDict :=
  pairs.map (fun pair => (pair.1.name, pair.2)) ++
    (id.map (fun id => ("id", .int id))).toList

variable {schema : Schema} {pairs : List (SchemaProperty × PyVal)}

theorem pairs_distinct (all : pairs.map Prod.fst = schema.properties) :
    (pairs.map (fun pair => pair.1.name)).Nodup := by
  have names : pairs.map (fun pair => pair.1.name) =
      schema.properties.map SchemaProperty.name := by
    rw [← all, List.map_map]
    rfl
  rw [names]
  exact schema.namesDistinct

theorem defaults_distinct (schema : Schema) :
    ((schema.properties.map (fun prop => (prop, prop.jumpscaletype.defaultGet))).map
      (fun pair => pair.1.name)).Nodup := by
  have all : (schema.properties.map (fun prop =>
      (prop, prop.jumpscaletype.defaultGet))).map Prod.fst = schema.properties := by
    simp [Function.comp_def]
  exact pairs_distinct all

/-- The object that `schema.new()` makes holds the fresh values. -/
theorem defaults_fresh {obj : JSXObject} {model : Option Url} {aclId : Option Nat}
    (done : ({ schema.fromCapnp .empty model with aclId := aclId } : JSXObject).defaultsSet
      false = .ok obj) :
    obj.schema = schema ∧ obj.id = none ∧
      ∀ prop ∈ schema.properties, obj.readProp prop = prop.fresh := by
  rw [JSXObject.defaultsSet_eq_assignAll] at done
  obtain ⟨agrees, reads⟩ := JSXObject.assignAll_assigns (defaults_distinct schema) done
  refine ⟨agrees.schema, agrees.id, ?_⟩
  intro prop member
  obtain ⟨left, readsLeft, assigned⟩ :=
    reads (prop, prop.jumpscaletype.defaultGet) (List.mem_map.mpr ⟨prop, member, rfl⟩)
  rw [readsLeft, ← assigned]
  rfl

/-- A new object can be made with the values exactly when each of them can be
assigned, and it holds what the assignments leave. -/
theorem new_dictForm {model : Option Url} (all : pairs.map Prod.fst = schema.properties)
    (noId : schema.property? "id" = none) (id : Option Nat) {back : JSXObject}
    (done : schema.new false model (dictForm pairs id) = .ok back) :
    back.schema = schema ∧ back.id = id ∧
      ∀ pair ∈ pairs, ∃ left,
        back.readProp pair.1 = .ok left ∧ pair.1.assigned pair.2 = .ok left := by
  simp only [Schema.new, bind_eq_ok_iff] at done
  obtain ⟨obj, defaults, updated⟩ := done
  obtain ⟨objSchema, objId, objReads⟩ := defaults_fresh defaults
  have members : ∀ pair ∈ pairs, pair.1 ∈ schema.properties := by
    intro pair member
    rw [← all]
    exact List.mem_map.mpr ⟨pair, member, rfl⟩
  rw [JSXObject.dataUpdate, dictForm, List.foldlM_append, bind_eq_ok_iff] at updated
  obtain ⟨filled, fills, identified⟩ := updated
  have filling : obj.assignAll pairs = .ok filled := by
    rw [← JSXObject.dataUpdate_eq_assignAll (by rw [objSchema]; exact members)]
    exact fills
  obtain ⟨agrees, reads⟩ := JSXObject.assignAll_assigns (pairs_distinct all) filling
  have same : ({ filled with id := id } : JSXObject) = back := by
    have named := JSXObject.dataUpdate_id filled
      (by rw [agrees.schema, objSchema]; exact noId) (by rw [agrees.id, objId]) id
    exact Except.ok.inj (named.symm.trans identified)
  subst same
  refine ⟨agrees.schema.trans objSchema, rfl, ?_⟩
  intro pair member
  obtain ⟨left, readsLeft, assigned⟩ := reads pair member
  refine ⟨left, readsLeft, ?_⟩
  rw [← assigned, SchemaProperty.assigned, JSXObject.assign, objReads _ (members pair member)]

theorem new_dictForm_of_assigned (model : Option Url)
    (all : pairs.map Prod.fst = schema.properties)
    (noId : schema.property? "id" = none) (id : Option Nat)
    (assignable : ∀ pair ∈ pairs, ∃ left, pair.1.assigned pair.2 = .ok left) :
    ∃ back, schema.new false model (dictForm pairs id) = .ok back := by
  have members : ∀ pair ∈ pairs, pair.1 ∈ schema.properties := by
    intro pair member
    rw [← all]
    exact List.mem_map.mpr ⟨pair, member, rfl⟩
  let empty : JSXObject := { schema.fromCapnp .empty model with aclId := some 0 }
  obtain ⟨obj, defaults⟩ : ∃ obj, empty.defaultsSet false = .ok obj := by
    rw [JSXObject.defaultsSet_eq_assignAll]
    apply JSXObject.assignAll_of_assign
    · exact defaults_distinct schema
    · intro pair member
      obtain ⟨prop, propMember, rfl⟩ := List.mem_map.mp member
      obtain ⟨other, otherMember, named⟩ : ∃ other ∈ pairs, other.1 = prop := by
        have inPairs : prop ∈ pairs.map Prod.fst := by
          rw [all]
          exact propMember
        exact List.mem_map.mp inPairs
      obtain ⟨left, assigned⟩ := assignable other otherMember
      rw [named] at assigned
      simp only [SchemaProperty.assigned, bind_eq_ok_iff] at assigned
      obtain ⟨_, _, present, fresh, _⟩ := assigned
      exact ⟨present, fresh⟩
  obtain ⟨objSchema, objId, objReads⟩ := defaults_fresh defaults
  obtain ⟨filled, filling⟩ : ∃ filled, obj.assignAll pairs = .ok filled := by
    apply JSXObject.assignAll_of_assign (pairs_distinct all)
    intro pair member
    obtain ⟨left, assigned⟩ := assignable pair member
    refine ⟨left, ?_⟩
    rw [← assigned, SchemaProperty.assigned, JSXObject.assign,
      objReads _ (members pair member)]
  have agrees := (JSXObject.assignAll_assigns (pairs_distinct all) filling).1
  refine ⟨{ filled with id := id }, ?_⟩
  simp only [Schema.new, bind_eq_ok_iff]
  refine ⟨obj, defaults, ?_⟩
  rw [JSXObject.dataUpdate, dictForm, List.foldlM_append, bind_eq_ok_iff]
  refine ⟨filled, ?_, ?_⟩
  · rw [← filling, ← JSXObject.dataUpdate_eq_assignAll (by rw [objSchema]; exact members)]
    rfl
  · exact JSXObject.dataUpdate_id filled (by rw [agrees.schema, objSchema]; exact noId)
      (by rw [agrees.id, objId]) id

end Schema

end JumpscaleX
