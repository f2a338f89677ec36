import JumpscaleX.BCDBModel
import JumpscaleX.Types

/-!
# The index columns of nested properties

Which properties of an object and of its sub-objects are indexed, and what the
columns of `properties_index_sql` say about them.  The name of a column joins
the names on the way to the property by double underscores; the generated
class and `check_empty_indexed_fields` each make an attribute path from it
again.
-/

namespace JumpscaleX

open Fallible BCDBModel

/-! ## Attribute paths -/

/-- `value.name` for a value that was read from an object. -/
def PyVal.attribute (value : PyVal) (name : String) : Except Exn PyVal :=
  match value with
  | .jsx _ props =>
      match props.find? (fun item => item.1 = name) with
      | some item => .ok item.2
      | .none => .error (.attributeError name)
  | _ => .error (.attributeError name)

/-- `self.first.second...` -/
def JSXObject.attributes (obj : JSXObject) : List String → Except Exn PyVal
  | [] => .error (.attributeError "")
  | name :: rest => do rest.foldlM PyVal.attribute (← obj.getattr name)

/-- Names with double underscores between them. -/
def dunder : List String → String
  | [] => ""
  | [name] => name
  | name :: rest => name ++ "__" ++ dunder rest

namespace BCDBModel.dunderParts

theorem split_ne_nil (part cs : List Char) : split part cs ≠ [] := by
  fun_induction split part cs with
  | case1 => simp
  | case2 part char rest other induction => exact induction
  | case3 => simp

/-- Joining the parts of a text gives the text again. -/
theorem dunder_split (part cs : List Char) :
    dunder ((split part cs).map String.ofList) = String.ofList (part.reverse ++ cs) := by
  fun_induction split part cs with
  | case1 part rest induction =>
      cases parts : split [] rest with
      | nil => exact (split_ne_nil [] rest parts).elim
      | cons first others =>
          rw [parts] at induction
          simp only [List.map_cons] at induction ⊢
          rw [dunder, induction, List.reverse_nil, List.nil_append,
            show '_' :: '_' :: rest = "__".toList ++ rest from rfl,
            String.ofList_append, String.ofList_append, String.ofList_toList,
            String.append_assoc]
          simp
  | case2 part char rest other induction =>
      rw [induction]
      simp
  | case3 part => simp [dunder]

/-- A text with a double underscore has more than one part. -/
theorem two_le_length_split (before after part : List Char) :
    2 ≤ (split part (before ++ '_' :: '_' :: after)).length := by
  generalize whole : before ++ '_' :: '_' :: after = cs
  fun_induction split part cs generalizing before with
  | case1 part rest induction =>
      have some := List.length_pos_iff.mpr (split_ne_nil [] rest)
      simp only [List.length_cons]
      omega
  | case2 part char rest other induction =>
      cases before with
      | nil =>
          simp only [List.nil_append, List.cons.injEq] at whole
          obtain ⟨rfl, rfl⟩ := whole
          exact (other after rfl rfl).elim
      | cons first others =>
          simp only [List.cons_append, List.cons.injEq] at whole
          exact induction others whole.2
  | case3 part => simp at whole

end BCDBModel.dunderParts

theorem dunder_dunderParts (name : String) : dunder (dunderParts name) = name := by
  rw [dunderParts, dunderParts.dunder_split]
  simp

/-- The path that `check_empty_indexed_fields` evaluates. -/
def checkedPath (name : String) : List String :=
  match dunderParts name with
  | prop :: sub :: _ => [prop, sub]
  | _ => [name]

/-- A name that is joined from its checked path has no parts but these. -/
theorem dunderParts_of_checkedPath {name : String} {path : List String}
    (checked : checkedPath name = path) (joined : dunder path = name) :
    dunderParts name = path := by
  have whole := dunder_dunderParts name
  unfold checkedPath at checked
  split at checked
  · rename_i prop sub rest parts
    subst checked
    rw [parts, ← joined] at whole
    cases rest with
    | nil => exact parts
    | cons third others =>
        have lengths := congrArg String.length whole
        simp only [dunder, String.length_append] at lengths
        have separator : "__".length = 2 := rfl
        omega
  · rename_i single
    subst checked
    cases parts : dunderParts name with
    | nil =>
        have some := dunderParts.split_ne_nil [] name.toList
        simp only [dunderParts, List.map_eq_nil_iff] at parts
        exact (some parts).elim
    | cons first others =>
        cases others with
        | nil =>
            rw [parts, dunder] at whole
            rw [whole]
        | cons second rest => exact (single first second rest parts).elim

/-- A name with a double underscore is taken apart. -/
theorem checkedPath_append (first rest : String) :
    ∃ prop sub, checkedPath (first ++ "__" ++ rest) = [prop, sub] := by
  have two := dunderParts.two_le_length_split first.toList rest.toList []
  have letters : (first ++ "__" ++ rest).toList =
      first.toList ++ '_' :: '_' :: rest.toList := by
    simp [String.toList_append]
  unfold checkedPath dunderParts
  rw [letters]
  cases parts : dunderParts.split [] (first.toList ++ '_' :: '_' :: rest.toList) with
  | nil => simp [parts] at two
  | cons prop others =>
      cases others with
      | nil => simp [parts] at two
      | cons sub others => exact ⟨_, _, rfl⟩

/-! ## Properties and columns -/

/-- A property of the object or of one of its sub-objects, with the names by
which it is reached. -/
structure NestedProperty where
  path : List String
  prop : SchemaProperty

namespace NestedProperty

/-- The property seen from the object that holds the sub-object. -/
def below (name : String) (nested : NestedProperty) : NestedProperty :=
  { nested with path := name :: nested.path }

/-- The column that the code makes for an indexed property. -/
def column (nested : NestedProperty) : IndexField :=
  match nested.path with
  | outer :: inner :: rest =>
      { name := dunder (outer :: inner :: rest)
        attr := some (outer, dunder (inner :: rest))
        jumpscaletype := nested.prop.jumpscaletype
        unique := false }
  | [name] => { nested.prop.indexField with name := name }
  | [] => nested.prop.indexField

end NestedProperty

namespace SchemaProperty

mutual

/-- A property and, where it is a sub-object, the properties in it. -/
def nested : SchemaProperty → List NestedProperty
  | ⟨nr, name, jumpscaletype, index, unique, sub⟩ =>
      ⟨[name], ⟨nr, name, jumpscaletype, index, unique, sub⟩⟩ ::
        match sub with
        | none => []
        | some props => (nestedList props).map (NestedProperty.below name)

def nestedList : List SchemaProperty → List NestedProperty
  | [] => []
  | prop :: rest => nested prop ++ nestedList rest

end

mutual

/-- The parser keeps the properties of a schema in a dict by name. -/
def NamesApart : SchemaProperty → Prop
  | ⟨_, _, _, _, _, sub⟩ =>
      match sub with
      | none => True
      | some props => (props.map SchemaProperty.name).Nodup ∧ NamesApartList props

def NamesApartList : List SchemaProperty → Prop
  | [] => True
  | prop :: rest => NamesApart prop ∧ NamesApartList rest

end

mutual

/-- The value can stand in the property of an object: a sub-object has the
properties of its schema, and no other value is an object. -/
def Holds : SchemaProperty → PyVal → Prop
  | ⟨_, _, _, _, _, sub⟩, value =>
      match sub with
      | none => ∀ md5 fields, value ≠ .jsx md5 fields
      | some props => ∃ md5 fields, value = .jsx md5 fields ∧ HoldsList props fields

def HoldsList : List SchemaProperty → List (String × PyVal) → Prop
  | [], fields => fields = []
  | prop :: rest, fields =>
      ∃ value others, fields = (prop.name, value) :: others ∧
        Holds prop value ∧ HoldsList rest others

end

end SchemaProperty

/-- A schema whose sub-objects have schemas from the parser too.  The names are
such that the generated classes can define them. -/
structure NestedSchema extends Schema where
  namesApart : SchemaProperty.NamesApartList properties
  dotless : ∀ nested ∈ SchemaProperty.nestedList properties,
    ∀ name ∈ nested.path, '.' ∉ name.toList

namespace Schema

/-- The indexed properties of the object and of its sub-objects. -/
def indexedProperties (schema : Schema) : List NestedProperty :=
  (SchemaProperty.nestedList schema.properties).filter (fun nested => nested.prop.index)

/-- The object is one of the schema. -/
structure ObjectOf (schema : Schema) (obj : JSXObject) : Prop where
  made : obj.schema = schema
  holds : ∀ prop ∈ schema.properties, ∃ value,
    obj.readProp prop = .ok value ∧ prop.Holds value

/-- A column is the right one for an indexed property. -/
structure Describes (schema : Schema) (nested : NestedProperty) (field : IndexField) :
    Prop where
  value : ∀ obj, schema.ObjectOf obj → ∃ value,
    obj.attributes nested.path = .ok value ∧ obj.columnValue field = .ok value
  checked : ∀ obj, schema.ObjectOf obj → ∃ value,
    obj.attributes nested.path = .ok value ∧ checkedValue obj field.name = .ok value
  dotless : '.' ∉ field.name.toList
  unique : field.unique = nested.prop.unique

/-- Every indexed property has one column, under a name of its own. -/
def ColumnsRight (schema : Schema) : Prop :=
  (schema.propertiesIndexSql.map IndexField.name).Nodup ∧
    ∃ columns, columns.Perm schema.propertiesIndexSql ∧
      List.Forall₂ schema.Describes schema.indexedProperties columns

/-- The indexed properties that the two separators and the fixed depth of the
check are made for. -/
structure Shallow (schema : Schema) : Prop where
  depth : ∀ nested ∈ schema.indexedProperties, nested.path.length ≤ 2
  parts : ∀ nested ∈ schema.indexedProperties,
    dunderParts (dunder nested.path) = nested.path
  plain : ∀ nested ∈ schema.indexedProperties, nested.path.length = 2 →
    nested.prop.jumpscaletype.NAME ≠ "numeric" ∧ nested.prop.unique = false
  shown : ∀ nested ∈ schema.indexedProperties, ∀ props, nested.prop.sub = some props →
    ∀ inner ∈ SchemaProperty.nestedList props, inner.prop.index = false

end Schema

/-! ## The columns are made from the indexed properties -/

namespace NestedProperty

@[simp] theorem column_jumpscaletype (nested : NestedProperty) :
    nested.column.jumpscaletype = nested.prop.jumpscaletype := by
  unfold column
  split <;> rfl

/-- The name of a column joins the names of the path. -/
theorem column_name {nested : NestedProperty} (some : nested.path ≠ []) :
    nested.column.name = dunder nested.path := by
  unfold column
  split
  · rename_i path
    rw [path]
  · rename_i path
    rw [path]
    rfl
  · rename_i path
    exact (some path).elim

/-- A column of a sub-object becomes one of the object that holds it. -/
theorem subIndexField_column {outer : SchemaProperty} {nested : NestedProperty}
    (some : nested.path ≠ []) :
    outer.subIndexField nested.column = (nested.below outer.name).column := by
  obtain ⟨path, prop⟩ := nested
  cases path with
  | nil => exact (some rfl).elim
  | cons first rest =>
      cases rest with
      | nil => rfl
      | cons second others => rfl

end NestedProperty

namespace SchemaProperty

/-- The properties of a sub-object. -/
def inside (prop : SchemaProperty) : List NestedProperty :=
  match prop.sub with
  | none => []
  | some props => (nestedList props).map (NestedProperty.below prop.name)

theorem nested_eq (prop : SchemaProperty) :
    nested prop = ⟨[prop.name], prop⟩ :: prop.inside := by
  obtain ⟨nr, name, jumpscaletype, index, unique, sub⟩ := prop
  cases sub <;> rfl

mutual

theorem path_ne_nil {prop : SchemaProperty} {inner : NestedProperty}
    (member : inner ∈ nested prop) : inner.path ≠ [] := by
  rw [nested_eq] at member
  rcases List.mem_cons.mp member with itself | within
  · rw [itself]
    exact List.cons_ne_nil _ _
  · unfold inside at within
    split at within
    · cases within
    · obtain ⟨deeper, _, rfl⟩ := List.mem_map.mp within
      exact List.cons_ne_nil _ _

theorem path_ne_nil_list {props : List SchemaProperty} {inner : NestedProperty}
    (member : inner ∈ nestedList props) : inner.path ≠ [] := by
  cases props with
  | nil => cases member
  | cons prop rest =>
      rw [nestedList, List.mem_append] at member
      rcases member with first | later
      · exact path_ne_nil first
      · exact path_ne_nil_list later

end

/-- The indexed ones among some properties. -/
def indexedOf (inner : List NestedProperty) : List NestedProperty :=
  inner.filter (fun nested => nested.prop.index)

theorem indexedOf_append (first second : List NestedProperty) :
    indexedOf (first ++ second) = indexedOf first ++ indexedOf second :=
  List.filter_append ..

theorem indexedOf_below (name : String) (inner : List NestedProperty) :
    indexedOf (inner.map (NestedProperty.below name)) =
      (indexedOf inner).map (NestedProperty.below name) := by
  rw [indexedOf, List.filter_map]
  rfl

theorem map_subIndexField (outer : SchemaProperty) {inner : List NestedProperty}
    (some : ∀ nested ∈ inner, nested.path ≠ []) :
    (inner.map NestedProperty.column).map outer.subIndexField =
      (inner.map (NestedProperty.below outer.name)).map NestedProperty.column := by
  rw [List.map_map, List.map_map]
  apply List.map_congr_left
  intro nested member
  exact NestedProperty.subIndexField_column (some nested member)

mutual

/-- Every column is the one of an indexed property. -/
theorem indexSql_sublist (prop : SchemaProperty) :
    ∃ listed : List NestedProperty, listed.Sublist (indexedOf (nested prop)) ∧
      indexSql prop = listed.map NestedProperty.column := by
  obtain ⟨nr, name, jumpscaletype, index, unique, sub⟩ := prop
  rw [nested_eq]
  cases index with
  | true =>
      refine ⟨[⟨[name], ⟨nr, name, jumpscaletype, true, unique, sub⟩⟩], ?_, ?_⟩
      · exact List.Sublist.cons_cons _ (List.nil_sublist _)
      · exact indexSql_of_index rfl
  | false =>
      cases sub with
      | none => exact ⟨[], List.nil_sublist _, rfl⟩
      | some props =>
          obtain ⟨listed, sublist, columns⟩ := indexSqlList_sublist props
          have some : ∀ inner ∈ listed, inner.path ≠ [] := by
            intro inner member
            exact path_ne_nil_list (List.mem_of_mem_filter (sublist.subset member))
          refine ⟨listed.map (NestedProperty.below name), ?_, ?_⟩
          · have inner := sublist.map (NestedProperty.below name)
            rw [← indexedOf_below] at inner
            exact inner
          · have columns' := map_subIndexField
              ⟨nr, name, jumpscaletype, false, unique, Option.some props⟩ some
            rw [← columns] at columns'
            exact columns'

theorem indexSqlList_sublist (props : List SchemaProperty) :
    ∃ listed : List NestedProperty, listed.Sublist (indexedOf (nestedList props)) ∧
      indexSqlList props = listed.map NestedProperty.column := by
  cases props with
  | nil => exact ⟨[], List.nil_sublist _, rfl⟩
  | cons prop rest =>
      obtain ⟨first, firstListed, firstColumns⟩ := indexSql_sublist prop
      obtain ⟨later, laterListed, laterColumns⟩ := indexSqlList_sublist rest
      refine ⟨first ++ later, ?_, ?_⟩
      · rw [nestedList, indexedOf_append]
        exact firstListed.append laterListed
      · rw [indexSqlList, firstColumns, laterColumns, List.map_append]

end

/-- No indexed property stands in a sub-object that is indexed itself. -/
def Shown (inner : List NestedProperty) : Prop :=
  ∀ nested ∈ inner, nested.prop.index = true → ∀ props, nested.prop.sub = some props →
    indexedOf (nestedList props) = []

theorem shown_append {first second : List NestedProperty} :
    Shown (first ++ second) ↔ Shown first ∧ Shown second := by
  simp only [Shown, List.mem_append, or_imp, forall_and]

theorem shown_below (name : String) (inner : List NestedProperty) :
    Shown (inner.map (NestedProperty.below name)) ↔ Shown inner := by
  simp only [Shown, List.forall_mem_map]
  rfl

theorem indexedOf_nested {prop : SchemaProperty} :
    indexedOf (nested prop) =
      (if prop.index then [⟨[prop.name], prop⟩] else []) ++ indexedOf prop.inside := by
  rw [nested_eq, indexedOf, List.filter_cons, indexedOf]
  split <;> rfl

/-- An indexed sub-object is one column, whatever stands in it. -/
theorem length_indexed_iff {prop : SchemaProperty} {props : List SchemaProperty}
    (indexed : prop.index = true) (sub : prop.sub = some props) :
    (indexSql prop).length = (indexedOf (nested prop)).length ↔ Shown (nested prop) := by
  have within : prop.inside = (nestedList props).map (NestedProperty.below prop.name) := by
    simp only [inside, sub]
  rw [indexSql_of_index indexed, indexedOf_nested, if_pos indexed, nested_eq, within,
    indexedOf_below]
  have fromItself : Shown (⟨[prop.name], prop⟩ ::
      (nestedList props).map (NestedProperty.below prop.name)) →
      indexedOf (nestedList props) = [] := by
    intro shown
    exact shown _ List.mem_cons_self indexed props sub
  constructor
  · intro lengths
    have nothing : indexedOf (nestedList props) = [] := by
      apply List.eq_nil_of_length_eq_zero
      simpa using lengths
    intro nested member nestedIndexed
    rcases List.mem_cons.mp member with itself | deeper
    · subst itself
      intro other same
      have equality : props = other := Option.some.inj (sub.symm.trans same)
      rw [← equality]
      exact nothing
    · obtain ⟨inner, innerMember, rfl⟩ := List.mem_map.mp deeper
      have listed : inner ∈ indexedOf (nestedList props) :=
        List.mem_filter.mpr ⟨innerMember, nestedIndexed⟩
      rw [nothing] at listed
      cases listed
  · intro shown
    simp [fromItself shown]

/-- A sub-object that is not indexed has the columns of its properties. -/
theorem length_plain_iff {prop : SchemaProperty} {props : List SchemaProperty}
    (plain : prop.index = false) (sub : prop.sub = some props) :
    ((indexSqlList props).length = (indexedOf (nestedList props)).length ↔
        Shown (nestedList props)) ↔
      ((indexSql prop).length = (indexedOf (nested prop)).length ↔ Shown (nested prop)) := by
  obtain ⟨nr, name, jumpscaletype, index, unique, _⟩ := prop
  change index = false at plain
  change _ = some props at sub
  subst plain sub
  have lengths : (indexSql ⟨nr, name, jumpscaletype, false, unique, some props⟩).length =
      (indexSqlList props).length := List.length_map _
  have inner :
      (indexedOf (nested ⟨nr, name, jumpscaletype, false, unique, some props⟩)).length =
        (indexedOf (nestedList props)).length := by
    simp [indexedOf_nested, inside, indexedOf_below]
  have shown : Shown (nested ⟨nr, name, jumpscaletype, false, unique, some props⟩) ↔
      Shown (nestedList props) := by
    rw [← shown_below name (nestedList props)]
    simp only [nested_eq, inside, Shown, List.forall_mem_cons, Bool.false_eq_true,
      false_implies, true_and]
  rw [lengths, inner, shown]

mutual

/-- There are as many columns as indexed properties when none is hidden. -/
theorem length_indexSql_iff (prop : SchemaProperty) :
    (indexSql prop).length = (indexedOf (nested prop)).length ↔ Shown (nested prop) := by
  obtain ⟨nr, name, jumpscaletype, index, unique, sub⟩ := prop
  cases sub with
  | none =>
      rw [nested_eq]
      cases index <;> simp [Shown, inside, indexSql, indexedOf]
  | some props =>
      cases index with
      | true =>
          exact length_indexed_iff rfl rfl
      | false =>
          rw [← length_plain_iff rfl rfl]
          exact length_indexSqlList_iff props

theorem length_indexSqlList_iff (props : List SchemaProperty) :
    (indexSqlList props).length = (indexedOf (nestedList props)).length ↔
      Shown (nestedList props) := by
  cases props with
  | nil => simp [indexSqlList, nestedList, indexedOf, Shown]
  | cons prop rest =>
      obtain ⟨first, firstListed, firstColumns⟩ := indexSql_sublist prop
      obtain ⟨later, laterListed, laterColumns⟩ := indexSqlList_sublist rest
      have firstLength := firstListed.length_le
      have laterLength := laterListed.length_le
      rw [nestedList, shown_append, ← length_indexSql_iff prop,
        ← length_indexSqlList_iff rest, indexSqlList, indexedOf_append,
        List.length_append, List.length_append, firstColumns, laterColumns,
        List.length_map, List.length_map]
      omega

end

/-! ## Where a property stands -/

theorem mem_nested_iff {prop : SchemaProperty} {inner : NestedProperty} :
    inner ∈ nested prop ↔ inner = ⟨[prop.name], prop⟩ ∨
      ∃ props, prop.sub = some props ∧
        ∃ deeper ∈ nestedList props, deeper.below prop.name = inner := by
  rw [nested_eq, List.mem_cons, inside]
  cases prop.sub with
  | none => simp
  | some props => simp

theorem mem_nestedList_iff {props : List SchemaProperty} {inner : NestedProperty} :
    inner ∈ nestedList props ↔ ∃ prop ∈ props, inner ∈ nested prop := by
  induction props with
  | nil => simp [nestedList]
  | cons prop rest induction => simp [nestedList, induction]

theorem head_path {prop : SchemaProperty} {inner : NestedProperty}
    (member : inner ∈ nested prop) : inner.path.head? = some prop.name := by
  rcases mem_nested_iff.mp member with itself | ⟨props, _, deeper, _, below⟩
  · rw [itself]
    rfl
  · rw [← below]
    rfl

theorem NamesApartList.of_mem {props : List SchemaProperty} {prop : SchemaProperty}
    (apart : NamesApartList props) (member : prop ∈ props) : NamesApart prop := by
  induction props with
  | nil => cases member
  | cons head rest induction =>
      rw [NamesApartList] at apart
      rcases List.mem_cons.mp member with first | later
      · rw [first]
        exact apart.1
      · exact induction apart.2 later

theorem NamesApart.of_sub {prop : SchemaProperty} {props : List SchemaProperty}
    (apart : NamesApart prop) (sub : prop.sub = some props) :
    (props.map SchemaProperty.name).Nodup ∧ NamesApartList props := by
  obtain ⟨nr, name, jumpscaletype, index, unique, _⟩ := prop
  change _ = some props at sub
  subst sub
  exact apart

theorem Holds.of_sub {prop : SchemaProperty} {props : List SchemaProperty} {value : PyVal}
    (holds : prop.Holds value) (sub : prop.sub = some props) :
    ∃ md5 fields, value = .jsx md5 fields ∧ HoldsList props fields := by
  obtain ⟨nr, name, jumpscaletype, index, unique, _⟩ := prop
  change _ = some props at sub
  subst sub
  rw [Holds] at holds
  exact holds

/-- Every property of a sub-object can be asked for. -/
theorem HoldsList.attribute {props : List SchemaProperty} {fields : List (String × PyVal)}
    (holds : HoldsList props fields) (apart : (props.map SchemaProperty.name).Nodup)
    (md5 : Md5) {prop : SchemaProperty} (member : prop ∈ props) :
    ∃ value, (PyVal.jsx md5 fields).attribute prop.name = .ok value ∧ prop.Holds value := by
  induction props generalizing fields with
  | nil => cases member
  | cons head rest induction =>
      rw [HoldsList] at holds
      obtain ⟨value, others, rfl, headHolds, restHolds⟩ := holds
      rw [List.map_cons, List.nodup_cons] at apart
      rcases List.mem_cons.mp member with first | later
      · subst first
        exact ⟨value, by simp [PyVal.attribute], headHolds⟩
      · have different : head.name ≠ prop.name := by
          intro same
          exact apart.1 (same ▸ List.mem_map_of_mem later)
        obtain ⟨found, reached, foundHolds⟩ := induction restHolds apart.2 later
        refine ⟨found, ?_, foundHolds⟩
        rw [← reached]
        simp [PyVal.attribute, different]

/-- The path of a nested property can be evaluated. -/
theorem HoldsList.attributes {props : List SchemaProperty} {fields : List (String × PyVal)}
    (holds : HoldsList props fields) (apart : (props.map SchemaProperty.name).Nodup)
    (deeperApart : NamesApartList props) (md5 : Md5) {inner : NestedProperty}
    (member : inner ∈ nestedList props) :
    ∃ value, inner.path.foldlM PyVal.attribute (.jsx md5 fields) = .ok value := by
  obtain ⟨path, innerProp⟩ := inner
  induction path generalizing props fields md5 with
  | nil => exact (path_ne_nil_list member rfl).elim
  | cons name rest induction =>
      obtain ⟨prop, propMember, within⟩ := mem_nestedList_iff.mp member
      obtain ⟨value, reached, valueHolds⟩ := holds.attribute apart md5 propMember
      rcases mem_nested_iff.mp within with itself | ⟨subProps, sub, deeper, deeperMember, same⟩
      · cases itself
        exact ⟨value, by simp [reached, bind, Except.bind]⟩
      · obtain ⟨deeperPath, deeperProp⟩ := deeper
        cases same
        obtain ⟨subMd5, subFields, rfl, subHolds⟩ := valueHolds.of_sub sub
        obtain ⟨subApart, subDeeper⟩ := (deeperApart.of_mem propMember).of_sub sub
        obtain ⟨found, evaluated⟩ := induction subHolds subApart subDeeper subMd5 deeperMember
        exact ⟨found, by simp [reached, evaluated, bind, Except.bind]⟩

mutual

theorem paths_nodup {prop : SchemaProperty} (apart : NamesApart prop) :
    ((nested prop).map NestedProperty.path).Nodup := by
  obtain ⟨nr, name, jumpscaletype, index, unique, sub⟩ := prop
  rw [nested_eq, List.map_cons, List.nodup_cons]
  cases sub with
  | none => simp [inside]
  | some props =>
      have inner := paths_nodup_list apart.1 apart.2
      constructor
      · intro member
        obtain ⟨deeper, deeperMember, same⟩ := List.mem_map.mp member
        obtain ⟨nested, nestedMember, rfl⟩ := List.mem_map.mp deeperMember
        simp only [NestedProperty.below, List.cons.injEq, true_and] at same
        exact path_ne_nil_list nestedMember same
      · have paths : (inside ⟨nr, name, jumpscaletype, index, unique, some props⟩).map
            NestedProperty.path =
            ((nestedList props).map NestedProperty.path).map (name :: ·) := by
          simp [inside, NestedProperty.below, Function.comp_def]
        rw [paths]
        exact inner.map (fun _ _ same => (List.cons.inj same).2)

theorem paths_nodup_list {props : List SchemaProperty}
    (names : (props.map SchemaProperty.name).Nodup) (apart : NamesApartList props) :
    ((nestedList props).map NestedProperty.path).Nodup := by
  cases props with
  | nil => exact List.nodup_nil
  | cons prop rest =>
      rw [NamesApartList] at apart
      rw [List.map_cons, List.nodup_cons] at names
      rw [nestedList, List.map_append, List.nodup_append]
      refine ⟨paths_nodup apart.1, paths_nodup_list names.2 apart.2, ?_⟩
      intro path first other later same
      obtain ⟨inner, innerMember, rfl⟩ := List.mem_map.mp first
      obtain ⟨outer, outerMember, rfl⟩ := List.mem_map.mp later
      obtain ⟨sibling, siblingMember, within⟩ := mem_nestedList_iff.mp outerMember
      have heads := head_path innerMember
      rw [same, head_path within, Option.some.injEq] at heads
      exact names.1 (heads ▸ List.mem_map_of_mem siblingMember)

end

/-! ## An object in which one property stands out -/

/-- What is left of a path behind a name. -/
def behind (name : String) : List String → List String
  | [] => []
  | first :: rest => if first = name then rest else []

mutual

/-- A value for a property in which the value at the path is marked. -/
def marked (path : List String) : SchemaProperty → PyVal
  | ⟨_, name, _, _, _, sub⟩ =>
      match sub with
      | none => .bool (decide (path = [name]))
      | some props =>
          .jsx (if path = [name] then "marked" else "") (markedFields (behind name path) props)

def markedFields (path : List String) : List SchemaProperty → List (String × PyVal)
  | [] => []
  | prop :: rest => (prop.name, marked path prop) :: markedFields path rest

end

def isMarked : PyVal → Bool
  | .bool value => value
  | .jsx md5 _ => decide (md5 = "marked")
  | _ => false

theorem isMarked_marked (path : List String) (prop : SchemaProperty) :
    isMarked (marked path prop) = decide (path = [prop.name]) := by
  obtain ⟨nr, name, jumpscaletype, index, unique, sub⟩ := prop
  cases sub with
  | none => rfl
  | some props =>
      by_cases here : path = [name] <;> simp [marked, isMarked, here]

mutual

theorem holds_marked (path : List String) (prop : SchemaProperty) :
    prop.Holds (marked path prop) := by
  obtain ⟨nr, name, jumpscaletype, index, unique, sub⟩ := prop
  cases sub with
  | none =>
      intro md5 fields same
      cases same
  | some props => exact ⟨_, _, rfl, holdsList_marked (behind name path) props⟩

theorem holdsList_marked (path : List String) (props : List SchemaProperty) :
    HoldsList props (markedFields path props) := by
  cases props with
  | nil => rfl
  | cons prop rest =>
      exact ⟨_, _, rfl, holds_marked path prop, holdsList_marked path rest⟩

end

theorem find?_markedFields {path : List String} {props : List SchemaProperty} {name : String}
    {item : String × PyVal}
    (found : (markedFields path props).find? (fun item => item.1 = name) = some item) :
    ∃ prop : SchemaProperty, prop.name = name ∧ item.2 = marked path prop := by
  induction props with
  | nil => cases found
  | cons prop rest induction =>
      rw [markedFields, List.find?_cons] at found
      by_cases same : prop.name = name
      · simp only [same, decide_true, Option.some.injEq] at found
        exact ⟨prop, same, by rw [← found]⟩
      · simp only [same, decide_false] at found
        exact induction found

/-- A path that can be evaluated leads to a marked value only when it is the
path of the mark. -/
theorem isMarked_of_foldlM {path : List String} {prop : SchemaProperty} {rest : List String}
    {value : PyVal}
    (evaluated : rest.foldlM PyVal.attribute (marked path prop) = .ok value) :
    isMarked value = decide (path = prop.name :: rest) := by
  induction rest generalizing path prop with
  | nil =>
      rw [List.foldlM_nil, pure_eq_ok_iff] at evaluated
      rw [← evaluated, isMarked_marked]
  | cons name rest induction =>
      obtain ⟨nr, own, jumpscaletype, index, unique, sub⟩ := prop
      rw [List.foldlM_cons, bind_eq_ok_iff] at evaluated
      obtain ⟨between, reached, later⟩ := evaluated
      cases sub with
      | none => simp [marked, PyVal.attribute] at reached
      | some props =>
          simp only [marked, PyVal.attribute] at reached
          split at reached
          · rename_i item found
            obtain ⟨inner, named, markedValue⟩ := find?_markedFields found
            rw [Except.ok.injEq, markedValue] at reached
            rw [← reached] at later
            rw [induction later, named, decide_eq_decide]
            cases path with
            | nil => simp [behind]
            | cons first others =>
                by_cases same : first = own <;> simp [behind, same]
          · cases reached

end SchemaProperty

namespace Schema

/-- An object of the schema with a mark at the path. -/
def markedObject (schema : Schema) (path : List String) : JSXObject :=
  { schema := schema
    model := none
    capnpObj := .empty
    deserializedItems := fun name =>
      (schema.property? name).map (SchemaProperty.marked path)
    changed := true
    id := none
    nid := 1
    aclId := none }

theorem readProp_markedObject {schema : Schema} {path : List String} {prop : SchemaProperty}
    (member : prop ∈ schema.properties) :
    (schema.markedObject path).readProp prop = .ok (prop.marked path) := by
  simp [markedObject, JSXObject.readProp, property?_of_mem member]

theorem objectOf_markedObject (schema : Schema) (path : List String) :
    schema.ObjectOf (schema.markedObject path) := by
  constructor
  · rfl
  · intro prop member
    exact ⟨_, readProp_markedObject member, SchemaProperty.holds_marked path prop⟩

theorem isMarked_of_attributes {schema : Schema} {path other : List String} {value : PyVal}
    (evaluated : (schema.markedObject path).attributes other = .ok value) :
    SchemaProperty.isMarked value = decide (path = other) := by
  cases other with
  | nil => cases evaluated
  | cons name rest =>
      rw [JSXObject.attributes, bind_eq_ok_iff] at evaluated
      obtain ⟨first, got, later⟩ := evaluated
      unfold JSXObject.getattr at got
      split at got
      · rename_i prop found
        obtain ⟨member, named⟩ := property?_mem found
        have known : prop ∈ schema.properties := member
        rw [readProp_markedObject known, Except.ok.injEq] at got
        rw [← got] at later
        rw [← named]
        exact SchemaProperty.isMarked_of_foldlM later
      · cases got

/-- The marked value is found on no other path. -/
theorem path_of_marked {schema : Schema} {path other : List String} {value : PyVal}
    (here : (schema.markedObject path).attributes path = .ok value)
    (there : (schema.markedObject path).attributes other = .ok value) : path = other := by
  have atPath := isMarked_of_attributes here
  rw [isMarked_of_attributes there, decide_eq_decide] at atPath
  exact atPath.mpr rfl

end Schema

/-! ## What the class and the check evaluate -/

theorem attributes_singleton (obj : JSXObject) (name : String) :
    obj.attributes [name] = obj.getattr name := by
  simp [JSXObject.attributes]

theorem attributes_pair (obj : JSXObject) (prop sub : String) :
    obj.attributes [prop, sub] = (do (← obj.getattr prop).attribute sub) := by
  simp [JSXObject.attributes]

theorem checkedValue_eq (obj : JSXObject) (name : String) :
    checkedValue obj name = obj.attributes (checkedPath name) := by
  unfold checkedValue checkedPath
  cases dunderParts name with
  | nil => exact (attributes_singleton obj name).symm
  | cons prop others =>
      cases others with
      | nil => exact (attributes_singleton obj name).symm
      | cons sub rest =>
          simp only [attributes_pair]
          rfl

/-- The path that the generated class evaluates, but for the number of a
sub-object, where it asks the object itself. -/
theorem columnValue_eq {obj : JSXObject} {field : IndexField} {value : PyVal}
    (evaluated : obj.columnValue field = .ok value) :
    (∃ name, obj.attributes [name] = .ok value ∧ (field.attr = none → name = field.name)) ∨
      ∃ prop sub, field.attr = some (prop, sub) ∧ field.jumpscaletype.NAME ≠ "numeric" ∧
        obj.attributes [prop, sub] = .ok value := by
  unfold JSXObject.columnValue at evaluated
  split at evaluated
  · rename_i attr
    exact .inl ⟨field.name, by rw [attributes_singleton, evaluated], fun _ => rfl⟩
  · rename_i prop sub attr
    split at evaluated
    · left
      split at evaluated
      · rename_i own found
        split at evaluated
        · refine ⟨field.name, ?_, by simp [attr]⟩
          rw [attributes_singleton, JSXObject.getattr, found]
          exact evaluated
        · exact ⟨_, by rw [attributes_singleton, evaluated], by simp [attr]⟩
      · exact ⟨_, by rw [attributes_singleton, evaluated], by simp [attr]⟩
    · rename_i other
      right
      refine ⟨prop, sub, attr, other, ?_⟩
      rw [attributes_pair, ← evaluated]
      rfl

theorem columnValue_pair {obj : JSXObject} {field : IndexField} {prop sub : String}
    (attr : field.attr = some (prop, sub)) (other : field.jumpscaletype.NAME ≠ "numeric") :
    obj.columnValue field = obj.attributes [prop, sub] := by
  simp only [JSXObject.columnValue, attr, other, if_false]
  rw [attributes_pair]
  rfl

theorem Schema.ObjectOf.attributes_ok {schema : NestedSchema} {obj : JSXObject}
    (made : schema.ObjectOf obj) {nested : NestedProperty}
    (member : nested ∈ SchemaProperty.nestedList schema.properties) :
    ∃ value, obj.attributes nested.path = .ok value := by
  obtain ⟨prop, propMember, within⟩ := SchemaProperty.mem_nestedList_iff.mp member
  obtain ⟨value, read, holds⟩ := made.holds prop propMember
  have got : obj.getattr prop.name = .ok value := by
    rw [JSXObject.getattr, made.made, Schema.property?_of_mem propMember]
    exact read
  rcases SchemaProperty.mem_nested_iff.mp within with
    rfl | ⟨props, sub, deeper, deeperMember, rfl⟩
  · exact ⟨value, by rw [attributes_singleton, got]⟩
  · obtain ⟨md5, fields, rfl, subHolds⟩ := holds.of_sub sub
    obtain ⟨subApart, subDeeper⟩ := (schema.namesApart.of_mem propMember).of_sub sub
    obtain ⟨found, evaluated⟩ := subHolds.attributes subApart subDeeper md5 deeperMember
    exact ⟨found, by
      rw [NestedProperty.below, JSXObject.attributes, got]
      exact evaluated⟩

theorem dunder_dotless {path : List String} (dotless : ∀ name ∈ path, '.' ∉ name.toList) :
    '.' ∉ (dunder path).toList := by
  fun_induction dunder path with
  | case1 => simp
  | case2 name => exact dotless name List.mem_cons_self
  | case3 name rest other induction =>
      have first := dotless name List.mem_cons_self
      have later := induction (fun inner member => dotless inner (List.mem_cons_of_mem _ member))
      simp [first, later]

namespace NestedSchema

variable {schema : NestedSchema}

theorem shown_iff :
    SchemaProperty.Shown (SchemaProperty.nestedList schema.properties) ↔
      ∀ nested ∈ schema.indexedProperties, ∀ props, nested.prop.sub = some props →
        ∀ inner ∈ SchemaProperty.nestedList props, inner.prop.index = false := by
  simp only [SchemaProperty.Shown, Schema.indexedProperties, List.mem_filter, and_imp,
    SchemaProperty.indexedOf, List.filter_eq_nil_iff, Bool.not_eq_true]

/-- Without hidden properties the columns are those of the indexed ones. -/
theorem columns_eq
    (lengths : schema.propertiesIndexSql.length = schema.indexedProperties.length) :
    schema.propertiesIndexSql = schema.indexedProperties.map NestedProperty.column := by
  obtain ⟨listed, sublist, columns⟩ := SchemaProperty.indexSqlList_sublist schema.properties
  have made : schema.propertiesIndexSql = listed.map NestedProperty.column := columns
  rw [made, List.length_map] at lengths
  rw [made, sublist.eq_of_length lengths]
  rfl

theorem lengths_iff :
    schema.propertiesIndexSql.length = schema.indexedProperties.length ↔
      SchemaProperty.Shown (SchemaProperty.nestedList schema.properties) :=
  SchemaProperty.length_indexSqlList_iff schema.properties

theorem indexed_path_ne_nil {nested : NestedProperty}
    (member : nested ∈ schema.indexedProperties) : nested.path ≠ [] :=
  SchemaProperty.path_ne_nil_list (List.mem_of_mem_filter member)

theorem indexed_paths_nodup : (schema.indexedProperties.map NestedProperty.path).Nodup :=
  (SchemaProperty.paths_nodup_list schema.namesDistinct schema.namesApart).sublist
    (List.filter_sublist.map _)

/-- The columns of a shallow schema are named apart. -/
theorem columnNames_nodup (shallow : schema.Shallow) :
    ((schema.indexedProperties.map NestedProperty.column).map IndexField.name).Nodup := by
  have paths : (schema.indexedProperties.map NestedProperty.path).Nodup := indexed_paths_nodup
  rw [List.map_map]
  apply List.Nodup.map_on ?_ paths.of_map
  intro nested member other otherMember same
  simp only [Function.comp_apply,
    NestedProperty.column_name (indexed_path_ne_nil member),
    NestedProperty.column_name (indexed_path_ne_nil otherMember)] at same
  have path : nested.path = other.path := by
    rw [← shallow.parts nested member, ← shallow.parts other otherMember, same]
  exact List.inj_on_of_nodup_map paths member otherMember path

/-- The column of an indexed property of a shallow schema is the right one. -/
theorem describes_column (shallow : schema.Shallow) {nested : NestedProperty}
    (member : nested ∈ schema.indexedProperties) :
    schema.Describes nested nested.column := by
  have listed := List.mem_of_mem_filter member
  have named := NestedProperty.column_name (indexed_path_ne_nil member)
  have parts := shallow.parts nested member
  have depth := shallow.depth nested member
  have plain := shallow.plain nested member
  have evaluable : ∀ obj, schema.ObjectOf obj →
      ∃ value, obj.attributes nested.path = .ok value :=
    fun obj made => made.attributes_ok listed
  have dotless : '.' ∉ nested.column.name.toList := by
    rw [named]
    exact dunder_dotless (schema.dotless nested listed)
  have same : (∀ obj : JSXObject, obj.columnValue nested.column = obj.attributes nested.path) ∧
      checkedPath nested.column.name = nested.path ∧
      nested.column.unique = nested.prop.unique := by
    rw [named, checkedPath, parts]
    obtain ⟨path, prop⟩ := nested
    match path with
    | [] => exact (indexed_path_ne_nil member rfl).elim
    | [name] => exact ⟨fun obj => (attributes_singleton obj name).symm, rfl, rfl⟩
    | [outer, inner] =>
        obtain ⟨notNumeric, notUnique⟩ := plain rfl
        exact ⟨fun obj => columnValue_pair rfl notNumeric, rfl, notUnique.symm⟩
    | _ :: _ :: _ :: _ => simp at depth
  obtain ⟨column, checked, unique⟩ := same
  refine ⟨?_, ?_, dotless, unique⟩
  · intro obj made
    obtain ⟨value, evaluated⟩ := evaluable obj made
    exact ⟨value, evaluated, by rw [column, evaluated]⟩
  · intro obj made
    obtain ⟨value, evaluated⟩ := evaluable obj made
    exact ⟨value, evaluated, by rw [checkedValue_eq, checked, evaluated]⟩

/-- What a right column tells about the property that it is for. -/
theorem path_of_describes {nested other : NestedProperty}
    (otherMember : other ∈ schema.indexedProperties)
    (describes : schema.Describes nested other.column) :
    dunder nested.path = other.column.name ∧
      dunderParts other.column.name = nested.path ∧ nested.path.length ≤ 2 ∧
      (nested.path.length = 2 → other.column.unique = false ∧
        other.prop.jumpscaletype.NAME ≠ "numeric") := by
  have checked : nested.path = checkedPath other.column.name := by
    obtain ⟨value, evaluated, found⟩ :=
      describes.checked _ (schema.objectOf_markedObject nested.path)
    rw [checkedValue_eq] at found
    exact Schema.path_of_marked evaluated found
  have joined : dunder nested.path = other.column.name ∧ nested.path.length ≤ 2 ∧
      (nested.path.length = 2 → other.column.unique = false ∧
        other.prop.jumpscaletype.NAME ≠ "numeric") := by
    obtain ⟨value, evaluated, found⟩ :=
      describes.value _ (schema.objectOf_markedObject nested.path)
    obtain ⟨path, prop⟩ := other
    match path with
    | [] => exact (indexed_path_ne_nil otherMember rfl).elim
    | [name] =>
        rcases columnValue_eq found with ⟨own, reached, named⟩ | ⟨_, _, attr, _⟩
        · rw [Schema.path_of_marked evaluated reached, named rfl]
          exact ⟨rfl, by simp, by simp⟩
        · cases attr
    | outer :: inner :: rest =>
        rcases columnValue_eq found with
          ⟨own, reached, _⟩ | ⟨first, second, attr, other, reached⟩
        · have single := Schema.path_of_marked evaluated reached
          obtain ⟨first, second, taken⟩ := checkedPath_append outer (dunder (inner :: rest))
          have pair : checkedPath (NestedProperty.column ⟨outer :: inner :: rest, prop⟩).name =
              [first, second] := taken
          rw [checked, pair] at single
          cases single
        · have same : (outer, dunder (inner :: rest)) = (first, second) := Option.some.inj attr
          cases same
          rw [Schema.path_of_marked evaluated reached]
          exact ⟨rfl, by simp, fun _ => ⟨rfl, other⟩⟩
  exact ⟨joined.1, dunderParts_of_checkedPath checked.symm joined.1, joined.2⟩

/-- The columns of nested properties are right exactly when the schema is
shallow. -/
theorem columnsRight_iff (schema : NestedSchema) : schema.ColumnsRight ↔ schema.Shallow := by
  constructor
  · intro ⟨names, columns, permutation, described⟩
    have lengths : schema.propertiesIndexSql.length = schema.indexedProperties.length := by
      rw [← permutation.length_eq, described.length_eq]
    have columnsOf := columns_eq lengths
    have reached : ∀ nested ∈ schema.indexedProperties,
        ∃ other ∈ schema.indexedProperties, schema.Describes nested other.column := by
      intro nested member
      obtain ⟨field, fieldMember, describes⟩ := Fallible.exists_of_mem_left described member
      rw [permutation.mem_iff, columnsOf] at fieldMember
      obtain ⟨other, otherMember, rfl⟩ := List.mem_map.mp fieldMember
      exact ⟨other, otherMember, describes⟩
    constructor
    · intro nested member
      obtain ⟨other, otherMember, describes⟩ := reached nested member
      exact (path_of_describes otherMember describes).2.2.1
    · intro nested member
      obtain ⟨other, otherMember, describes⟩ := reached nested member
      obtain ⟨joined, parts, _⟩ := path_of_describes otherMember describes
      rw [joined, parts]
    · intro nested member two
      obtain ⟨other, otherMember, describes⟩ := reached nested member
      obtain ⟨joined, _, _, plain⟩ := path_of_describes otherMember describes
      obtain ⟨unique, notNumeric⟩ := plain two
      have same : nested = other := by
        rw [columnsOf, List.map_map] at names
        apply List.inj_on_of_nodup_map names member otherMember
        rw [Function.comp_apply, Function.comp_apply,
          NestedProperty.column_name (indexed_path_ne_nil member), joined]
      exact ⟨same ▸ notNumeric, describes.unique.symm.trans unique⟩
    · exact shown_iff.mp (lengths_iff.mp lengths)
  · intro shallow
    have columns := columns_eq (lengths_iff.mpr (shown_iff.mpr shallow.shown))
    rw [Schema.ColumnsRight, columns]
    refine ⟨columnNames_nodup shallow, _, List.Perm.refl _, ?_⟩
    rw [List.forall₂_map_right_iff, List.forall₂_same]
    intro nested member
    exact describes_column shallow member

end NestedSchema

/-- The type object of a sub-object, as far as a column asks it. -/
def objectType : JSType :=
  { stringType "" with
    NAME := "jsxobject"
    clean := .ok
    cleanRaises := fun _ => .ok _ }

/-- A schema with the property `0: part = (O)` and, in the sub-object,
`0: &code = (S)`. -/
def partWithCode : NestedSchema where
  url := "test.machine"
  md5 := "1"
  properties :=
    [⟨0, "part", objectType, false, false,
      some [⟨0, "code", stringType "", true, true, none⟩]⟩]
  namesDistinct := by simp
  nameUnique := by simp
  namesApart := by
    simp [SchemaProperty.NamesApartList, SchemaProperty.NamesApart]
  dotless := by
    simp [SchemaProperty.nestedList, SchemaProperty.nested, NestedProperty.below]

/-- The column of a unique property of a sub-object is not unique. -/
theorem nested_unique_lost : ¬ partWithCode.ColumnsRight := by
  intro ⟨_, columns, permutation, described⟩
  have listed : partWithCode.propertiesIndexSql =
      [⟨"part__code", some ("part", "code"), stringType "", false⟩] := rfl
  have indexed : partWithCode.indexedProperties =
      [⟨["part", "code"], ⟨0, "code", stringType "", true, true, none⟩⟩] := rfl
  rw [listed, List.perm_singleton] at permutation
  rw [permutation, indexed] at described
  cases described with
  | cons describes _ => cases describes.unique

end JumpscaleX
