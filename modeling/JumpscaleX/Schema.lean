import Mathlib.Data.List.Nodup
import JumpscaleX.Value

/-!
# Schemas

A schema as `SchemaFactory` hands it out: its url, its md5 and its
properties.  `propertiesIndexSql` and `propertiesUnique` are the lists the
index class and the uniqueness check are generated from, and `key` is the
name under which a model keeps its index table.
-/

namespace JumpscaleX

/-- `SchemaProperty`.  `sub` holds the properties of the sub-object's schema
when the property is a JSX object. -/
structure SchemaProperty where
  nr : Nat
  name : String
  jumpscaletype : JSType
  index : Bool
  unique : Bool
  sub : Option (List SchemaProperty)

/-- A column of the index table: `IndexField`.  A column of a sub-object
carries the attribute path by which the value is reached. -/
structure IndexField where
  name : String
  attr : Option (String × String)
  jumpscaletype : JSType
  unique : Bool

namespace SchemaProperty

def isJsxobject (prop : SchemaProperty) : Bool :=
  prop.sub.isSome

/-- The column of a property that is itself indexed. -/
def indexField (prop : SchemaProperty) : IndexField :=
  { name := prop.name
    attr := none
    jumpscaletype := prop.jumpscaletype
    unique := prop.unique }

/-- The column of an indexed property of a sub-object.  The copy made for the
parent does not take over the unique flag. -/
def subIndexField (prop : SchemaProperty) (field : IndexField) : IndexField :=
  { name := prop.name ++ "__" ++ field.name
    attr := some (prop.name, field.name)
    jumpscaletype := field.jumpscaletype
    unique := false }

mutual

/-- The columns that one property contributes to `properties_index_sql`. -/
def indexSql : SchemaProperty → List IndexField
  | ⟨nr, name, jumpscaletype, index, unique, sub⟩ =>
      if index then
        [indexField ⟨nr, name, jumpscaletype, index, unique, sub⟩]
      else
        match sub with
        | none => []
        | some props =>
            (indexSqlList props).map
              (subIndexField ⟨nr, name, jumpscaletype, index, unique, some props⟩)

def indexSqlList : List SchemaProperty → List IndexField
  | [] => []
  | prop :: rest => indexSql prop ++ indexSqlList rest

end

theorem indexSql_of_index {prop : SchemaProperty} (indexed : prop.index = true) :
    indexSql prop = [prop.indexField] := by
  obtain ⟨nr, name, jumpscaletype, index, unique, sub⟩ := prop
  change index = true at indexed
  subst indexed
  cases sub <;> rfl

end SchemaProperty

/-- A schema.  The parser keeps the properties in a dict by name, and makes a
property called `name` unique whatever its line says. -/
structure Schema where
  url : Url
  md5 : Md5
  properties : List SchemaProperty
  namesDistinct : (properties.map SchemaProperty.name).Nodup
  nameUnique : ∀ prop ∈ properties, prop.name = "name" → prop.unique = true

/-- `j.core.text.strip_to_ascii_dense` on a text of ASCII characters. -/
def stripToAsciiDense (text : String) : String :=
  let lower := text.toList.map Char.toLower
  let dense := lower.filter (fun char => char ≠ '\n' ∧ char ≠ '\t' ∧ char ≠ ' ')
  let replaced := dense.map (fun char =>
    if char ∈ "-/\\= ;!+()".toList then '_' else char)
  let checked := replaced.filter (fun char =>
    char = '.' ∨ char = '_' ∨ char.isDigit ∨ char.isLower)
  String.ofList (stripUnderscores (collapse checked))
where
  /-- Replace every run of underscores by one. -/
  collapse : List Char → List Char
    | '_' :: '_' :: rest => collapse ('_' :: rest)
    | char :: rest => char :: collapse rest
    | [] => []
  stripUnderscores (chars : List Char) : List Char :=
    (chars.reverse.dropWhile (· = '_')).reverse

namespace Schema

/-- `Schema.key`, the dense url with underscores for its dots. -/
def key (schema : Schema) : String :=
  String.ofList ((stripToAsciiDense schema.url).toList.map
    (fun char => if char = '.' then '_' else char))

def property? (schema : Schema) (name : String) : Option SchemaProperty :=
  schema.properties.find? (fun prop => prop.name = name)

/-- `Schema.properties_index_sql`. -/
def propertiesIndexSql (schema : Schema) : List IndexField :=
  SchemaProperty.indexSqlList schema.properties

/-- `Schema.properties_unique`. -/
def propertiesUnique (schema : Schema) : List SchemaProperty :=
  schema.properties.filter SchemaProperty.unique

/-- `hasattr(obj, "name")` for an object of the schema. -/
def hasName (schema : Schema) : Bool :=
  (schema.property? "name").isSome

theorem property?_mem {schema : Schema} {name : String} {prop : SchemaProperty}
    (found : schema.property? name = some prop) :
    prop ∈ schema.properties ∧ prop.name = name := by
  have named := List.find?_some found
  exact ⟨List.mem_of_find?_eq_some found, by simpa using named⟩

theorem property?_of_mem {schema : Schema} {prop : SchemaProperty}
    (member : prop ∈ schema.properties) :
    schema.property? prop.name = some prop := by
  cases found : schema.property? prop.name with
  | none =>
      have absent := List.find?_eq_none.mp found prop member
      simp at absent
  | some other =>
      obtain ⟨otherMember, sameName⟩ := property?_mem found
      have equality : other = prop :=
        List.inj_on_of_nodup_map schema.namesDistinct otherMember member sameName
      rw [equality]

end Schema

namespace SchemaProperty

/-- The column of a property that is indexed itself is among the columns. -/
theorem indexField_mem_indexSqlList
    {prop : SchemaProperty} {props : List SchemaProperty}
    (member : prop ∈ props) (indexed : prop.index = true) :
    prop.indexField ∈ indexSqlList props := by
  induction props with
  | nil => cases member
  | cons head rest induction =>
      simp only [indexSqlList, List.mem_append]
      rcases List.mem_cons.mp member with first | later
      · left
        subst first
        rw [indexSql_of_index indexed]
        exact List.mem_singleton.mpr rfl
      · exact .inr (induction later)

end SchemaProperty

/-- The schemas in memory: every version by its md5, and the newest version
of every url. -/
structure SchemaFactory where
  schemasMd5 : Md5 → Option Schema
  schemasLoaded : Url → Option Schema
  md5Named : ∀ {md5 schema}, schemasMd5 md5 = some schema → schema.md5 = md5
  urlNamed : ∀ {url schema}, schemasLoaded url = some schema → schema.url = url
  loadedKnown : ∀ {url schema},
    schemasLoaded url = some schema → schemasMd5 schema.md5 = some schema
  versionsLoaded : ∀ {md5 schema},
    schemasMd5 md5 = some schema → ∃ newest, schemasLoaded schema.url = some newest

namespace SchemaFactory

def getFromMd5 (factory : SchemaFactory) (md5 : Md5) : Except Exn Schema :=
  match factory.schemasMd5 md5 with
  | some schema => .ok schema
  | none => .error (.input .schemaNotFound)

def getFromUrl (factory : SchemaFactory) (url : Url) : Except Exn Schema :=
  match factory.schemasLoaded url with
  | some schema => .ok schema
  | none => .error (.input .schemaNotFound)

/-- The newest version of the url that a stored md5 belongs to. -/
def newestOf (factory : SchemaFactory) (md5 : Md5) : Option Schema :=
  (factory.schemasMd5 md5).bind (fun schema => factory.schemasLoaded schema.url)

theorem newestOf_isSome {factory : SchemaFactory} {md5 : Md5} {schema : Schema}
    (known : factory.schemasMd5 md5 = some schema) :
    ∃ newest, factory.newestOf md5 = some newest ∧ newest.url = schema.url := by
  obtain ⟨newest, loaded⟩ := factory.versionsLoaded known
  exact ⟨newest, by simp [newestOf, known, loaded], factory.urlNamed loaded⟩

/-- The factory after schemas of distinct md5s were registered, the newest one
first in the list. -/
def ofList (schemas : List Schema) (distinct : (schemas.map Schema.md5).Nodup) :
    SchemaFactory where
  schemasMd5 md5 := schemas.find? (fun schema => schema.md5 = md5)
  schemasLoaded url := schemas.find? (fun schema => schema.url = url)
  md5Named := by
    intro md5 schema found
    simpa using List.find?_some found
  urlNamed := by
    intro url schema found
    simpa using List.find?_some found
  loadedKnown := by
    intro url schema loaded
    have member := List.mem_of_find?_eq_some loaded
    cases found : schemas.find? (fun other => other.md5 = schema.md5) with
    | none =>
        have absent := List.find?_eq_none.mp found schema member
        simp at absent
    | some other =>
        have sameMd5 : other.md5 = schema.md5 := by
          simpa using List.find?_some found
        have same : other = schema := List.inj_on_of_nodup_map distinct
          (List.mem_of_find?_eq_some found) member sameMd5
        rw [same]
  versionsLoaded := by
    intro md5 schema found
    have member := List.mem_of_find?_eq_some found
    cases loaded : schemas.find? (fun other => other.url = schema.url) with
    | none =>
        have absent := List.find?_eq_none.mp loaded schema member
        simp at absent
    | some newest => exact ⟨newest, rfl⟩

end SchemaFactory

end JumpscaleX
