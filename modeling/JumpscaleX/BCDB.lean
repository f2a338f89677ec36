import JumpscaleX.StorClient
import JumpscaleX.BCDBModelIndex

/-!
# The database

`BCDB` holds the store client shared by all models, the index tables, the
models in memory and the urls it knows.  The operations of this module find
the model of a schema and turn stored data into objects.
-/

namespace JumpscaleX

open Fallible Stateful

/-- A model in memory.  Its index class is generated once, from the schema
that it had when it was made. -/
structure Model where
  schema : Schema
  index : List IndexField
  readonly : Bool
  nosave : Bool

/-- The name of the model's index table. -/
def Model.key (model : Model) : String :=
  model.schema.key

/-- The columns that the generated class declares. -/
def Model.columns (model : Model) : List Column :=
  model.index.map (fun field => { name := field.name, unique := field.unique })

/-- The model that is made for a schema. -/
def Schema.model (schema : Schema) : Model where
  schema := schema
  index := schema.propertiesIndexSql
  readonly := false
  nosave := false

/-- The models in memory by their url. -/
structure Models where
  find : Url → Option Model
  named : ∀ {url model}, find url = some model → model.schema.url = url

namespace Models

def empty : Models :=
  ⟨fun _ => none, fun found => by cases found⟩

def add (models : Models) (model : Model) : Models where
  find := Function.update models.find model.schema.url (some model)
  named := by
    intro url other found
    by_cases same : url = model.schema.url
    · subst same
      simp only [Function.update_self, Option.some.injEq] at found
      rw [← found]
    · rw [Function.update_of_ne same] at found
      exact models.named found

theorem find_add (models : Models) (model : Model) (url : Url) :
    (models.add model).find url =
      if url = model.schema.url then some model else models.find url := by
  by_cases same : url = model.schema.url
  · subst same
    simp [add]
  · simp [add, same]

end Models

/-- A database.  `indexReadonly` tells that the file of the index was opened
with `mode=ro`. -/
structure BCDB where
  readonly : Bool
  indexReadonly : Bool
  storclient : StorClient
  tables : String → Option Table
  models : Models
  urls : List Url
  schemaFactory : SchemaFactory

/-- A computation on a database. -/
abbrev BCDBM := EStateM Exn BCDB

namespace BCDB

/-- `_is_writable_check`: the answer that every caller drops. -/
def isWritableCheck (bcdb : BCDB) : Bool :=
  !bcdb.readonly

def urlSet (bcdb : BCDB) (url : Url) : BCDB :=
  { bcdb with urls := if url ∈ bcdb.urls then bcdb.urls else bcdb.urls ++ [url] }

/-- The model of a url, which its caller holds. -/
def model (url : Url) (bcdb : BCDB) : Except Exn Model :=
  match bcdb.models.find url with
  | some model => .ok model
  | none => .error (.keyError url)

/-- `model_add` of a new model.  On the master its table is created when it is
missing. -/
def addModel (bcdb : BCDB) (model : Model) : BCDB :=
  let tables :=
    if !bcdb.readonly && (bcdb.tables model.key).isNone then
      Function.update bcdb.tables model.key (some (Table.create model.columns))
    else bcdb.tables
  ({ bcdb with models := bcdb.models.add model, tables := tables }).urlSet
    model.schema.url

/-- `BCDBModel(schema_url=url)` and `model_add`: the model takes the newest
schema of the url. -/
def modelAdd (bcdb : BCDB) (url : Url) : Except Exn BCDB := do
  let schema ← bcdb.schemaFactory.getFromUrl url
  return bcdb.addModel schema.model

/-- `model.schema_change`, and the assignment in `model_get`. -/
def schemaChange (bcdb : BCDB) (schema : Schema) : BCDB :=
  match bcdb.models.find schema.url with
  | some model =>
      if model.schema.md5 = schema.md5 then bcdb
      else { bcdb with models := bcdb.models.add { model with schema := schema } }
  | none => bcdb

/-- `model_get(schema=schema)`. -/
def modelGet (bcdb : BCDB) (schema : Schema) : Except Exn BCDB :=
  match bcdb.models.find schema.url with
  | some _ => .ok (bcdb.schemaChange schema)
  | none => bcdb.modelAdd schema.url

/-- Replace the table under a key. -/
def setTable (bcdb : BCDB) (key : String) (table : Table) : BCDB :=
  { bcdb with tables := Function.update bcdb.tables key (some table) }

section setTable

variable (bcdb : BCDB) (key : String) (table : Table)

@[simp] theorem setTable_models :
    (bcdb.setTable key table).models = bcdb.models := rfl

@[simp] theorem setTable_indexReadonly :
    (bcdb.setTable key table).indexReadonly = bcdb.indexReadonly := rfl

@[simp] theorem setTable_storclient :
    (bcdb.setTable key table).storclient = bcdb.storclient := rfl

@[simp] theorem setTable_schemaFactory :
    (bcdb.setTable key table).schemaFactory = bcdb.schemaFactory := rfl

@[simp] theorem setTable_readonly :
    (bcdb.setTable key table).readonly = bcdb.readonly := rfl

@[simp] theorem setTable_tables_self :
    (bcdb.setTable key table).tables key = some table :=
  Function.update_self ..

theorem setTable_tables_of_ne {other : String} (different : other ≠ key) :
    (bcdb.setTable key table).tables other = bcdb.tables other :=
  Function.update_of_ne different ..

@[simp] theorem setTable_setTable (table' : Table) :
    (bcdb.setTable key table).setTable key table' = bcdb.setTable key table' := by
  simp [setTable]

end setTable

/-- Change the table of a model.  A read-only index file refuses the
statement. -/
def writeTable (bcdb : BCDB) (model : Model)
    (change : Table → Except Exn Table) : Except Exn BCDB :=
  match bcdb.tables model.key with
  | none => .error (.operationalError "no such table")
  | some table => do
      ensure (bcdb.indexReadonly = false)
        (.operationalError "attempt to write a readonly database")
      let table ← change table
      return bcdb.setTable model.key table

/-- The schema that `_unserialize` works with: the given one, or the version
that the record was stored under. -/
def versionOf (record : Record) (schema? : Option Schema) (bcdb : BCDB) :
    Except Exn Schema :=
  match schema? with
  | some schema => .ok schema
  | none => bcdb.schemaFactory.getFromMd5 record.bdata.md5

/-- The attributes that come from the store and not from the message. -/
def withStoredAttributes (id : Nat) (record : Record) (obj : JSXObject) :
    JSXObject :=
  { obj with
    nid := record.nid
    id := if obj.id.getD 0 = 0 ∧ id ≠ 0 then some id else obj.id
    aclId := if record.aclId.getD 0 = 0 then obj.aclId else record.aclId }

/-- `_unserialize`. -/
def unserialize (id : Nat) (data : Stored) (schema? : Option Schema) :
    BCDBM JSXObject :=
  match data with
  | .record record => do
      let schema ← query (versionOf record schema?)
      advance (fun bcdb => bcdb.modelGet schema)
      let obj ← query (fun bcdb =>
        bcdb.schemaFactory.loads record.bdata (some schema.url))
      runIf (record.bdata.md5 ≠ obj.schema.md5 ∧ schema.url = obj.schema.url)
        (modify (fun bcdb => bcdb.schemaChange obj.schema))
      attempt (ensure (obj.schema.md5 = schema.md5) .assertionError)
      return withStoredAttributes id record obj
  | _ => throw (.valueError "Unpack failed")

/-- `obj_get`. -/
def objGet (id : Nat) : BCDBM (Option JSXObject) := do
  let bcdb ← getThe BCDB
  match bcdb.storclient.get id with
  | none => return none
  | some data =>
      let obj ← unserialize id data none
      return some obj

/-- What the walk over the store yields for an entry, with `none` for the
empty string that stands for padding. -/
def iterateEntry (entry : Nat × Stored) : BCDBM (Option JSXObject) :=
  if entry.2.truthy then do
    let obj ← unserialize entry.1 entry.2 none
    return some obj
  else return none

/-- `iterate`.  The first entry is skipped. -/
def iterate : BCDBM (List (Option JSXObject)) := do
  let bcdb ← getThe BCDB
  (bcdb.storclient.iterate.filter (fun entry => entry.1 ≠ 0)).mapM iterateEntry

end BCDB

end JumpscaleX
