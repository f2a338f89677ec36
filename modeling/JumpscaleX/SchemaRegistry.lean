import JumpscaleX.SchemaTexts
import JumpscaleX.Library.Stateful

/-!
# The registry of schemas

`SchemaMeta`, which keeps the texts of all schemas by md5 and the md5s of every url in a file,
and the functions of `SchemaFactory` that add schemas to it and take them out.
-/

namespace JumpscaleX.SchemaRegistry

open Fallible Stateful
open PropertyNames (Text)
open SchemaTexts

/-- What is kept of a url: its number, and the md5s with the newest one at the end. -/
structure UrlData where
  sid : Nat
  md5s : List Text

structure Md5Data where
  text : Text
  epoch : Int
  url : Text

/-- `_data` -/
structure MetaData where
  url : Dict Text UrlData
  md5 : Dict Text Md5Data

def MetaData.empty : MetaData where
  url := Dict.empty
  md5 := Dict.empty

/-- The factory with its metadata, the file that they are saved in, and the schemas in
memory. -/
structure Factory (T : Type) where
  data : MetaData
  file : Option MetaData
  schemasMd5 : Dict Text (ParsedSchema T)
  schemasLoaded : Dict Text (ParsedSchema T)

section

variable {T : Type}

namespace Factory

variable (factory : Factory T)

/-- `save` -/
def save : Factory T :=
  { factory with file := some factory.data }

/-- `load`, in a process that has no schemas in memory. -/
def load : Factory T :=
  let data := factory.file.getD MetaData.empty
  save {
    data := data
    file := factory.file
    schemasMd5 := Dict.empty
    schemasLoaded := Dict.empty }

/-- `reset`, which removes the file and loads it. -/
def reset : Factory T :=
  load { factory with file := none }

/-- `exists` of a url. -/
def existsUrl (url : Text) : Bool :=
  url ≠ [] && (url ∈ factory.schemasLoaded.keys || url ∈ factory.data.url.keys)

/-- `find_sid` -/
def findSid : Nat :=
  factory.data.url.entries.foldl
    (fun highest entry => if highest < entry.2.sid then entry.2.sid else highest) 0 + 1

/-- `_schema_define` -/
def schemaDefine (url : Text) : Factory T :=
  if url ∈ factory.data.url.keys then factory
  else save { factory with data :=
    { factory.data with url := factory.data.url.put url ⟨factory.findSid, []⟩ } }

/-- The list of a url with the md5, and whether it counts as a change. -/
def registered (md5s : List Text) (md5 : Text) (newest : Bool) : List Text × Bool :=
  if md5 ∈ md5s then
    if newest = true ∧ md5s.getLast? ≠ some md5 then (md5s.erase md5 ++ [md5], true)
    else (md5s, false)
  else if newest then (md5s ++ [md5], true)
  else (md5 :: md5s, false)

def putUrl (url : Text) (urlData : UrlData) : Factory T :=
  { factory with data := { factory.data with url := factory.data.url.put url urlData } }

def putMd5 (md5 : Text) (md5Data : Md5Data) : Factory T :=
  { factory with data := { factory.data with md5 := factory.data.md5.put md5 md5Data } }

/-- What a schema in memory is kept under: its url and its md5. -/
def remember (schema : ParsedSchema T) (newest : Bool) : Factory T :=
  { factory with
    schemasLoaded :=
      if newest = true ∨ schema.url ∉ factory.schemasLoaded.keys then
        factory.schemasLoaded.put schema.url schema
      else factory.schemasLoaded
    schemasMd5 :=
      if newest = true ∨ schema.md5 ∉ factory.schemasMd5.keys then
        factory.schemasMd5.put schema.md5 schema
      else factory.schemasMd5 }

/-- `schema_cache_remove` -/
def schemaCacheRemove (url : Text) : Factory T :=
  match factory.schemasLoaded.get url with
  | none => factory
  | some schema =>
      { factory with
        data :=
          { url := factory.data.url.erase url
            md5 := factory.data.md5.erase schema.md5 }
        schemasMd5 := factory.schemasMd5.erase schema.md5
        schemasLoaded := factory.schemasLoaded.erase url }

end Factory

/-- `schema_set`, at an epoch.  The backup in the file of the url is not part of the state. -/
def schemaSet (epoch : Int) (schema : ParsedSchema T) (save newest : Bool) :
    EStateM Exn (Factory T) Unit := do
  modify (fun factory => factory.schemaDefine schema.url)
  let factory ← getThe (Factory T)
  match factory.data.url.get schema.url with
  | none => throw .assertionError
  | some urlData => do
      let (md5s, change) := Factory.registered urlData.md5s schema.md5 newest
      modify (fun factory => factory.putUrl schema.url { urlData with md5s := md5s })
      match factory.data.md5.get schema.md5 with
      | none => do
          modify (fun factory => factory.putMd5 schema.md5 ⟨schema.text, epoch, schema.url⟩)
          runIf (save = true) (modify Factory.save)
      | some md5Data =>
          if md5Data.url ≠ schema.url then
            throw (inputError "serious error found schema with same md5, different url")
          else runIf (change = true ∧ save = true) (modify Factory.save)

/-- `schema_get` of an md5. -/
def schemaGetMd5 (factory : Factory T) (md5 : Text) : Except Exn Md5Data :=
  match factory.data.md5.get md5 with
  | some md5Data => if md5 = [] then .error (inputError
      "did not find schema in meta with md5:'' and url 'None'") else .ok md5Data
  | none => .error (inputError ("did not find schema in meta with md5:'" ++ String.ofList md5 ++
      "' and url 'None'"))

/-- `schema_get` of a url. -/
def schemaGetUrl (factory : Factory T) (url : Text) : Except Exn Md5Data :=
  match factory.data.url.get url with
  | none => .error (inputError ("did not find schema in meta with md5:'None' and url '" ++
      String.ofList url ++ "'"))
  | some urlData =>
      match urlData.md5s.getLast? with
      | none => .error (inputError ("url had no md5:" ++ String.ofList url))
      | some md5 =>
          match factory.data.md5.get md5 with
          | none => .error (inputError ("cannot find md5 in schema meta: '" ++
              String.ofList md5 ++ "'"))
          | some md5Data => .ok md5Data

variable (env : Environment T) (md5String : Text → Text)

/-- The schema of a rewritten text: the one in memory, or a new one. -/
def schemaOf (factory : Factory T) (text url : Text) : Except Exn (ParsedSchema T) := do
  let text ← schemaTextRewrite url text
  let md5 ← md5Of env md5String text
  match factory.schemasMd5.get md5 with
  | some schema => do
      ensure (url = [] ∨ schema.url = url) .assertionError
      return schema
  | none => schemaInit env text url md5

/-- `_get_from_text_single` -/
def getFromTextSingle (epoch : Int) (text url : Text) (newest save : Bool) :
    EStateM Exn (Factory T) (ParsedSchema T) := do
  let schema ← query (fun factory => schemaOf env md5String factory text url)
  runIf (save = true) (do
    schemaSet epoch schema true newest
    modify (fun factory => factory.remember schema newest))
  return schema

/-- Where `splitlines` ends a line. -/
def isLineBreak (char : Char) : Bool :=
  let code := char.toNat
  (10 ≤ code && code ≤ 13) || (28 ≤ code && code ≤ 30) || code == 133 || code == 8232 ||
    code == 8233

/-- The url that stands in the first line of a block, or the given one. -/
def blockUrl (url block : Text) : Except Exn Text :=
  let urlLine := block.takeWhile (fun char => !isLineBreak char)
  if "@url".toList <:+: urlLine then
    match urlLine.splitOn '=' with
    | _ :: value :: _ => .ok (Profiles.strip value)
    | _ => .error (.indexError "list index out of range")
  else .ok url

/-- The schema of a block that is registered because its url is not there. -/
def blockSchema (url block : Text) : Except Exn (ParsedSchema T) := do
  let rewritten ← schemaTextRewrite url block
  let again ← schemaTextRewrite [] rewritten
  let md5 := md5String (Profiles.strip (again.filter (fun char => char ≠ ' ' ∧ char ≠ '\n')))
  schemaInit env rewritten url md5

/-- One turn of the inner loop of `get_from_text`. -/
def registerBlock (epoch : Int) (url block : Text) : EStateM Exn (Factory T) Unit := do
  let schemaUrl ← attempt (blockUrl url block)
  let factory ← getThe (Factory T)
  runIf (factory.existsUrl schemaUrl = false) (do
    let schema ← attempt (blockSchema env md5String schemaUrl block)
    schemaSet epoch schema true false)

/-- The blocks with the url that each of them is read with: the first one takes the given
one. -/
def withUrls (url : Text) : List Text → List (Text × Text)
  | [] => []
  | block :: blocks => (block, url) :: blocks.map (fun block => (block, []))

/-- One turn of the outer loop of `get_from_text`, for a block with the url that it is read
with. -/
def readBlock (epoch : Int) (blocks : List Text) (url : Text) (newest save : Bool)
    (block : Text × Text) : EStateM Exn (Factory T) (ParsedSchema T) := do
  let schema ← getFromTextSingle env md5String epoch block.1 block.2 newest save
  blocks.forM (registerBlock env md5String epoch url)
  return schema

/-- `get_from_text`, which returns the schema of the first block. -/
def getFromText (epoch : Int) (text url : Text) (newest save : Bool) :
    EStateM Exn (Factory T) (Option (ParsedSchema T)) := do
  let blocks := schemaBlocksGet env text
  let res ← (withUrls url blocks).mapM (readBlock env md5String epoch blocks url newest save)
  return res.head?

/-- `get_from_md5`.  A stored text begins with its url, so that it has a block. -/
def getFromMd5 (epoch : Int) (md5 : Text) : EStateM Exn (Factory T) (ParsedSchema T) := do
  let factory ← getThe (Factory T)
  match factory.schemasMd5.get md5 with
  | some schema => return schema
  | none => do
      let data ← query (fun factory => schemaGetMd5 factory md5)
      let found ← getFromText env md5String epoch data.text [] false true
      match found with
      | none => throw .assertionError
      | some schema => do
          let factory ← getThe (Factory T)
          match factory.schemasMd5.get md5 with
          | some schema => return schema
          | none => do
              modify (fun factory =>
                { factory with schemasMd5 := factory.schemasMd5.put md5 schema })
              return schema

/-- `get_from_url` -/
def getFromUrl (epoch : Int) (url : Text) (die : Bool) :
    EStateM Exn (Factory T) (Option (ParsedSchema T)) := do
  let factory ← getThe (Factory T)
  match factory.schemasLoaded.get url with
  | some schema => return some schema
  | none =>
      if die = false ∧ factory.existsUrl url = false then return none
      else do
        let url := urlclean env url
        runIf (url ∉ factory.schemasLoaded.keys) (do
          let data ← query (fun factory => do
            ensure (url ∈ factory.data.url.keys ∧ url ≠ [])
              (inputError ("Could not find schema with url:" ++ String.ofList url))
            schemaGetUrl factory url)
          let _ ← getFromText env md5String epoch data.text data.url true true
          return ())
        let factory ← getThe (Factory T)
        match factory.schemasLoaded.get url with
        | none => throw (.base "url schould be same as data[url]")
        | some schema => return some schema

/-! ## Runs -/

/-- What is done with the factory. -/
inductive Action where
  | getFromText (text url : Text) (newest save : Bool)
  | getFromMd5 (md5 : Text)
  | getFromUrl (url : Text) (die : Bool)
  | schemaCacheRemove (url : Text)
  | delete (url : Text)
  | reset
  /-- A process that starts with the file. -/
  | restart

/-- What an action at an epoch makes of the factory, also when it raises. -/
def step (factory : Factory T) (action : Int × Action) : Factory T :=
  match action.2 with
  | .getFromText text url newest save =>
      final (getFromText env md5String action.1 text url newest save) factory
  | .getFromMd5 md5 => final (getFromMd5 env md5String action.1 md5) factory
  | .getFromUrl url die => final (getFromUrl env md5String action.1 url die) factory
  | .schemaCacheRemove url => factory.schemaCacheRemove url
  | .delete url => (factory.schemaCacheRemove url).save
  | .reset => factory.reset
  | .restart => factory.load

end

/-- The factory of the first process. -/
def Factory.initial {T : Type} : Factory T :=
  Factory.load ⟨MetaData.empty, none, Dict.empty, Dict.empty⟩

end JumpscaleX.SchemaRegistry
