import Mathlib.Data.List.Infix
import Mathlib.Data.List.DropRight
import JumpscaleX.Dedent
import JumpscaleX.Library.Dict
import JumpscaleX.PropertyNames

/-!
# Schema texts

`Schema.py` and the part of `SchemaFactory.py` that makes a schema of a text: the text is cut
into blocks, rewritten with its url in front and a number before each property, and read line
by line.
-/

namespace JumpscaleX.SchemaTexts

open Fallible
open Profiles (strip stripChar)
open PropertyNames (Text Casing)

/-- What the parser takes from Python and from `j.data.types`: `int` of a text, whether
`checkString` takes a text for an integer, and the type of a name with a default. -/
structure Environment (T : Type) extends Casing where
  int : Text → Except Exn Int
  checkInt : Text → Bool
  typeGet : Text → Option Text → Except Exn T
  capnpType : T → Text

/-- A property of a schema. -/
structure Property (T : Type) where
  nr : Int
  name : Text
  comment : Text
  index : Bool
  unique : Bool
  jumpscaletype : T

/-- A schema with its properties in the dict `_children`. -/
structure ParsedSchema (T : Type) where
  url : Text
  md5 : Text
  text : Text
  systemprops : Dict Text Text
  children : Dict Text (Property T)

/-- `text.split(char, 1)` of a text that has the character. -/
def cut (char : Char) (text : Text) : Text × Text :=
  (text.takeWhile (· ≠ char), (text.dropWhile (· ≠ char)).drop 1)

def inputError (message : String) : Exn :=
  .input (.other message)

/-- `j.core.text.prefix` with four blanks. -/
def prefixed (text : Text) : Text :=
  ((text.rdropWhile (· = '\n')).splitOn '\n').flatMap (fun line => "    ".toList ++ line ++ ['\n'])

/-- `_error_raise` of a schema with a url. -/
def errorRaise (url : Text) (message : Text) : Exn :=
  .base (String.ofList ("\nerror in schema:\n    url:".toList ++ url ++ "\n    msg:".toList ++
    prefixed message ++ ['\n']))

/-- `text.strip().strip('"').strip("'").strip()` -/
def unquoted (text : Text) : Text :=
  strip (stripChar '\'' (stripChar '"' (strip text)))

/-- `_getdefault` -/
def getDefault (text : Text) : Option Text :=
  let text := if '"' ∈ text ∨ '\'' ∈ text then unquoted text else text
  if strip text = [] then none else some (strip text)

section

variable {T : Type} (env : Environment T)

/-- `_urlclean` -/
def urlclean (url : Text) : Text :=
  strip (env.lower url)

/-- `capnp_schema` -/
def capnpSchema (prop : Property T) : Text :=
  PropertyNames.nameCamel env.toCasing prop.name ++ " @".toList ++ (toString prop.nr).toList ++
    " :".toList ++ env.capnpType prop.jumpscaletype ++ [';']

/-- `_proptype_get` -/
def proptypeGet (text : Text) : Except Exn T :=
  if ['\\', 'n'] <:+: text then env.typeGet "multiline".toList (some text)
  else if '\'' ∈ text ∨ '"' ∈ text ∨ stripChar '\'' text = [] then
    env.typeGet "string".toList (some (unquoted text))
  else if '.' ∈ text then env.typeGet "float".toList (some text)
  else if "true".toList <:+: env.lower text ∨ "false".toList <:+: env.lower text then
    env.typeGet "bool".toList (some text)
  else if ['[', ']'] <:+: text then env.typeGet "ls".toList (some text)
  else if env.checkInt text then env.typeGet ['i'] (some text)
  else .error (.base (String.ofList ("cannot find type for:".toList ++ text)))

/-- The marks around the name of a property: whether it is indexed and unique. -/
def propertyMarks (url line name : Text) : Except Exn (Text × Bool × Bool) :=
  if ['*', '*', '*'] <:+ name then
    .error (errorRaise url "do not use *** in your schema, should be ** for indexing".toList)
  else
    let index := decide (['*', '*'] <:+ name)
    let name := if index then name.dropLast.dropLast else name
    if ['*'] <:+ name then
      .error (inputError "key based indexing (*) for now not supported use **")
    else
      let marked := decide (['&'] <+: name)
      let name := if marked then name.drop 1 else name
      if name = "id".toList then
        .error (errorRaise url
          ("do not use 'id' in your schema, is reserved for system\n".toList ++ line))
      else .ok (name, index || marked, marked || decide (name = "name".toList))

/-- The type that the text behind a property declares. -/
def propertyType (pointerType : Option Text) (line : Text) : Except Exn T :=
  if '(' ∈ line then
    let proptype := env.lower (strip (((line.splitOn '(').getD 1 []).takeWhile (· ≠ ')')))
    let default :=
      match pointerType with
      | some (first :: rest) => some (urlclean env (first :: rest))
      | _ => getDefault (strip (line.takeWhile (· ≠ '(')))
    env.typeGet proptype default
  else proptypeGet env line

/-- `_property_get_from_line` -/
def propertyGetFromLine (url line : Text) : Except Exn (Property T) := do
  ensure (url ≠ []) .assertionError
  ensure (':' ∈ line) .assertionError
  let nr ← env.int (cut ':' line).1
  let line := (cut ':' line).2
  ensure ('=' ∈ line) .assertionError
  let propname := strip (cut '=' line).1
  let line := strip (cut '=' line).2
  let pointerType :=
    if '!' ∈ line then some (urlclean env (strip (cut '!' line).2)) else none
  let line := if '!' ∈ line then strip (cut '!' line).1 else line
  let comment := if '#' ∈ line then strip (cut '#' line).2 else []
  let line := if '#' ∈ line then strip (cut '#' line).1 else line
  let (name, index, unique) ← propertyMarks url line propname
  let jumpscaletype ← propertyType env pointerType line
  return {
    nr := nr
    name := name
    comment := comment
    index := index
    unique := unique
    jumpscaletype := jumpscaletype }

/-- What `_schema_from_text` has read so far. -/
structure Reading (T : Type) where
  url : Text
  systemprops : Dict Text Text
  children : Dict Text (Property T)

/-- One line of `_schema_from_text`. -/
def readLine (text : Text) (reading : Reading T) (line : Text) : Except Exn (Reading T) :=
  let line := strip line
  if line = [] then .ok reading
  else if ['@'] <+: line then
    let line := line.takeWhile (· ≠ '#')
    match line.splitOn '=' with
    | key :: value :: _ =>
        let key := (strip key).drop 1
        let value := stripChar '\'' (stripChar '"' (strip value))
        if key = "url".toList then .ok { reading with url := urlclean env value }
        else .ok { reading with systemprops := reading.systemprops.put key value }
    | _ => .error (.indexError "list index out of range")
  else if ['#'] <+: line then .ok reading
  else if '=' ∉ line then
    .error (inputError (String.ofList ("did not find =, need to be there to define field, line=".toList
      ++ line ++ "\ntext:".toList ++ text)))
  else do
    let prop ← propertyGetFromLine env reading.url line
    return { reading with children := reading.children.put prop.name prop }

/-- How often a text occurs in another one, without overlaps of it with itself. -/
def countText (part : Text) : Text → Nat
  | [] => 0
  | char :: text =>
      (if part.isPrefixOf (char :: text) then 1 else 0) + countText part text

/-- `Schema(text=.., url=.., md5=..)`.  An empty url stands for none. -/
def schemaInit (text url md5 : Text) : Except Exn (ParsedSchema T) := do
  ensure (md5 ≠ []) .assertionError
  ensure (countText "@url".toList text ≤ 1)
    (inputError "there should only be 1 url in the schema")
  ensure (countText "@url".toList text ≠ 0 ∨ url ≠ []) (inputError "url not specified")
  let content := TextTools.textStripWith true text
  let reading ← (content.splitOn '\n').foldlM (readLine env content)
    ⟨url, Dict.empty, Dict.empty⟩
  ensure (reading.url ≠ []) (inputError "url needs to be specified")
  return {
    url := reading.url
    md5 := md5
    text := text
    systemprops := reading.systemprops
    children := reading.children }

/-! ## Texts of schemas -/

/-- One line of `_schema_blocks_get`, with the blocks that are complete and the one that is
not. -/
def blockLine (state : List Text × Text) (line : Text) : List Text × Text :=
  let (blocks, block) := state
  let stripLine := strip (env.lower line)
  if block = [] ∧ (stripLine = [] ∨ ['#'] <+: stripLine) then (blocks, block)
  else if "@url".toList <+: stripLine ∧ block ≠ [] then
    (blocks ++ [block], line ++ ['\n'])
  else (blocks, block ++ line ++ ['\n'])

/-- `_schema_blocks_get` -/
def schemaBlocksGet (text : Text) : List Text :=
  let (blocks, block) :=
    ((TextTools.textStripWith true text).splitOn '\n').foldl (blockLine env) ([], [])
  if block = [] then blocks else blocks ++ [block]

/-- What `_schema_text_rewrite` has written so far. -/
structure Rewriting where
  url : Text
  foundNrs : Bool
  nr : Nat
  out : Text

/-- `remove_comment` -/
def removeComment (line : Text) : Text :=
  if '#' ∈ line then strip (cut '#' line).1 else line

/-- A number in a field of two characters. -/
def numberField (nr : Nat) : Text :=
  let digits := (toString nr).toList
  digits ++ List.replicate (2 - digits.length) ' '

/-- One line of `_schema_text_rewrite`. -/
def rewriteLine (state : Rewriting) (line : Text) : Except Exn Rewriting :=
  let line := Lines.replace [':', ':'] [':'] 0 (strip line)
  if "@url".toList <+: line then
    if state.url ≠ [] then .ok state
    else if '=' ∈ line then .ok { state with url := strip (cut '=' line).2 }
    else .error (.indexError "list index out of range")
  else if ['@'] <+: line then .ok { state with out := state.out ++ line ++ ['\n'] }
  else if strip line = [] then .ok state
  else if ['#'] <+: strip line then .ok state
  else if ':' ∈ line.take 4 then
    .ok { state with foundNrs := true, out := state.out ++ removeComment line ++ ['\n'] }
  else if state.foundNrs then .error (inputError "cannot mix nr's and no nrs in schema")
  else if ':' ∈ line.take 3 then .error .assertionError
  else
    .ok { state with
      nr := state.nr + 1
      out := state.out ++ numberField state.nr ++ ": ".toList ++ removeComment line ++ ['\n'] }

/-- `_schema_text_rewrite`.  An empty url stands for none. -/
def schemaTextRewrite (url text : Text) : Except Exn Text := do
  ensure (text ≠ []) .assertionError
  let state ← ((TextTools.textStripWith false text).splitOn '\n').foldlM rewriteLine
    ⟨url, false, 0, []⟩
  ensure (state.url ≠ []) .assertionError
  ensure (5 < state.url.length) .assertionError
  return "@url = ".toList ++ state.url ++ ['\n'] ++ strip state.out ++ ['\n']

/-- `_md5` of a rewritten text. -/
def md5Of (md5String : Text → Text) (text : Text) : Except Exn Text :=
  match schemaBlocksGet env text with
  | [block] => .ok (md5String (strip (block.filter (fun char => char ≠ ' ' ∧ char ≠ '\n'))))
  | _ => .error .assertionError

/-- The schemas that were made before, by md5. -/
structure Registry where
  find : Text → Option (ParsedSchema T)
  made : ∀ md5 schema, find md5 = some schema →
    ∃ text url key, schemaInit env text url key = .ok schema

/-- `_get_from_text_single` -/
def getFromTextSingle (registry : Registry env) (md5String : Text → Text) (text url : Text) :
    Except Exn (ParsedSchema T) := do
  let text ← schemaTextRewrite url text
  let md5 ← md5Of env md5String text
  match registry.find md5 with
  | some schema => do
      ensure (url = [] ∨ schema.url = url) .assertionError
      return schema
  | none => schemaInit env text url md5

/-- `get_from_text` up to the schema of the first block, which it returns. -/
def getFromText (registry : Registry env) (md5String : Text → Text) (text url : Text) :
    Except Exn (Option (ParsedSchema T)) :=
  match schemaBlocksGet env text with
  | [] => .ok none
  | block :: _ => (getFromTextSingle env registry md5String block url).map some

end

/-! ## Accepted schemas -/

variable {T : Type} {env : Environment T}

namespace ParsedSchema

/-- The properties, in the order of the dict. -/
def properties (schema : ParsedSchema T) : List (Property T) :=
  schema.children.entries.map Prod.snd

def names (schema : ParsedSchema T) : List Text :=
  schema.properties.map Property.name

end ParsedSchema

end JumpscaleX.SchemaTexts
