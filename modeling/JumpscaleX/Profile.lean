import JumpscaleX.Library.Dict
import JumpscaleX.Library.Lines
import JumpscaleX.Library.Runs
import JumpscaleX.Library.Separated
import JumpscaleX.Scalars

/-!
# Profile files

`Profile.py`: the variables of a shell profile, the lists that some of them are, and the file
that they are loaded from and saved to.
-/

namespace JumpscaleX.Profiles

open Fallible Stateful Runs

/-! ## Texts -/

abbrev Text := List Char

def strip (text : Text) : Text :=
  StringType.strip HostFile.isspace text

/-- `strip` of one character. -/
def stripChar (char : Char) (text : Text) : Text :=
  StringType.strip (· = char) text

/-- `text.strip().strip("'").strip('"').strip()` -/
def bare (text : Text) : Text :=
  strip (stripChar '"' (stripChar '\'' (strip text)))

/-- `_quote` -/
def quoted (value : Text) : Text :=
  '"' :: stripChar '"' (strip (stripChar '"' value)) ++ ['"']

/-- What `j.data.types.string.clean` makes of a text, and the strips behind it. -/
def partOf (value : Text) : Text :=
  bare (Scalars.unquoted (String.ofList value)).toList

/-- The word none, which `j.data.types.string.clean` makes no text of. -/
def isNone (value : Text) : Bool :=
  PyText.lower (String.ofList value) = "none"

/-- `_path_clean` -/
def pathClean (path : Text) : Text :=
  let path := Lines.replace ['/', '/'] ['/'] 0 (strip path)
  let path := Lines.replace ['/', '/'] ['/'] 0 path
  let path := (path.reverse.dropWhile (· = '/')).reverse
  path.map (fun char => if char = ';' then ':' else char)

/-! ## The file -/

def isWord (char : Char) : Bool :=
  Scalars.isAlnum char || char = '_'

/-- The first match of `([A-Za-z0-9_]+)=(.*)` in a line, with the characters of a word that
stand before. -/
def lineVar (word : Text) : Text → Option (Text × Text)
  | [] => none
  | char :: line =>
      if isWord char then lineVar (word ++ [char]) line
      else if char = '=' ∧ word ≠ [] then some (word, line)
      else lineVar [] line

/-- `_env_vars_find`: the pattern ends with a line break, and the last of two values counts. -/
def envVarsFind (content : Text) : Dict Text Text :=
  ((PyText.splitChars '\n' content).dropLast.filterMap (lineVar [])).foldl
    (fun vars var => vars.put var.1 var.2) Dict.empty

/-- The first match of `(source|\.) (.*)$` in a line. -/
def lineInclude : Text → Option Text
  | [] => none
  | char :: line =>
      if "source ".toList.isPrefixOf (char :: line) then some (line.drop 6)
      else if ". ".toList.isPrefixOf (char :: line) then some (line.drop 1)
      else lineInclude line

/-- `_includes_find` -/
def includesFind (content : Text) : List Text :=
  (PyText.splitChars '\n' content).filterMap lineInclude

/-- The lines of `str(self)`, with the paths that exist. -/
def profileLines (env : Dict Text Text) (paths : List Text) : List Text :=
  ["# environment variables".toList] ++
  env.entries.map (fun var => "export ".toList ++ var.1 ++ '=' :: var.2) ++
  ["# includes".toList] ++
  paths.map (fun path => "source ".toList ++ path)

/-- Lines with a line break behind each. -/
def written (lines : List Text) : Text :=
  lines.flatMap (· ++ ['\n'])

/-- A value within quotes, without a character that a shell treats apart there. -/
def Quoted (value : Text) : Prop :=
  ∃ inner, value = '"' :: inner ++ ['"'] ∧
    ∀ char ∈ inner, char ∉ ['"', '\\', '$', '`', '\n']

/-- The variables have names of a shell and values within quotes, and the paths no line break
and no sign of equality. -/
structure Plain (env : Dict Text Text) (paths : List Text) : Prop where
  names : ∀ name ∈ env.keys, name ≠ [] ∧ ∀ char ∈ name, isWord char = true
  values : ∀ name value, env.get name = some value → Quoted value
  paths : ∀ path ∈ paths, '\n' ∉ path ∧ '=' ∉ path

/-- What is around a profile: which paths exist, here and for the executor, what `printenv`
prints behind a profile, and whether the profile is `{DIR_BASE}/env.sh`.  A shell evaluates an
export line to the text within its quotes. -/
structure Host where
  pathExists : Text → Bool
  executorExists : Text → Bool
  printenv : Text → Text
  isBase : Bool
  evaluates : ∀ env paths, Plain env paths → ∀ name value, env.get name = some value →
    (envVarsFind (printenv (written (profileLines env paths)))).get name =
      some (stripChar '"' value)

/-! ## The profile -/

structure Profile where
  env : Dict Text Text
  includes : List Text
  /-- The content of the file, when it is there. -/
  file : Option Text

variable (host : Host)

/-- `__str__` -/
def Profile.text (profile : Profile) : Text :=
  written (profileLines profile.env (profile.includes.filter host.executorExists))

/-- The variables of the file, as a shell evaluates them. -/
def loadedEnv (content : Text) : Dict Text Text :=
  (envVarsFind (host.printenv content)).entries.foldl
    (fun env var =>
      if (envVarsFind content).get var.1 ≠ none then env.put var.1 (quoted var.2) else env)
    Dict.empty

/-- `load` -/
def load : EStateM Exn Profile Unit :=
  modify (fun profile =>
    match profile.file with
    | none => ⟨Dict.empty, [], some []⟩
    | some content => ⟨loadedEnv host content, includesFind content, some content⟩)

/-- The separators of a list. -/
inductive Separator where
  | colon
  | semicolon
  deriving DecidableEq

def Separator.char : Separator → Char
  | colon => ':'
  | semicolon => ';'

def Separator.other : Separator → Separator
  | colon => semicolon
  | semicolon => colon

/-- The items of a list without repetitions. -/
def distinct (items : List Text) : List Text :=
  items.foldl (fun items item => if item ∈ items then items else items ++ [item]) []

/-- The line of a list with a part put at one of its ends. -/
def putPart (separator : Separator) (line value : Text) (atEnd quote : Bool) :
    Except Exn Text :=
  let line := bare line
  if separator.other.char ∈ line then .error (.input (.other "cannot have 2 separators"))
  else
    let items := distinct ((PyText.splitChars separator.char line).map bare)
    let items := items.erase value
    let value := if quote ∧ ' ' ∈ value then quoted value else value
    let items := if atEnd then items ++ [strip value] else strip value :: items
    .ok (stripChar separator.char ([separator.char].intercalate items))

/-- `env_set`, with what is done behind it. -/
def envSet (saving : EStateM Exn Profile Unit) (key value : Text) (quote : Bool) :
    EStateM Exn Profile Unit := do
  let value := if quote then quoted value else value
  modify (fun profile => { profile with env := profile.env.put key value })
  saving

/-- `env_set_part` -/
def envSetPart (saving : EStateM Exn Profile Unit) (key value : Text) (atEnd quote : Bool)
    (separator : Separator) : EStateM Exn Profile Unit := do
  if isNone value then throw (.attributeError "strip")
  else
    let profile ← getThe Profile
    match profile.env.get key with
    | some line =>
        let line ← attempt (putPart separator line (partOf value) atEnd quote)
        envSet saving key line false
    | none => envSet saving key (partOf value) false

/-- `path_add` -/
def pathAdd (saving : EStateM Exn Profile Unit) (path : Text) (atEnd checkExists : Bool) :
    EStateM Exn Profile Unit := do
  if checkExists ∧ host.pathExists path = false then return ()
  else envSetPart saving "PATH".toList (pathClean path) atEnd true .colon

/-- The directories that a save puts at the end of the path. -/
def systemPaths : List Text :=
  ["/bin".toList, "/sbin".toList, "/usr/bin".toList, "/usr/sbin".toList,
    "/usr/local/bin".toList, "/usr/local/sbin".toList]

/-- The end of `_save`. -/
def fileWrite : EStateM Exn Profile Unit :=
  if host.isBase then throw (.jsBug "should never overwrite {DIR_BASE}/env.sh")
  else modify (fun profile => { profile with file := some (profile.text host) })

/-- `_save` -/
def save : EStateM Exn Profile Unit := do
  let profile ← getThe Profile
  runIf (profile.env.get "PATH".toList ≠ none)
    (forM systemPaths (fun path => pathAdd host (return ()) path true true))
  fileWrite host

/-- What an operation does at its end, by its argument `save`. -/
def saving (isSaved : Bool) : EStateM Exn Profile Unit :=
  if isSaved then save host else return ()

/-- `env_get_parts` -/
def envGetParts (profile : Profile) (key : Text) : List Text :=
  match profile.env.get key with
  | some line =>
      if ':' ∈ line then (PyText.splitChars ':' line).map strip
      else if ';' ∈ line then (PyText.splitChars ';' line).map strip
      else [strip line]
  | none => []

/-- `env_exists_part` -/
def envExistsPart (profile : Profile) (key value : Text) : Bool :=
  decide (strip value ∈ envGetParts profile key)

/-- `env_delete_part` -/
def envDeletePart (key value : Text) : EStateM Exn Profile Unit := do
  if isNone value then throw (.attributeError "strip")
  else
    let profile ← getThe Profile
    match profile.env.get key with
    | some line =>
        let items := (PyText.splitChars ':' (bare line)).map bare
        if partOf value ∈ items then
          envSet (saving host true) key
            (stripChar ':' ([':'].intercalate (items.erase (partOf value)))) false
        else return ()
    | none => return ()

/-- `path_delete` -/
def pathDelete (path : Text) : EStateM Exn Profile Unit :=
  envDeletePart host "PATH".toList (pathClean path)

end JumpscaleX.Profiles
