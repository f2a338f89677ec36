import JumpscaleX.FSPaths
import JumpscaleX.Library.Stateful

/-!
# The file system

What the code asks the file system for, the decorator `path_check`, and the functions of
`SystemFS.py` about links, files and directories.
-/

namespace JumpscaleX.FSDisk

open Fallible Stateful
open FSPaths (pathNormalize joinPaths)
open Profiles (Text strip)

/-- The calls of `os` on the states of a file system, and what the code takes from `fnmatch`,
from `str.lower` and from `text_replace` of a text with a brace.  A name of an entry is not
empty and has no slash; an entry that is no link exists; and the directories below a directory,
links aside, have a finite height. -/
structure Disk (S : Type) where
  listdir : S → Text → Except Exn (List Text)
  islink : S → Text → Bool
  isfile : S → Text → Bool
  isdir : S → Text → Bool
  exists_ : S → Text → Bool
  lexists : S → Text → Bool
  readlink : S → Text → Except Exn Text
  mtime : S → Text → Except Exn Int
  delete : S → Text → Except Exn S
  homedir : Text
  replaceBraces : Text → Except Exn Text
  fnmatchcase : Text → Text → Bool
  lower : Text → Text
  height : S → Text → Nat
  listdir_ok : ∀ state path, isdir state path = true → ∃ names, listdir state path = .ok names
  names_nodup : ∀ state path names, listdir state path = .ok names → names.Nodup
  names_valid : ∀ state path names, listdir state path = .ok names →
    ∀ name ∈ names, name ≠ [] ∧ '/' ∉ name
  entry_exists : ∀ state path names, listdir state path = .ok names → ∀ name ∈ names,
    islink state (joinPaths path name) = false → exists_ state (joinPaths path name) = true
  isfile_exists : ∀ state path, isfile state path = true → exists_ state path = true
  isdir_exists : ∀ state path, isdir state path = true → exists_ state path = true
  file_not_dir : ∀ state path, isfile state path = true → isdir state path = false
  mtime_ok : ∀ state path, exists_ state path = true → ∃ time, mtime state path = .ok time
  height_lt : ∀ state path names, listdir state path = .ok names → ∀ name ∈ names,
    isdir state (joinPaths path name) = true → islink state (joinPaths path name) = false →
      height state (joinPaths path name) < height state path

/-- The validators of `path_check` that the functions below ask for. -/
structure Validators where
  required : Bool := false
  replace : Bool := false
  existing : Bool := false
  dir : Bool := false

section

variable {S : Type} (process : FSPaths.Process) (disk : Disk S)

/-- `j.core.tools.text_replace` -/
def textReplace (path : Text) : Except Exn Text :=
  if '{' ∈ path then disk.replaceBraces path else .ok path

/-- A `~` in front of a slash is the home directory. -/
def expandUser (path : Text) : Text :=
  if ['~', '/'] <+: path then
    match process.home with
    | some home => (home.reverse.dropWhile (· = '/')).reverse ++ path.drop 1
    | none => disk.homedir ++ path.drop 1
  else path

/-- `path_check` of the argument `path` of a function. -/
def pathCheck (function : String) (validators : Validators) (state : S) (value : Text) :
    Except Exn Text := do
  let value ← textReplace disk value
  let value := expandUser process disk value
  ensure (value = [] ∨ (validators.existing = false ∧ validators.dir = false) ∨
      disk.exists_ state value = true)
    (.valueError ("Argument path in j.sal.fs." ++ function ++ " expects an existing path value! " ++
      String.ofList value ++ " does not exist."))
  ensure (validators.required = false ∨ strip value ≠ [])
    (.valueError ("Argument path in j.sal.fs." ++ function ++
      " should not be None or empty string!"))
  let value ← if validators.required then pathNormalize process value else .ok value
  let value ← if validators.replace then textReplace disk value else .ok value
  ensure (value = [] ∨ validators.dir = false ∨ disk.isdir state value = true)
    (.valueError ("Argument path in j.sal.fs." ++ function ++ " expects a directory path! " ++
      String.ofList value ++ " is not a directory."))
  return value

/-- `os.path.dirname` -/
def dirname (path : Text) : Text :=
  let head := (path.reverse.dropWhile (· ≠ '/')).reverse
  if head.all (· = '/') then head else (head.reverse.dropWhile (· = '/')).reverse

/-- `os.path.basename` -/
def basename (path : Text) : Text :=
  (path.reverse.takeWhile (· ≠ '/')).reverse

/-- `getDirName` with its defaults. -/
def getDirName (state : S) (path : Text) : Except Exn Text := do
  let path ← pathCheck process disk "getDirName" { required := true, replace := true } state path
  let dname := Lines.replace ['/', '/'] ['/'] 0 (dirname path)
  let dname := FSPaths.forwardSlashes dname
  return if dname = [] then [] else dname ++ ['/']

/-- `getBaseName` with its defaults. -/
def getBaseName (state : S) (path : Text) : Except Exn Text := do
  let path ← pathCheck process disk "getBaseName" { required := true, replace := true } state path
  return basename (path.reverse.dropWhile (· = '/')).reverse

/-- `getParent` -/
def getParent (state : S) (path : Text) : Except Exn Text := do
  let path ← pathCheck process disk "getParent" { required := true, replace := true } state path
  let parts := path.splitOn '/'
  let parts := if parts.getLast? = some [] then parts.dropLast else parts
  let parts := parts.dropLast
  return if parts = [[]] then ['/'] else Separated.join '/' parts

/-- `readLink` -/
def readLink (state : S) (path : Text) : Except Exn Text := do
  let path ← pathCheck process disk "readLink" { required := true } state path
  let path := (path.reverse.dropWhile (fun char => char = '/' ∨ char = '\\')).reverse
  ensure (path ≠ []) (.indexError "string index out of range")
  let res ← disk.readlink state path
  if ['.', '.'] <+: res then
    let srcDir ← getDirName process disk state path
    pathNormalize process (srcDir ++ res)
  else
    let base ← getBaseName process disk state res
    if base = res then
      let parent ← getParent process disk state path
      return joinPaths parent res
    else return res

/-- `isLink` with its defaults. -/
def isLink (state : S) (path : Text) : Except Exn Bool := do
  let path ← pathCheck process disk "isLink" { required := true, replace := true } state path
  let path := if path.getLast? = some '/' then path.dropLast else path
  return disk.islink state path

/-- `isFile` -/
def isFile (state : S) (path : Text) (followSoftlink : Bool) : Except Exn Bool := do
  let path ← pathCheck process disk "isFile" { required := true, replace := true, existing := true }
    state path
  let link ← if followSoftlink then .ok false else isLink process disk state path
  return link || disk.isfile state path

/-- `isDir` -/
def isDir (state : S) (path : Text) (followSoftlink : Bool) : Except Exn Bool := do
  let path ← pathCheck process disk "isDir" { required := true, replace := true, existing := true }
    state path
  let link ← isLink process disk state path
  if link then
    if followSoftlink then
      let path ← readLink process disk state path
      return disk.isdir state path
    else return false
  else return disk.isdir state path

/-- `exists`, which follows links by itself.  The number bounds the depth of the calls. -/
def exists_ : Nat → S → Text → Except Exn Bool
  | 0, _, _ => .error (.runtime "maximum recursion depth exceeded")
  | calls + 1, state, path => do
      let path ← pathCheck process disk "exists" { required := true } state path
      if disk.lexists state path then
        if disk.islink state path then
          let relativelink ← readLink process disk state path
          let parent ← getParent process disk state path
          exists_ calls state (joinPaths parent relativelink)
        else return true
      else return false

/-- What `isLinkAndBroken` finds: the path is a link that leads nowhere. -/
def linkBroken (calls : Nat) (state : S) (path : Text) : Except Exn Bool := do
  if disk.islink state path then
    let rpath ← readLink process disk state path
    let found ← exists_ process disk calls state rpath
    return !found
  else return false

/-- `remove` -/
def remove (path : Text) : EStateM Exn S Unit :=
  advance (fun state => do
    let path ← pathCheck process disk "remove" { required := true } state path
    let path ← textReplace disk path
    disk.delete state path)

/-- `isLinkAndBroken`, which removes a broken link. -/
def isLinkAndBroken (calls : Nat) (path : Text) : EStateM Exn S Bool := do
  let broken ← query (fun state => linkBroken process disk calls state path)
  runIf (broken = true) (remove process disk path)
  return broken

/-- `isLink` with `check_valid`, which removes a link that leads nowhere. -/
def isLinkValid (calls : Nat) (path : Text) : EStateM Exn S Bool := do
  let path ← query (fun state =>
    pathCheck process disk "isLink" { required := true, replace := true } state path)
  let path := if path.getLast? = some '/' then path.dropLast else path
  let state ← getThe S
  if disk.islink state path then
    if disk.exists_ state path then return true
    else
      let _ ← isLinkAndBroken process disk calls path
      return false
  else return false

/-- `_listInDir` -/
def listInDir (state : S) (path : Text) (listSymlinks : Bool) : Except Exn (List Text) := do
  let names ← disk.listdir state path
  return names.filter (fun name => listSymlinks || !disk.islink state (joinPaths path name))

end

end JumpscaleX.FSDisk
