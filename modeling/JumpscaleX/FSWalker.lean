import Mathlib.Data.List.Infix
import JumpscaleX.FSListing

/-!
# The walker

`walk` of `SystemFSWalker.py`, which calls a function for the files and directories that are
listed below a directory.
-/

namespace JumpscaleX.FSWalker

open Fallible Stateful
open FSDisk (Disk dirname isDir isFile listFilesAndDirsInDir)
open FSPaths (pathRemoveDirPart pathShorten joinPaths)
open Profiles (Text)

/-- The arguments of `walk`, what it takes from `re.findall` on a pattern and a text, and
`readFile`.  The first part of the state is the file system, the second `arg`; the callback
returns whether its result is not `False`. -/
structure Walk (S A : Type) where
  callback : Text → EStateM Exn (S × A) Bool
  includeFolders : Bool
  pathRegexIncludes : List Text
  pathRegexExcludes : List Text
  contentRegexIncludes : List Text
  contentRegexExcludes : List Text
  depths : List Int
  followlinks : Bool
  finds : Text → Text → Except Exn Bool
  readFile : S → Text → Except Exn Text

section

variable {S A : Type}

/-- An operation of the file system, which leaves `arg` as it is. -/
def onDisk {α : Type} (operation : EStateM Exn S α) : EStateM Exn (S × A) α :=
  onPart Prod.fst (fun state reached => (reached, state.2)) operation

/-- `_patternFix` -/
def patternFix (pattern : Text) : Text :=
  if "(?m)".toList <:+: pattern then pattern else "(?m)".toList ++ pattern

variable (process : FSPaths.Process) (disk : Disk S) (walk : Walk S A)

/-- `match` of `RegexTools` -/
def matches_ (pattern text : Text) : Except Exn Bool := do
  ensure (pattern ≠ [] ∧ text ≠ []) (.runtime
    "Cannot do .codetools.regex.match when pattern or text parameter is empty")
  walk.finds (patternFix pattern) text

/-- `matchMultiple` of a list of patterns. -/
def matchMultiple (patterns : List Text) (text : Text) : Except Exn Bool :=
  if text = [] then .ok false
  else patterns.anyM (fun pattern => matches_ walk (patternFix pattern) text)

/-- `_checkDepth` -/
def checkDepth (path root : Text) : Except Exn Bool :=
  if walk.depths = [] then .ok true
  else do
    let path ← pathRemoveDirPart process path root false
    let split := ((dirname path).splitOn '/').filter (fun item => !item.isEmpty)
    return walk.depths.any (fun depth => depth = (split.length : Int))

/-- `_checkContent` -/
def checkContent (state : S) (path : Text) : Except Exn Bool :=
  if walk.contentRegexIncludes = [] ∧ walk.contentRegexExcludes = [] then .ok true
  else do
    let file ← isFile process disk state path true
    if file then
      let content ← walk.readFile state path
      let wanted ← if walk.contentRegexIncludes = [] then .ok true
        else matchMultiple walk walk.contentRegexIncludes content
      if wanted then
        let unwanted ← if walk.contentRegexExcludes = [] then .ok false
          else matchMultiple walk walk.contentRegexExcludes content
        return !unwanted
      else return false
    else return !walk.contentRegexExcludes.isEmpty

/-- What is asked of a path before the callback is called for it, in a walk of a directory. -/
def isAsked (state : S) (root path : Text) : Except Exn Bool := do
  let included ← matchMultiple walk walk.pathRegexIncludes path
  if included then
    let excluded ← matchMultiple walk walk.pathRegexExcludes path
    if excluded then return false
    else
      let within ← checkDepth process walk path root
      if within then checkContent process disk walk state path else return false
  else return false

/-- The callback for a path that is asked for; for others the result is true. -/
def called (root path : Text) : EStateM Exn (S × A) Bool := do
  let asked ← query (fun state => isAsked process disk walk state.1 root path)
  if asked then walk.callback path else return true

/-- One path in the loop of `_walk` of a directory. -/
def turn (next : Text → EStateM Exn (S × A) Unit) (root path : Text) :
    EStateM Exn (S × A) Unit := do
  let directory ← query (fun state => isDir process disk state.1 path walk.followlinks)
  if directory then
    let result ← if walk.includeFolders then called process disk walk root path else pure true
    runIf (result = true) (next path)
  else
    let file ← query (fun state => isFile process disk state.1 path walk.followlinks)
    if file then
      let _ ← called process disk walk root path
      return ()
    else return ()

/-- `_walk`.  The number bounds the depth of the calls. -/
def walkIn : Nat → Text → EStateM Exn (S × A) Unit
  | 0, _ => throw (.runtime "maximum recursion depth exceeded")
  | calls + 1, path => do
      let paths ← onDisk (listFilesAndDirsInDir process disk calls walk.followlinks true path)
      paths.forM (turn process disk walk (walkIn calls) path)

/-- `os.path.abspath` -/
def abspath (path : Text) : Text :=
  pathShorten (if path.head? = some '/' then path else joinPaths process.cwd path)

/-- `walk` -/
def walkFrom (calls : Nat) (root : Text) (recursive : Bool) : EStateM Exn (S × A) Unit := do
  let directory ← query (fun state => isDir process disk state.1 root false)
  if directory then
    let walk := if recursive then walk else { walk with depths := [0] }
    walkIn process disk walk calls (abspath process root)
  else throw (.valueError "Root path for walk should be a folder")

end

end JumpscaleX.FSWalker
