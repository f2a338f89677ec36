import JumpscaleX.FSDisk

/-!
# Listings of directories

`_listAllInDir` of `SystemFS.py`, which lists the files and directories below a directory, and
the functions that call it.
-/

namespace JumpscaleX.FSDisk

open Fallible Stateful
open FSPaths (pathNormalize joinPaths)
open Profiles (Text strip)

/-- The arguments of `_listAllInDir` that it passes on as they are, with the letters of `type`
as `files` and `dirs`. -/
structure Options where
  recursive : Bool
  filter : Option Text
  minmtime : Option Int
  maxmtime : Option Int
  files : Bool
  dirs : Bool
  exclude : List Text
  followSymlinks : Bool
  listSymlinks : Bool

section

variable {S : Type} (process : FSPaths.Process) (disk : Disk S)

/-- `matcher`.  `fnmatch.fnmatch` compares like `fnmatchcase` on a system with `/` in paths. -/
def matcher (caseSensitivity : Text) (name pattern : Text) : Bool :=
  if disk.lower caseSensitivity = "sensitive".toList then disk.fnmatchcase name pattern
  else if disk.lower caseSensitivity = "insensitive".toList then
    disk.fnmatchcase (disk.lower name) (disk.lower pattern)
  else disk.fnmatchcase name pattern

def matchesFilter (options : Options) (caseSensitivity name : Text) : Bool :=
  match options.filter with
  | none => true
  | some pattern => matcher disk caseSensitivity name pattern

/-- The name is that of the filter, and of no excluded pattern. -/
def selected (options : Options) (caseSensitivity name : Text) : Bool :=
  matchesFilter disk options caseSensitivity name &&
    options.exclude.all (fun pattern => !matcher disk caseSensitivity name pattern)

/-- The time is in the window between `minmtime` and `maxmtime`. -/
def inWindow (options : Options) (time : Int) : Bool :=
  (match options.minmtime with
    | none => true
    | some least => decide (least < time)) &&
    match options.maxmtime with
    | none => true
    | some most => decide (time < most)

/-- `filter_include`.  The time is asked for only when there is a window, and the name matches
the filter. -/
def filterInclude (options : Options) (caseSensitivity : Text) (state : S)
    (direntry fullpath : Text) : Except Exn Bool :=
  if matchesFilter disk options caseSensitivity direntry = true ∧
      (options.minmtime ≠ none ∨ options.maxmtime ≠ none) then do
    let time ← disk.mtime state fullpath
    return inWindow options time && selected disk options caseSensitivity direntry
  else .ok (selected disk options caseSensitivity direntry)

/-- The path that the loop goes on with: what a link points to, when links are followed. -/
def followLink (options : Options) (state : S) (fullpath : Text) : Except Exn Text :=
  if options.followSymlinks then do
    let link ← isLink process disk state fullpath
    if link then readLink process disk state fullpath else return fullpath
  else .ok fullpath

/-- The depth that is left in a directory below. -/
def newdepth : Option Int → Option Int
  | none => none
  | some depth => if depth = 0 then some 0 else some (depth - 1)

/-- `followSymlinks is False and self.isLink(fullpath, check_valid=True)` -/
def isUnfollowed (calls : Nat) (options : Options) (fullpath : Text) : EStateM Exn S Bool :=
  if options.followSymlinks then pure false else isLinkValid process disk calls fullpath

/-- An entry that is a directory: itself, and what is below it. -/
def listDirectory (calls : Nat) (next : Option Int → Text → EStateM Exn S (List Text))
    (options : Options) (caseSensitivity : Text) (depth : Option Int)
    (filesreturn : List Text) (direntry fullpath : Text) : EStateM Exn S (List Text) := do
  let itself ← query (fun state =>
    if options.dirs then filterInclude disk options caseSensitivity state direntry fullpath
    else .ok false)
  let filesreturn := if itself then filesreturn ++ [fullpath] else filesreturn
  if options.recursive = false then return filesreturn
  else if newdepth depth = some 0 then return filesreturn
  else if options.exclude.any (matcher disk caseSensitivity fullpath) then return filesreturn
  else
    let link ← isUnfollowed process disk calls options fullpath
    if link then return filesreturn
    else
      let below ← next (newdepth depth) fullpath
      return filesreturn ++ below

/-- One entry in the loop of `_listAllInDir`. -/
def listEntry (calls : Nat) (next : Option Int → Text → EStateM Exn S (List Text))
    (options : Options) (caseSensitivity : Text) (depth : Option Int) (path : Text)
    (filesreturn : List Text) (direntry : Text) : EStateM Exn S (List Text) := do
  let fullpath := joinPaths path direntry
  let broken ← isLinkAndBroken process disk calls fullpath
  if broken then return filesreturn
  else
    let fullpath ← query (fun state => followLink process disk options state fullpath)
    let file ← query (fun state => isFile process disk state fullpath true)
    if file && options.files then
      let itself ← query (fun state =>
        filterInclude disk options caseSensitivity state direntry fullpath)
      return if itself then filesreturn ++ [fullpath] else filesreturn
    else
      let directory ← query (fun state => isDir process disk state fullpath false)
      if directory then
        listDirectory process disk calls next options caseSensitivity depth filesreturn direntry
          fullpath
      else
        let link ← query (fun state => isLink process disk state fullpath)
        if link && !options.followSymlinks && options.listSymlinks then
          return filesreturn ++ [fullpath]
        else return filesreturn

/-- `_listAllInDir`.  The calls for the directories below do not pass `case_sensitivity` on, so
that it is `os` there.  The number bounds the depth of the calls. -/
def listAllInDir : Nat → Options → (caseSensitivity : Text) → (depth : Option Int) →
    (path : Text) → EStateM Exn S (List Text)
  | 0, _, _, _, _ => throw (.runtime "maximum recursion depth exceeded")
  | calls + 1, options, caseSensitivity, depth, path => do
      let dircontent ← query (fun state => listInDir disk state path options.listSymlinks)
      dircontent.foldlM
        (listEntry process disk calls (listAllInDir calls options "os".toList) options
          caseSensitivity depth path) []

/-- A depth of zero is no bound. -/
def depthBound (depth : Option Int) : Option Int :=
  if depth = some 0 then none else depth

/-- `listFilesInDir` -/
def listFilesInDir (calls : Nat) (options : Options) (caseSensitivity : Text)
    (depth : Option Int) (path : Text) : EStateM Exn S (List Text) := do
  let path ← query (fun state => pathCheck process disk "listFilesInDir"
    { required := true, replace := true, existing := true, dir := true } state path)
  listAllInDir process disk calls { options with files := true, dirs := false } caseSensitivity
    (depthBound depth) path

/-- `listFilesAndDirsInDir` with the defaults of the arguments that the walker does not give. -/
def listFilesAndDirsInDir (calls : Nat) (followSymlinks listSymlinks : Bool) (path : Text) :
    EStateM Exn S (List Text) := do
  let path ← query (fun state => pathCheck process disk "listFilesAndDirsInDir"
    { required := true, replace := true, existing := true, dir := true } state path)
  listAllInDir process disk calls
    { recursive := true
      filter := none
      minmtime := none
      maxmtime := none
      files := true
      dirs := true
      exclude := []
      followSymlinks := followSymlinks
      listSymlinks := listSymlinks }
    "os".toList none path

end

end JumpscaleX.FSDisk
