import JumpscaleX.RedisServer
import JumpscaleX.Library.Separated

/-!
# Paths and cache keys of the virtual file system

`BCDBVFS`: how a path is taken apart, the key under which what it names is
cached, and how a key is taken apart again.  Texts are lists of characters.
-/

namespace JumpscaleX.VFS

open Separated

abbrev Text := List Char

def lower (text : Text) : Text := text.map Char.toLower

/-- `str` of an int. -/
def str (number : Int) : Text := (toString number).toList

/-- `int`, with the error that the caller raises in its place. -/
def int (text : Text) (problem : String) : Except Exn Int :=
  match PyText.int (String.ofList text) with
  | .ok number => .ok number
  | .error _ => .error (.base problem)

def dataText : Text := "data".toList

def schemasText : Text := "schemas".toList

def infoText : Text := "info".toList

def rootText : Text := "root".toList

def rootsText : Text := "directories_under_root".toList

def directories_under_root : List Text :=
  [dataText, schemasText, infoText]

/-! ## Paths -/

/-- The loop of `_split_clean_path`: leading database names are taken off and
become the current database. -/
def cleanParts (names : List Text) : Text → List Text → Except Exn (Text × List Text)
  | current, [] => .ok (current, [])
  | current, first :: rest =>
      if first = current then
        if rest = [] then .ok (current, [current]) else cleanParts names current rest
      else if first ∈ names then
        if '_' ∈ first then
          .error (.base "VFS can not walk bdcname with underscore")
        else if rest = [] then .ok (first, [first])
        else cleanParts names first rest
      else if first ∈ directories_under_root then .ok (current, first :: rest)
      else
        .error (.base
          "first element of path should be in directories or an existing bcdb name")

def _split_clean_path (names : List Text) (current path : Text) :
    Except Exn (Text × List Text) :=
  cleanParts names current (parts '/' (lower path))

/-- What a path names: the branch that `get` takes for it. -/
inductive Target where
  | root
  | bcdb (name : Text)
  | info (name : Text)
  | data (name : Text)
  | nid (name : Text) (nid : Int)
  | url (name : Text) (nid : Int) (url : Text)
  | obj (name : Text) (nid : Int) (url : Text) (id : Int)
  | schemas (name : Text)
  | schema (name : Text) (url : Text)
  deriving DecidableEq

/-- `_get_data` and `_get_data_items`, behind the element `data`. -/
def _get_data (name : Text) : List Text → Except Exn Target
  | [] => .ok (.data name)
  | first :: rest => do
      let nid ← int first "Second element of path should be the namespace id"
      match rest with
      | [] => .ok (.nid name nid)
      | [url] => .ok (.url name nid url)
      | [url, last] => do
          let id ← int last "fourth id element of path must be an integer"
          .ok (.obj name nid url id)
      | _ => .error (.base "path too long")

/-- `_get_schemas`, behind the element `schemas`. -/
def _get_schemas (name : Text) : List Text → Target
  | [] => .schemas name
  | url :: _ => .schema name url

/-- `get`, up to the key: the database that becomes the current one, and what
the path names in it. -/
def locate (names : List Text) (current path : Text) : Except Exn (Text × Target) := do
  let (current, splitted) ← _split_clean_path names current path
  match splitted with
  | [] => .ok (current, .root)
  | first :: rest =>
      if first = dataText then do
        let target ← _get_data current rest
        .ok (current, target)
      else if first = schemasText then .ok (current, _get_schemas current rest)
      else if first = infoText then .ok (current, .info current)
      else if rest = [] ∧ first = current then .ok (current, .bcdb current)
      else
        .error (.base
          "should not happen if _split_clean_path has done properly its job")

/-! ## Keys -/

/-- The texts that a key is joined from. -/
def Target.keyParts : Target → List Text
  | .root => [rootText]
  | .bcdb _ => [rootsText]
  | .info name => [name, infoText]
  | .data name => [name, dataText]
  | .nid name space => [name, dataText, str space]
  | .url name space address => [name, dataText, str space, address]
  | .obj name space address id => [name, dataText, str space, address, str id]
  | .schemas _ => [schemasText]
  | .schema _ address => [schemasText, address]

/-- The key under which `get` caches what a path names. -/
def Target.key (target : Target) : Text :=
  join '_' target.keyParts

/-- What `_extract_info_from_key` finds. -/
structure Info where
  bcdb_name : Option Text
  type : Text
  nid : Option Text
  url : Option Text
  obj_id : Option Text
  is_dir : Bool
  deriving DecidableEq

/-- The recursion of `_extract_info_from_key`.  A key that ends with a database
name raises an `IndexError`. -/
def extractParts (names : List Text) (current : Text) :
    Option Text → List Text → Option Info
  | _, [] => none
  | bcdb_name, first :: rest =>
      if first ∈ directories_under_root then
        if first = dataText then
          some ⟨some (bcdb_name.getD current), first, rest[0]?, rest[1]?, rest[2]?,
            rest.length < 3⟩
        else
          some ⟨some (bcdb_name.getD current), first, none, rest[1]?, none,
            rest.length < 2⟩
      else if first ∈ names then extractParts names current (some first) rest
      else some ⟨bcdb_name, first, none, none, none, true⟩

def _extract_info_from_key (names : List Text) (current key : Text) : Option Info :=
  extractParts names current none (parts '_' (lower key))

/-! ## Deleting a directory -/

/-- What a directory lists: a text, an object with an id, or a plain number. -/
inductive Item where
  | str (text : Text)
  | obj (id : Int)
  | int (number : Int)
  deriving DecidableEq

/-- `BCDBVFS_Data_Dir.delete`, for one item: what is deleted in its place. -/
def deleteItem (names : List Text) (current : Text) (key : Text) (item : Item) :
    Except Exn (Text × Target) :=
  match _extract_info_from_key names current key with
  | none => .error (.base "list index out of range")
  | some info =>
      if info.type = infoText then
        .error (.base "that data directory can't be deleted")
      else
        match item with
        | .str text =>
            locate names current (replace '_' '/' key ++ '/' :: text)
        | .obj id => locate names current (replace '_' '/' key ++ '/' :: str id)
        | .int _ => .error (.attributeError "id")

end JumpscaleX.VFS
