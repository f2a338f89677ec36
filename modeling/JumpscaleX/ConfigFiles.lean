import JumpscaleX.Library.Dict
import JumpscaleX.Library.Lines
import JumpscaleX.HostFile
import JumpscaleX.VFSKeys

/-!
# Configuration files

`config_save` and `config_load` of `Tools.py`: the text that is written for a dictionary, and
what is read of a text.
-/

namespace JumpscaleX.ConfigFiles

open Fallible PyText

abbrev Text := List Char

/-- A value of a configuration. -/
inductive Value where
  | text (text : Text)
  | int (number : Int)
  | bool (flag : Bool)
  | list (items : List Text)
  deriving DecidableEq

/-- `int` of a text, in all the scripts whose digits it knows. -/
structure Numbers where
  int : Text → Option Int
  int_str : ∀ number, int (VFS.str number) = some number

def strip (text : Text) : Text :=
  StringType.strip HostFile.isspace text

/-- `strip` of one character. -/
def stripChar (char : Char) (text : Text) : Text :=
  StringType.strip (· = char) text

def rstripChar (char : Char) (text : Text) : Text :=
  (text.reverse.dropWhile (· = char)).reverse

/-! ## Saving -/

/-- `'%s'` -/
def quoted (text : Text) : Text :=
  '\'' :: (text ++ ['\''])

/-- What is written for a value.  A truth value is an `int`, so that its `str` is written. -/
def writeValue : Value → Text
  | .list items =>
      rstripChar ',' ('[' :: items.flatMap (fun item => quoted item ++ [','])) ++ [']']
  | .text text => quoted text
  | .int number => VFS.str number
  | .bool true => "True".toList
  | .bool false => "False".toList

def writeLine (upper : Bool) (key : Text) (value : Value) : Text :=
  (if upper then key.map Char.toUpper else key) ++ ' ' :: '=' :: ' ' :: writeValue value

/-- `config_save`, the text that is written to the file. -/
def configSave (data : Dict Text Value) (upper : Bool) : Text :=
  data.entries.flatMap (fun entry => writeLine upper entry.1 entry.2 ++ ['\n'])

/-! ## Loading -/

/-- The text of a file, where every line break is read as the same character. -/
def fileTextRead : Text → Text
  | '\r' :: '\n' :: text => '\n' :: fileTextRead text
  | '\r' :: text => '\n' :: fileTextRead text
  | char :: text => char :: fileTextRead text
  | [] => []

/-- `val.strip().strip("'").strip().strip('"').strip()` -/
def unquoted (text : Text) : Text :=
  strip (stripChar '"' (strip (stripChar '\'' (strip text))))

/-- What stands before a comment. -/
def uncommented (text : Text) : Text :=
  text.takeWhile (· ≠ '#')

def falseWords : List Text :=
  ["false".toList, "n".toList, "no".toList]

def trueWords : List Text :=
  ["true".toList, "y".toList, "yes".toList]

/-- The items of a list. -/
def readItems (text : Text) : List Text :=
  ((splitChars ',' (stripChar ']' (stripChar '[' text))).filter (fun item => strip item ≠ [])).map
    unquoted

/-- The value that a text without its quotes stands for. -/
def valueOf (numbers : Numbers) (val : Text) : Value :=
  if val.map Char.toLower ∈ falseWords then .bool false
  else if val.map Char.toLower ∈ trueWords then .bool true
  else if '[' ∈ val then .list (readItems val)
  else
    match numbers.int val with
    | some number => .int number
    | none => .text val

/-- What the value of a line is read as. -/
def readValue (numbers : Numbers) (text : Text) : Value :=
  valueOf numbers (unquoted (uncommented text))

/-- One line of `config_load`. -/
def loadLine (numbers : Numbers) (keysLower : Bool) (res : Dict Text Value) (line : Text) :
    Except Exn (Dict Text Value) :=
  if strip line = [] then .ok res
  else if line.head? = some '#' then .ok res
  else if '=' ∈ line then
    let key := (strip (line.takeWhile (· ≠ '='))).map Char.toUpper
    let val := readValue numbers ((line.dropWhile (· ≠ '=')).drop 1)
    .ok (res.put (if keysLower then key.map Char.toLower else key) val)
  else
    .error (.input (.other ("Cannot process config: did not find = in line '" ++
      String.ofList line ++ "'")))

/-- `config_load` of the text of a file. -/
def configLoad (numbers : Numbers) (content : Text) (keysLower : Bool) :
    Except Exn (Dict Text Value) :=
  (splitChars '\n' content).foldlM (loadLine numbers keysLower) Dict.empty

/-- What is loaded of the file that a dictionary was saved to. -/
def reload (numbers : Numbers) (keysLower : Bool) (data : Dict Text Value) :
    Except Exn (Dict Text Value) :=
  configLoad numbers (fileTextRead (configSave data true)) keysLower

/-- A number of times saved and loaded. -/
def reloads (numbers : Numbers) (keysLower : Bool) :
    Nat → Dict Text Value → Except Exn (Dict Text Value)
  | 0, data => .ok data
  | rounds + 1, data => do
      let data ← reloads numbers keysLower rounds data
      reload numbers keysLower data

end JumpscaleX.ConfigFiles
