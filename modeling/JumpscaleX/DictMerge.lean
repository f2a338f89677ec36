import Mathlib.Data.List.Sort
import Mathlib.Data.String.Basic
import JumpscaleX.Library.Dict
import JumpscaleX.Dedent
import JumpscaleX.Scalars
import JumpscaleX.PyNumbers

/-!
# Merging dicts

`SerializerDict`: the values of an update are converted to the types of a template and
put in a copy of it.  The values of the dicts are objects in a memory, so that it shows
which of them two dicts share.  The list of errors is the default argument of `merge`,
one list for all the calls.
-/

namespace JumpscaleX.DictMerge

open PyText

/-- What is in an object: the values of JSON and TOML, and tuples. -/
inductive Content where
  | none
  | bool (value : Bool)
  | int (value : Int)
  | float (value : PyFloat)
  | str (text : String)
  | list (items : List Content)
  | tuple (items : List Content)
  | dict (entries : List (String × Content))

/-! ## Comparing values -/

mutual

/-- The value with its numbers as floats and the entries of its dicts in the order of
their keys. -/
def plain : Content → Content
  | .bool value => .float (.finite (if value then 1 else 0))
  | .int value => .float (.finite value)
  | .list items => .list (plainItems items)
  | .tuple items => .tuple (plainItems items)
  | .dict entries =>
      .dict ((plainEntries entries).insertionSort (fun first second => first.1 ≤ second.1))
  | .none => .none
  | .float value => .float value
  | .str text => .str text

def plainItems : List Content → List Content
  | [] => []
  | item :: items => plain item :: plainItems items

def plainEntries : List (String × Content) → List (String × Content)
  | [] => []
  | (key, value) :: entries => (key, plain value) :: plainEntries entries

end

mutual

def same : Content → Content → Bool
  | .none, .none => true
  | .bool first, .bool second => first == second
  | .int first, .int second => first == second
  | .float first, .float second => first == second
  | .str first, .str second => first == second
  | .list first, .list second => sameItems first second
  | .tuple first, .tuple second => sameItems first second
  | .dict first, .dict second => sameEntries first second
  | _, _ => false

def sameItems : List Content → List Content → Bool
  | [], [] => true
  | first :: firsts, second :: seconds => same first second && sameItems firsts seconds
  | _, _ => false

def sameEntries : List (String × Content) → List (String × Content) → Bool
  | [], [] => true
  | (key, first) :: firsts, (key', second) :: seconds =>
      key == key' && same first second && sameEntries firsts seconds
  | _, _ => false

end

/-- `==`: the numbers of all types are compared by what they count. -/
def equals (first second : Content) : Bool :=
  same (plain first) (plain second)

/-- The number, of the types that are ordered together. -/
def number? : Content → Option PyFloat
  | .bool value => some (.finite (if value then 1 else 0))
  | .int value => some (.finite value)
  | .float value => some value
  | _ => none

def lessFloat : PyFloat → PyFloat → Bool
  | .finite first, .finite second => first < second
  | .finite _, .infinite negative => !negative
  | .infinite negative, .finite _ => negative
  | .infinite first, .infinite second => first && !second
  | .nan, _ => false
  | _, .nan => false

mutual

/-- `<`, where the types of both values have an order. -/
def lessThan : Content → Content → Option Bool
  | .str first, .str second => some (first < second)
  | .list first, .list second => lessItems first second
  | .tuple first, .tuple second => lessItems first second
  | first, second =>
      match number? first, number? second with
      | some first, some second => some (lessFloat first second)
      | _, _ => none

/-- The first items that differ decide. -/
def lessItems : List Content → List Content → Option Bool
  | [], seconds => some (!seconds.isEmpty)
  | _ :: _, [] => some false
  | first :: firsts, second :: seconds =>
      if equals first second then lessItems firsts seconds else lessThan first second

end

/-! ## The types of the values -/

inductive MergeError where
  /-- `j.exceptions.Input` -/
  | input (message : String)
  /-- `j.exceptions.Value` -/
  | value (message : String)
  /-- "could not find type of:", with the value of the template -/
  | unknownType (template : Content)
  | typeError
  | overflowError

/-- The types in the order in which the checks of `set_value` ask for them. -/
inductive Kind where
  | list
  | bool
  | int
  | float
  | string
  deriving DecidableEq

/-- The first check that the value passes. -/
def kind? : Content → Option Kind
  | .list _ => some .list
  | .tuple _ => some .list
  | .bool _ => some .bool
  | .int _ => some .int
  | .float _ => some .float
  | .str _ => some .string
  | .none => none
  | .dict _ => none

structure Options where
  keysReplace : Dict String String := .empty
  addNonExist : Bool := false
  die : Bool := true
  listunique : Bool := false
  listsort : Bool := true
  liststrip : Bool := true

/-- The key of the template that a key of the update stands for. -/
def Options.target (options : Options) (key : String) : String :=
  (options.keysReplace.get key).getD key

/-- What becomes the value of a key: the very object of the update, or a new one. -/
inductive Stored where
  | same
  | fresh (content : Content)

def Stored.content (val : Content) : Stored → Content
  | .same => val
  | .fresh content => content

/-! ## Converting a value -/

def stripItem (strip : Bool) : Content → Content
  | .str text => if strip then .str (Scalars.strip text) else .str text
  | other => other

def addUnique (strip : Bool) (res : List Content) (item : Content) : List Content :=
  if res.any (equals (stripItem strip item)) then res else res ++ [stripItem strip item]

/-- `sort`, of items of which every two can be compared. -/
def sorted (items : List Content) : Except MergeError (List Content) :=
  if items.Pairwise (fun first second => (lessThan first second).isSome) then
    .ok (items.insertionSort (fun first second => lessThan second first ≠ some true))
  else .error .typeError

/-- `_unique_list` -/
def uniqueList (items : List Content) (sort strip : Bool) :
    Except MergeError (List Content) :=
  let res := items.foldl (addUnique strip) []
  if sort then sorted res else .ok res

/-- What a loop over a value walks through. -/
def iterated : Content → Except MergeError (List Content)
  | .list items => .ok items
  | .tuple items => .ok items
  | .dict entries => .ok (entries.map (fun entry => .str entry.1))
  | .str text => .ok (text.toList.map (fun char => .str (String.ofList [char])))
  | .none => .error .typeError
  | .bool _ => .error .typeError
  | .int _ => .error .typeError
  | .float _ => .error .typeError

/-- The items that a text stands for. -/
def textItems (text : String) : List Content :=
  if ',' ∈ text.toList then
    (splitChars ',' text.toList).map (fun item =>
      .str (Scalars.strip (String.ofList (item.filter (· ≠ '\'')))))
  else [.str text]

/-- `val`, before it is made unique. -/
def listed : Content → Stored
  | .str text => .fresh (.list (textItems text))
  | .bool value => .fresh (.list [.bool value])
  | .int value => .fresh (.list [.int value])
  | .float value => .fresh (.list [.float value])
  | .none => .same
  | .list _ => .same
  | .tuple _ => .same
  | .dict _ => .same

def toList (options : Options) (val : Content) : Except MergeError Stored :=
  if options.listunique then do
    let items ← iterated ((listed val).content val)
    let res ← uniqueList items options.listsort options.liststrip
    return .fresh (.list res)
  else .ok (listed val)

/-- `str(val).lower() in ["true", "1", "y", "yes"]`.  The texts of the other values have a
point or a bracket in them, or are a name for no value. -/
def isYes : Content → Bool
  | .bool value => value
  | .int value => value = 1
  | .str text => lower text ∈ ["true", "1", "y", "yes"]
  | .none => false
  | .float _ => false
  | .list _ => false
  | .tuple _ => false
  | .dict _ => false

def intMessage (key : String) : String :=
  "Expected value of \"" ++ key ++ "\" should be of type int or a string of int."

def floatMessage (key : String) : String :=
  "Expected value of \"" ++ key ++ "\" should be of type float or a string of float."

def stringMessage (key : String) : String :=
  "Expected value of \"" ++ key ++ "\" should be of type string."

/-- A `ValueError` under the message of `set_value`; other errors pass. -/
def reported {α : Type} (message : String) : Except Exn α → Except MergeError α
  | .ok value => .ok value
  | .error .overflowError => .error .overflowError
  | .error _ => .error (.value message)

def toInt (key : String) : Content → Except MergeError Int
  | .str text =>
      if Scalars.strip text = "" then .ok 0 else reported (intMessage key) (int text)
  | .bool value => .ok (if value then 1 else 0)
  | .int value => .ok value
  | .float value => reported (intMessage key) value.int
  | .none => .error .typeError
  | .list _ => .error .typeError
  | .tuple _ => .error .typeError
  | .dict _ => .error .typeError

section

-- `round` is the float that is nearest to a number.
variable (round : Rat → PyFloat)

def rounded : PyFloat → PyFloat
  | .finite value => round value
  | .infinite negative => .infinite negative
  | .nan => .nan

/-- `float` of an integer, which is to fit. -/
def floatOfInt (value : Int) : Except MergeError PyFloat :=
  match round value with
  | .finite nearest => .ok (.finite nearest)
  | .infinite _ => .error .overflowError
  | .nan => .error .overflowError

def toFloat (key : String) : Content → Except MergeError PyFloat
  | .str text => (reported (floatMessage key) (float text)).map (rounded round)
  | .bool value => .ok (.finite (if value then 1 else 0))
  | .int value => floatOfInt round value
  | .float value => .ok value
  | .none => .error .typeError
  | .list _ => .error .typeError
  | .tuple _ => .error .typeError
  | .dict _ => .error .typeError

def toStr (key : String) : Content → Except MergeError String
  | .str text => .ok (TextTools.textStrip text)
  | _ => .error (.value (stringMessage key))

/-- The branch of `set_value` for a type. -/
def converted (options : Options) (key : String) (kind : Kind) (val : Content) :
    Except MergeError Stored :=
  match kind with
  | .list => toList options val
  | .bool => .ok (.fresh (.bool (isYes val)))
  | .int => (toInt key val).map (fun value => .fresh (.int value))
  | .float => (toFloat round key val).map (fun value => .fresh (.float value))
  | .string => (toStr key val).map (fun text => .fresh (.str text))

/-! ## Merging -/

/-- The objects and the dicts, by the order in which they were made, and the list which
is the default of `errors`. -/
structure Memory where
  objects : List Content
  dicts : List (Dict String Nat)
  errors : List (String × Nat)

namespace Memory

variable (memory : Memory)

def object (number : Nat) : Content :=
  memory.objects.getD number .none

def dict (number : Nat) : Dict String Nat :=
  memory.dicts.getD number .empty

/-- `dict[key] = val` -/
def assign (number : Nat) (key : String) (val : Nat) : Memory :=
  { memory with dicts := memory.dicts.modify number (fun dict => dict.put key val) }

/-- `dict[key] = content`, with a new object. -/
def assignNew (number : Nat) (key : String) (content : Content) : Memory :=
  { memory.assign number key memory.objects.length with objects := memory.objects ++ [content] }

def addError (key : String) (val : Nat) : Memory :=
  { memory with errors := memory.errors ++ [(key, val)] }

def copy (dict : Dict String Nat) : Memory :=
  { memory with dicts := memory.dicts ++ [dict] }

/-- Put in a dict what has become of a value. -/
def store (number : Nat) (key : String) (val : Nat) : Stored → Memory
  | .same => memory.assign number key val
  | .fresh content => memory.assignNew number key content

end Memory

open Stateful

/-- `set_value` -/
def setValue (options : Options) (dictsource : Nat) (key : String) (val : Nat) :
    EStateM MergeError Memory PUnit := do
  let memory ← getThe Memory
  match (memory.dict dictsource).get key with
  | none =>
      if options.addNonExist then modify (fun memory => memory.assign dictsource key val)
      else if options.die then
        throw (.input ("dictsource does not have key:" ++ key ++ ", can insert value"))
      else modify (fun memory => memory.addError key val)
  | some template =>
      match kind? (memory.object template) with
      | none => throw (.unknownType (memory.object template))
      | some kind =>
          let stored ← attempt (converted round options key kind (memory.object val))
          modify (fun memory => memory.store dictsource key val stored)

/-- The entries of an update in the order of `keys`. -/
def sortedItems (updates : Dict String Nat) : List (String × Nat) :=
  updates.entries.insertionSort (fun first second => first.1 ≤ second.1)

/-- `merge`, with the default for `errors`. -/
def merge (options : Options) (dictsource dictupdate : Nat) :
    EStateM MergeError Memory (Nat × List (String × Nat)) := do
  let memory ← getThe Memory
  match memory.dicts[dictsource]?, memory.dicts[dictupdate]? with
  | some template, some updates =>
      modify (fun memory => memory.copy template)
      (sortedItems updates).forM (fun item =>
        setValue round options memory.dicts.length (options.target item.1) item.2)
      let reached ← getThe Memory
      return (memory.dicts.length, reached.errors)
  | _, _ => throw (.input "dictsource and dictupdate need to be dicts")

end

end JumpscaleX.DictMerge
