import JumpscaleX.Value

/-!
# The string type

`j.data.types.string` with its cleaning of quotes, as the type object of a
property.
-/

namespace JumpscaleX

open Fallible

namespace StringType

/-- The characters that `str.strip` removes. -/
def isSpace (char : Char) : Bool :=
  char.toNat ∈ [9, 10, 11, 12, 13, 28, 29, 30, 31, 32, 133, 160]

def strip (drop : Char → Bool) (chars : List Char) : List Char :=
  ((chars.dropWhile drop).reverse.dropWhile drop).reverse

/-- Remove the quotes around a text. -/
def unquote (quote : Char) (chars : List Char) : List Char :=
  let value := strip isSpace chars
  if 1 < value.length ∧ value.head? = some quote ∧ value.getLast? = some quote then
    strip (· = quote) value
  else chars

/-- `clean` of a text.  The word none stands for `None`. -/
def cleanText (text : String) : PyVal :=
  let chars := text.toList
  if chars.map Char.toLower = "none".toList then .none
  else
    let single := unquote '\'' chars
    if single = chars then .str (String.ofList (unquote '"' chars))
    else .str (String.ofList single)

/-- `clean`, for texts and for the plain values that `str` turns into one. -/
def clean (default : String) : PyVal → Except Exn PyVal
  | .none => .ok (cleanText default)
  | .str text => .ok (cleanText text)
  | .int value => .ok (cleanText (toString value))
  | .bool value => .ok (cleanText (if value then "True" else "False"))
  | _ => .error (.valueError "cannot convert to string")

/-- The data for the capnp field, which takes texts only. -/
def toData (default : String) (value : PyVal) : Except Exn PyVal := do
  match ← clean default value with
  | .str text => return .str text
  | _ => throw (.base "could not create capnp message")

def columnValue : PyVal → Except Exn Cell
  | .none => .ok .null
  | .str text => .ok (.text text)
  | _ => .error (.valueError "not a text")

theorem clean_raises (default : String) (value : PyVal) :
    RaisesOnly Exn.Plain (clean default value) := by
  unfold clean
  split
  all_goals first | exact .ok _ | exact .error rfl

theorem toData_raises (default : String) (value : PyVal) :
    RaisesOnly Exn.Plain (toData default value) := by
  refine .bind (clean_raises default value) (fun cleaned => ?_)
  split
  · exact .ok _
  · exact .error rfl

theorem columnValue_raises (value : PyVal) :
    RaisesOnly Exn.Plain (columnValue value) := by
  unfold columnValue
  split
  all_goals first | exact .ok _ | exact .error rfl

end StringType

/-- The type object of a string property with the given default. -/
def stringType (default : String) : JSType where
  NAME := "string"
  clean := StringType.clean default
  defaultGet := StringType.cleanText default
  capnpZero := .str ""
  toData := StringType.toData default
  datadict := id
  eq := PyVal.pyEq
  columnValue := StringType.columnValue
  freshChanged := false
  cleanRaises := StringType.clean_raises default
  toDataRaises := StringType.toData_raises default
  columnValueRaises := StringType.columnValue_raises

example : StringType.cleanText " 'a b' " = .str "a b" := by decide

end JumpscaleX
