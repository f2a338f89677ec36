import JumpscaleX.Types

/-!
# The json type

`json.loads` with the whitespace, literals, numbers, escapes and containers of
a json text, and the type `j.data.types.json`, which parses every text that it
is given.  `NaN` and the infinities are not taken.
-/

namespace JumpscaleX

open Fallible

namespace JsonText

def isSpace (char : Char) : Bool :=
  char = ' ' ∨ char = '\t' ∨ char = '\n' ∨ char = '\r'

def skipSpaces (chars : List Char) : List Char :=
  chars.dropWhile isSpace

def digitsValue (digits : List Char) : Nat :=
  digits.foldl (fun value digit => 10 * value + (digit.toNat - '0'.toNat)) 0

/-- The digits of an integer part, without a leading zero. -/
def integerPart : List Char → Option (List Char × List Char)
  | '0' :: rest => some (['0'], rest)
  | chars =>
      let (digits, rest) := chars.span Char.isDigit
      if digits.isEmpty then none else some (digits, rest)

/-- The digits behind a point, if a point with digits follows. -/
def fraction : List Char → List Char × List Char
  | '.' :: chars =>
      let (digits, rest) := chars.span Char.isDigit
      if digits.isEmpty then ([], '.' :: chars) else (digits, rest)
  | chars => ([], chars)

/-- The exponent, if one with digits follows. -/
def exponent (chars : List Char) : Option Int × List Char :=
  match chars with
  | mark :: after =>
      if mark = 'e' ∨ mark = 'E' then
        let (negative, unsigned) :=
          match after with
          | '-' :: unsigned => (true, unsigned)
          | '+' :: unsigned => (false, unsigned)
          | unsigned => (false, unsigned)
        let (digits, rest) := unsigned.span Char.isDigit
        if digits.isEmpty then (none, chars)
        else
          let value : Int := digitsValue digits
          (some (if negative then -value else value), rest)
      else (none, chars)
  | [] => (none, chars)

/-- An integer, or a float where a fraction or an exponent follows. -/
def unsignedNumber (negative : Bool) (chars : List Char) : Option (PyVal × List Char) := do
  let (digits, chars) ← integerPart chars
  let (decimals, chars) := fraction chars
  let (power, chars) := exponent chars
  let sign : Int := if negative then -1 else 1
  if decimals.isEmpty ∧ power = none then
    return (.int (sign * digitsValue digits), chars)
  else
    let mantissa : Rat := sign * digitsValue (digits ++ decimals)
    let scale : Int := power.getD 0 - decimals.length
    return (.float (mantissa * (10 : Rat) ^ scale), chars)

def hexValue (char : Char) : Option Nat :=
  if char.isDigit then some (char.toNat - '0'.toNat)
  else if 'a' ≤ char ∧ char ≤ 'f' then some (char.toNat - 'a'.toNat + 10)
  else if 'A' ≤ char ∧ char ≤ 'F' then some (char.toNat - 'A'.toNat + 10)
  else none

def fourHex : List Char → Option (Nat × List Char)
  | first :: second :: third :: fourth :: rest => do
      let first ← hexValue first
      let second ← hexValue second
      let third ← hexValue third
      let fourth ← hexValue fourth
      return (((first * 16 + second) * 16 + third) * 16 + fourth, rest)
  | _ => none

/-- The character behind `\u`, with both halves of a surrogate pair. -/
def unicodeEscape (chars : List Char) : Option (Char × List Char) := do
  let (high, rest) ← fourHex chars
  if 0xD800 ≤ high ∧ high < 0xDC00 then
    match rest with
    | '\\' :: 'u' :: after => do
        let (low, after) ← fourHex after
        if 0xDC00 ≤ low ∧ low < 0xE000 then
          return (Char.ofNat (0x10000 + (high - 0xD800) * 0x400 + (low - 0xDC00)), after)
        else return (Char.ofNat high, rest)
    | _ => return (Char.ofNat high, rest)
  else return (Char.ofNat high, rest)

def escape : List Char → Option (Char × List Char)
  | '"' :: rest => some ('"', rest)
  | '\\' :: rest => some ('\\', rest)
  | '/' :: rest => some ('/', rest)
  | 'b' :: rest => some (Char.ofNat 8, rest)
  | 'f' :: rest => some (Char.ofNat 12, rest)
  | 'n' :: rest => some ('\n', rest)
  | 'r' :: rest => some ('\r', rest)
  | 't' :: rest => some ('\t', rest)
  | 'u' :: rest => unicodeEscape rest
  | _ => none

/-- The characters up to the closing quote; control characters are refused. -/
def stringBody : Nat → List Char → Option (List Char × List Char)
  | 0, _ => none
  | _ + 1, [] => none
  | _ + 1, '"' :: rest => some ([], rest)
  | fuel + 1, '\\' :: rest => do
      let (char, rest) ← escape rest
      let (chars, rest) ← stringBody fuel rest
      return (char :: chars, rest)
  | fuel + 1, char :: rest => do
      if char.toNat < 32 then none
      else
        let (chars, rest) ← stringBody fuel rest
        return (char :: chars, rest)

def literal (word : String) (value : PyVal) (chars : List Char) : Option (PyVal × List Char) :=
  if word.toList.isPrefixOf chars then some (value, chars.drop word.length) else none

/-- Set an entry of a dict; a key keeps the place it first had. -/
def setEntry (key : String) (value : PyVal) :
    List (String × PyVal) → List (String × PyVal)
  | [] => [(key, value)]
  | (name, old) :: entries =>
      if name = key then (key, value) :: entries
      else (name, old) :: setEntry key value entries

mutual

/-- One value, at the front of the text. -/
def value : Nat → List Char → Option (PyVal × List Char)
  | 0, _ => none
  | fuel + 1, '"' :: rest => do
      let (chars, rest) ← stringBody fuel rest
      return (.str (String.ofList chars), rest)
  | fuel + 1, '[' :: rest =>
      match skipSpaces rest with
      | ']' :: rest => some (.list [], rest)
      | rest => do
          let (items, rest) ← listItems fuel rest
          return (.list items, rest)
  | fuel + 1, '{' :: rest =>
      match skipSpaces rest with
      | '}' :: rest => some (.dict [], rest)
      | rest => dictEntries fuel [] rest
  | _ + 1, 'n' :: rest => literal "null" .none ('n' :: rest)
  | _ + 1, 't' :: rest => literal "true" (.bool true) ('t' :: rest)
  | _ + 1, 'f' :: rest => literal "false" (.bool false) ('f' :: rest)
  | _ + 1, '-' :: rest => unsignedNumber true rest
  | _ + 1, chars => unsignedNumber false chars

def listItems : Nat → List Char → Option (List PyVal × List Char)
  | 0, _ => none
  | fuel + 1, chars => do
      let (item, rest) ← value fuel chars
      match skipSpaces rest with
      | ']' :: rest => return ([item], rest)
      | ',' :: rest => do
          let (items, rest) ← listItems fuel (skipSpaces rest)
          return (item :: items, rest)
      | _ => none

def dictEntries : Nat → List (String × PyVal) → List Char → Option (PyVal × List Char)
  | 0, _, _ => none
  | fuel + 1, entries, '"' :: chars => do
      let (key, rest) ← stringBody fuel chars
      match skipSpaces rest with
      | ':' :: rest => do
          let (item, rest) ← value fuel (skipSpaces rest)
          let entries := setEntry (String.ofList key) item entries
          match skipSpaces rest with
          | '}' :: rest => return (.dict entries, rest)
          | ',' :: rest => dictEntries fuel entries (skipSpaces rest)
          | _ => none
      | _ => none
  | _ + 1, _, _ => none

end

/-- `json.loads`, reported as `j.data.serializers.json.loads` does. -/
def loads (text : String) : Except Exn PyVal :=
  let chars := text.toList
  match value (2 * chars.length + 2) (skipSpaces chars) with
  | some (result, rest) =>
      if (skipSpaces rest).isEmpty then .ok result
      else .error (.valueError "Cannot load json")
  | none => .error (.valueError "Cannot load json")

/-- No json text begins with the letter c. -/
theorem loads_letter {text : String} {rest : List Char}
    (chars : text.toList = 'c' :: rest) :
    loads text = .error (.valueError "Cannot load json") := by
  have noInteger : integerPart ('c' :: rest) = none := rfl
  have noValue (fuel : Nat) : value (fuel + 1) ('c' :: rest) = none := by
    rw [value]
    · simp [unsignedNumber, noInteger]
    all_goals
      intro later same
      cases same
  have noSpace : skipSpaces ('c' :: rest) = 'c' :: rest := rfl
  rw [loads, chars, noSpace, noValue]

end JsonText

namespace JsonType

/-- `clean` of the type without a default. -/
def clean (v : PyVal) : Except Exn PyVal :=
  if v.truthy then
    match v with
    | .str text =>
        if text.toList.all StringType.isSpace then .ok (.dict []) else JsonText.loads text
    | .bool _ | .int _ | .float _ | .list _ | .dict _ => .ok v
    | _ =>
        .error (.valueError
          "only support dict,set, list, int,float, JSXObject or string")
  else .ok (.dict [])

/-- `toData` cleans a value once more before it is dumped.  The text that is
stored is taken as the value that it is read back as. -/
def toData (v : PyVal) : Except Exn PyVal :=
  clean v

theorem clean_letter {text : String} {rest : List Char}
    (chars : text.toList = 'c' :: rest) :
    clean (.str text) = .error (.valueError "Cannot load json") := by
  have nonempty : text ≠ "" := by
    intro empty
    rw [empty] at chars
    cases chars
  have notBlank : StringType.isSpace 'c' = false := rfl
  simp [clean, PyVal.truthy, nonempty, chars, notBlank, JsonText.loads_letter chars]

example : toData (.str "OK") = .error (.valueError "Cannot load json") := by decide

end JsonType

end JumpscaleX
