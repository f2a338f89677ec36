import Mathlib.Data.List.Infix
import JumpscaleX.DeltaTimes
import JumpscaleX.Library.Patterns

/-!
# Scalar types

The scalar types of `PrimitiveTypes.py` and `AdvTypes.py`: what each one makes of a
value that is assigned or read, and the capnp field that it declares.
-/

namespace JumpscaleX

open Fallible PyText

/-- A value of any other class: its text, its truth, and the number it converts to. -/
structure PyObject where
  text : String
  truthy : Bool
  number : Option Rat
  deriving DecidableEq

/-- A value given to a scalar property, or read from it. -/
inductive Scalar where
  | none
  | bool (value : Bool)
  | int (value : Int)
  | float (value : PyFloat)
  | str (value : String)
  | bytes (value : List Nat)
  | other (object : PyObject)
  deriving DecidableEq

namespace Scalar

/-- The truth value. -/
def truthy : Scalar → Bool
  | none => false
  | bool value => value
  | int value => decide (value ≠ 0)
  | float value => decide (value ≠ .finite 0)
  | str value => decide (value ≠ "")
  | bytes value => !value.isEmpty
  | other object => object.truthy

/-- `value == number`, for a whole number. -/
def equals (number : Int) : Scalar → Bool
  | bool value => decide ((if value then 1 else 0) = number)
  | int value => decide (value = number)
  | float value => decide (value = .finite number)
  | other object => decide (object.number = some (number : Rat))
  | _ => false

end Scalar

namespace Scalars

/-! ## Texts -/

def strip (text : String) : String :=
  String.ofList (StringType.strip HostFile.isspace text.toList)

/-- `replace` of each of the characters by nothing. -/
def without (chars : List Char) (text : String) : String :=
  String.ofList (text.toList.filter (fun char => !chars.contains char))

/-- `strip` of one character. -/
def stripChar (char : Char) (text : String) : String :=
  String.ofList (StringType.strip (· = char) text.toList)

/-- A text of digits. -/
def isdigit (text : String) : Bool :=
  !text.toList.isEmpty && text.toList.all Char.isDigit

/-- The text stands between two of the quotes, with blanks around it at most. -/
def Wrapped (quote : Char) (text : String) : Prop :=
  let value2 := (strip text).toList
  1 < value2.length ∧ value2.head? = some quote ∧ value2.getLast? = some quote

instance (quote : Char) (text : String) : Decidable (Wrapped quote text) := by
  unfold Wrapped
  infer_instance

/-- The text without the quotes around it. -/
def unquoted (text : String) : String :=
  if Wrapped '\'' text then stripChar '\'' (strip text)
  else if Wrapped '"' text then stripChar '"' (strip text)
  else text

/-- A newline, or a backslash with the letter n behind it. -/
def hasNewline (text : String) : Bool :=
  decide ('\n' ∈ text.toList ∨ ['\\', 'n'] <:+: text.toList)

/-! ## The patterns -/

def isLetter (char : Char) : Bool :=
  ('a' ≤ char && char ≤ 'z') || ('A' ≤ char && char ≤ 'Z')

def isAlnum (char : Char) : Bool :=
  isLetter char || char.isDigit

open Pattern

/-- `[a-zA-Z0-9._%+-]+@[a-zA-Z0-9.-]+\.[a-zA-Z]{2,}` -/
def emailPattern : Pattern :=
  seq (plus (one (fun char => isAlnum char || "._%+-".toList.contains char)))
    (seq (char '@')
      (seq (plus (one (fun char => isAlnum char || ".-".toList.contains char)))
        (seq (char '.') (atLeast 2 (one isLetter)))))

/-- `\+?[0-9]{6,15}(?:x[0-9]+)?` -/
def telPattern : Pattern :=
  seq (optional (char '+'))
    (seq (between 6 9 (one Char.isDigit))
      (optional (seq (char 'x') (plus (one Char.isDigit)))))

/-- `(?:www\.|(?!www))` -/
def urlStart : Pattern :=
  either (word "www.".toList) (notAhead (word "www".toList))

/-- `[a-zA-Z0-9][a-zA-Z0-9-]+[a-zA-Z0-9]` -/
def urlName : Pattern :=
  seq (one isAlnum)
    (seq (plus (one (fun char => isAlnum char || char = '-'))) (one isAlnum))

/-- `\.[^\s]{2,}` -/
def urlEnd : Pattern :=
  seq (char '.') (atLeast 2 (one (fun char => !HostFile.isspace char)))

/-- The pattern of `Url`, with its four ways to write one. -/
def urlPattern : Pattern :=
  either (seq urlStart (seq urlName urlEnd))
    (either (seq (word "www.".toList) (seq urlName urlEnd))
      (either
        (seq (word "http".toList) (seq (optional (char 's'))
          (seq (word "://".toList) (seq urlStart (seq (one isAlnum) urlEnd)))))
        (seq (word "www.".toList) (seq (one isAlnum) urlEnd))))

/-- `UUID(value, version=4).hex` is the text without its dashes. -/
def isGuid (text : String) : Bool :=
  let hex := (without ['-'] text).toList
  hex.length = 32 && hex.all (fun char => char.isDigit || "abcdef".toList.contains char) &&
    hex[12]? = some '4' && (hex[16]?.any (fun char => "89ab".toList.contains char))

/-! ## What Python and its host provide -/

/-- The parts of the standard library that no text of the repository fixes: how floats
are written, how bytes and base64 are decoded, what `ipaddress` takes, and the time zone. -/
structure Machine where
  /-- `str` of a float. -/
  floatText : PyFloat → String
  /-- `bytes.decode`. -/
  decode : List Nat → Option String
  /-- `str.encode`. -/
  encode : String → List Nat
  b64decode : String → Option (List Nat)
  /-- `IPv6Interface` builds. -/
  ipv6Interface : Scalar → Bool
  /-- `IPv4Interface` builds. -/
  ipv4Interface : Scalar → Bool
  /-- `int(time.mktime(time.strptime(text, format)))` -/
  mktimeStrptime : String → String → Except Exn Int
  /-- The day that `datetime.fromtimestamp` finds. -/
  localDay : Int → Except Exn Int
  /-- The epoch that `strftime("%s")` gives for the first moment of a day. -/
  dayStart : Int → Int

/-- What differs from one call to the next: the clock, and the guid that is generated. -/
structure Moment where
  epoch : Int
  /-- The year of `epoch2HRDate`. -/
  year : String
  generateGUID : String
  isGuid_generateGUID : isGuid generateGUID = true

variable (machine : Machine) (moment : Moment)

/-- `str`. -/
def str : Scalar → Except Exn String
  | .none => .ok "None"
  | .bool value => .ok (if value then "True" else "False")
  | .int value => .ok (toString value)
  | .float value => .ok (machine.floatText value)
  | .str value => .ok value
  | .bytes value =>
      -- Bytes are decoded before.
      match machine.decode value with
      | some text => .ok text
      | none => .error (.valueError "invalid start byte")
  | .other object => .ok object.text

/-- `int`. -/
def int : Scalar → Except Exn Int
  | .bool value => .ok (if value then 1 else 0)
  | .int value => .ok value
  | .float value => value.int
  | .str value => PyText.int value
  | .bytes value =>
      match machine.decode value with
      | some text => PyText.int text
      | none => .error (.valueError "invalid literal for int()")
  | .other object =>
      match object.number with
      | some number => .ok (number.num.tdiv number.den)
      | none => .error (.typeError "int() argument must be a string or a number")
  | .none => .error (.typeError "int() argument must be a string or a number")

/-- `float`. -/
def float : Scalar → Except Exn PyFloat
  | .bool value => .ok (.finite (if value then 1 else 0))
  | .int value => .ok (.finite value)
  | .float value => .ok value
  | .str value => PyText.float value
  | .bytes value =>
      match machine.decode value with
      | some text => PyText.float text
      | none => .error (.valueError "could not convert string to float")
  | .other object =>
      match object.number with
      | some number => .ok (.finite number)
      | none => .error (.typeError "float() argument must be a string or a number")
  | .none => .error (.typeError "float() argument must be a string or a number")

/-! ## The types -/

/-- The scalar types. -/
inductive Kind where
  | string | multiline | email | tel | url | guid | iprange | ipport | int | int64
  | float | percent | bool | bytes | datetime | date | duration
  deriving DecidableEq

/-- The default of a type as a schema gives it, an empty text when it gives none. -/
abbrev Default := String

/-- `clean` of a text as a `String`: the word none stands for `None`. -/
def stringText (text : String) : Scalar :=
  if lower text = "none" then .none else .str (unquoted text)

def stringClean (default : Default) : Scalar → Except Exn Scalar
  | .none => .ok (stringText default)
  | .str text => .ok (stringText text)
  | value => do
      let text ← str machine value
      return .str (unquoted text)

/-- `StringMultiLine.clean` -/
def multilineClean (default : Default) (value : Scalar) : Except Exn Scalar :=
  if ¬ value.truthy then .ok (.str default)
  else
    match value with
    | .str text =>
        if hasNewline text then .ok value
        else .error (.valueError ("Invalid value for multiline " ++ text))
    | _ => .error (.valueError "Invalid value for multiline")

/-- `Email.check`, of a text. -/
def emailCheck (text : String) : Bool :=
  strip text = "" || fullmatch emailPattern text

/-- `Email.clean` behind its test for `None`. -/
def emailText (value : Scalar) : Except Exn Scalar := do
  match ← stringClean machine "" value with
  | .str text =>
      if emailCheck text then return .str (lower text)
      else throw (.valueError ("Invalid email :" ++ text))
  | _ => throw (.valueError "Invalid email :None")

def emailClean (default : Default) (value : Scalar) : Except Exn Scalar :=
  if value = .none ∨ value = .str "None" then
    if default = "" then .ok (.str "")
    -- `clean` and `default_get` call each other.
    else if default = "None" then .error (.runtime "maximum recursion depth exceeded")
    else emailText machine (.str default)
  else emailText machine value

/-- `Tel.check` -/
def telCheck (text : String) : Bool :=
  text = "" || fullmatch telPattern text

def telClean (default : Default) (value : Scalar) : Except Exn Scalar :=
  if value = .none ∨ value = .str "None" then
    .ok (if default = "" then .none else .str default)
  else do
    match ← stringClean machine "" value with
    | .str text =>
        let v := without [',', '-', '(', ')', ' '] text
        if telCheck v then return .str v
        else throw (.valueError ("Invalid mobile number :" ++ v))
    | _ => throw (.attributeError "replace")

def urlClean (default : Default) (value : Scalar) : Except Exn Scalar :=
  if value = .none ∨ value = .str "None" ∨ value = .str "" then .ok (.str default)
  else
    match value with
    | .str text =>
        if fullmatch urlPattern text then .ok value
        else .error (.valueError ("invalid url :" ++ text))
    | _ => .error (.typeError "expected string or bytes-like object")

/-- `Guid.clean` behind its test for an empty value. -/
def guidText : Scalar → Except Exn Scalar
  | .str text =>
      if isGuid text then .ok (.str text) else .error (.valueError ("invalid guid :" ++ text))
  | .bytes _ => .error (.typeError "a bytes-like object is required, not 'str'")
  | _ => .error (.valueError "invalid guid")

def guidClean (default : Default) (value : Scalar) : Except Exn Scalar :=
  if value = .none ∨ value = .str "" then
    if default = "" then .ok (.str moment.generateGUID) else guidText (.str default)
  else guidText value

/-- `IPRange.clean` behind its test for an empty value. -/
def iprangeText (value : Scalar) : Except Exn Scalar :=
  if machine.ipv6Interface value || machine.ipv4Interface value then .ok value
  else .error (.valueError "invalid ip range")

def iprangeClean (default : Default) (value : Scalar) : Except Exn Scalar :=
  if value = .none ∨ value = .str "None" ∨ value = .str "" then
    if default = "None" then .error (.runtime "maximum recursion depth exceeded")
    else iprangeText machine (.str (if default = "" then "::/128" else default))
  else iprangeText machine value

/-- `IPPort.clean` -/
def ipportClean (default : Default) (value : Scalar) : Except Exn Scalar :=
  if ¬ value.truthy then .ok (if default = "" then .int 65535 else .str default)
  else
    match int machine value with
    | .ok port =>
        if 0 < port ∧ port ≤ 65535 then .ok (.int port)
        else .error (.valueError "invalid port")
    | .error _ => .error (.valueError "invalid port")

/-- `clean` of a text as an `Integer` or an `Int64`. -/
def integerText (text : String) : Except Exn Int :=
  match stringText text with
  | .str cleaned =>
      let value := without [','] (strip cleaned)
      if value = "" then .ok 0
      else
        match PyText.int value with
        | .ok number => .ok number
        | .error _ => .error (.valueError ("Invalid value for integer: '" ++ value ++ "'"))
  | _ => .error (.attributeError "strip")

/-- `clean` of `Integer` and of `Int64`, which differ in the number of an unset value. -/
def integerClean (unset : Int) (default : Default) : Scalar → Except Exn Scalar
  | .none =>
      if default = "" then .ok (.int unset) else (integerText default).map .int
  | .bool value => .ok (.bool value)
  | .int value => .ok (.int value)
  | .float value => value.int.map .int
  | .str text => (integerText text).map .int
  | _ => .error (.valueError "Invalid value for integer")

def floatClean (default : Default) (value : Scalar) : Except Exn Scalar :=
  match value with
  | .none =>
      if default = "" then .ok (.float (.finite 0)) else (PyText.float default).map .float
  | _ => (float machine value).map .float

/-- A float over hundred. -/
def overHundred : PyFloat → PyFloat
  | .finite value => .finite (value / 100)
  | value => value

/-- `Percent.clean` of a text. -/
def percentText (text : String) : Except Exn PyFloat :=
  let value := strip (stripChar '\'' (stripChar '"' (strip text)))
  if '%' ∈ value.toList then (PyText.float (without ['%'] value)).map overHundred
  else PyText.float value

def percentClean (default : Default) : Scalar → Except Exn Scalar
  | .none =>
      if default = "" then .ok (.float (.finite 0)) else (percentText default).map .float
  | .str text => (percentText text).map .float
  | .bool value => .ok (.float (.finite (if value then 1 else 0)))
  | .int value => .ok (.float (.finite value))
  | .float value => .ok (.float value)
  | _ => .error (.valueError "could not convert input to percent")

/-- `Boolean.clean` of a text. -/
def booleanText (text : String) : Except Exn Scalar :=
  match stringText text with
  | .str cleaned => .ok (.bool (["true", "yes", "y", "1"].contains (strip (lower cleaned))))
  | _ => .error (.attributeError "lower")

def booleanClean (default : Default) : Scalar → Except Exn Scalar
  | .none => if default = "" then .ok (.bool false) else booleanText default
  | .str text => booleanText text
  | value => .ok (.bool (value.equals 1))

/-- `Bytes.fromString` -/
def bytesFromString (text : String) : Except Exn Scalar :=
  match machine.b64decode text with
  | some value => .ok (.bytes value)
  | none =>
      match stringText text with
      | .str cleaned => .ok (.bytes (machine.encode cleaned))
      | _ => .error (.attributeError "encode")

def bytesClean (default : Default) : Scalar → Except Exn Scalar
  | .none => if default = "" then .ok (.bytes []) else bytesFromString machine default
  | .str text => bytesFromString machine text
  | .bytes value => .ok (.bytes value)
  | _ => .error (.valueError "byte input required")

/-! ### Times -/

/-- `date_process`: the text of a date, and its format. -/
def dateProcess (dd : String) : Except Exn (String × String) :=
  if '/' ∉ dd.toList then .error (.input (.other "date needs to have:/"))
  else
    match split '/' dd with
    | [_, _] => .ok (moment.year ++ "/" ++ strip dd, "%Y/%m/%d")
    | [first, second, third] =>
        let s0 := (strip first).length
        let s1 := (strip second).length
        let s2 := (strip third).length
        if s0 = 4 ∧ (s1 = 2 ∨ s1 = 1) ∧ (s2 = 2 ∨ s2 = 1) then .ok (dd, "%Y/%m/%d")
        else if s2 = 4 ∧ (s1 = 2 ∨ s1 = 1) ∧ (s0 = 2 ∨ s0 = 1) then .ok (dd, "%d/%m/%Y")
        else if (s2 = 2 ∨ s2 = 1) ∧ (s1 = 2 ∨ s1 = 1) ∧ (s0 = 2 ∨ s0 = 1) then
          .ok (dd, "%y/%m/%d")
        else .error (.input (.other "date wrongly formatted"))
    | _ => .error (.input (.other "date needs to have 2 or 3 /"))

/-- `time_process`: the text of a time, and its format. -/
def timeProcess (text : String) : Except Exn (String × String) :=
  let v := strip text
  if ':' ∉ v.toList then .ok ("00:00:00", "%H:%M:%S")
  else
    let lowered := (lower v).toList
    let half := decide (['a', 'm'] <:+: lowered ∨ ['p', 'm'] <:+: lowered)
    match split ':' v with
    | [_, _] => .ok (v, if half then "%I%p:%M" else "%H:%M")
    | [_, _, _] => .ok (v, if half then "%I%p:%M:%S" else "%H:%M:%S")
    | _ => .error (.unboundLocalError "fstr")

/-- `DateTime.clean` of a text. -/
def datetimeText (text : String) : Except Exn Int :=
  if isdigit text then PyText.int text
  else
    let v := strip (without ['\'', '"'] text)
    if v = "0" ∨ v = "" then .ok 0
    else if '+' ∈ v.toList ∨ '-' ∈ v.toList then
      (Time.getDeltaTime v).map (moment.epoch + ·)
    else do
      let (dd, tt) ←
        if ':' ∈ v.toList then
          match v.toList.dropWhile (· ≠ ' ') with
          | _ :: rest => pure (String.ofList (v.toList.takeWhile (· ≠ ' ')), String.ofList rest)
          | [] => throw (.valueError "not enough values to unpack (expected 2, got 1)")
        else pure (v, "")
      let (tt, tfstr) ← timeProcess tt
      let (dd, dfstr) ← dateProcess moment dd
      machine.mktimeStrptime (dd ++ " " ++ tt) (dfstr ++ " " ++ tfstr)

/-- The number that `DateTime.clean` makes of a value, `True` and `False` apart. -/
def datetimeNumber : Scalar → Except Exn Int
  | .bool value => .ok (if value then 1 else 0)
  | .int value => .ok value
  | .str text => datetimeText machine moment text
  | .bytes value =>
      match machine.decode value with
      | some text =>
          if isdigit text then PyText.int text
          else .error (.valueError "Input needs to be string")
      | none => .error (.valueError "Input needs to be string")
  | _ => .error (.attributeError "isdigit")

def datetimeClean (default : Default) (value : Scalar) : Except Exn Scalar :=
  match value with
  | .none => .ok (if default = "" then .int 0 else .str default)
  | .bool value => .ok (.bool value)
  | _ => (datetimeNumber machine moment value).map .int

/-- The first moment of the day. -/
def dayOf (epoch : Int) : Except Exn Int := do
  let day ← machine.localDay epoch
  return machine.dayStart day

/-- The value without quotes, as a date is read. -/
def dateText : Scalar → Scalar
  | .str text => .str (strip (without ['\'', '"'] text))
  | value => value

/-- The value means no date. -/
def NoDate (value : Scalar) : Prop :=
  value.equals 0 = true ∨ value = .str "0" ∨ value = .str ""

instance (value : Scalar) : Decidable (NoDate value) := by
  unfold NoDate
  infer_instance

/-- `Date.clean` behind its test for `None`. -/
def dateNumber (value : Scalar) : Except Exn Int :=
  if NoDate (dateText value) then .ok 0
  else do
    let v2 ← datetimeNumber machine moment (dateText value)
    dayOf machine v2

def dateClean (default : Default) (value : Scalar) : Except Exn Scalar :=
  match value with
  | .none => .ok (if default = "" then .int 0 else .str default)
  | _ => (dateNumber machine moment value).map .int

/-- `Duration.clean` -/
def durationClean (value : Scalar) : Except Exn Scalar :=
  if value.equals 0 ∨ value = .str "0" ∨ value = .none ∨ value = .str "" then .ok (.int 0)
  else
    match value with
    | .str text => (Duration.cleanText text).map .int
    | .int seconds => .ok (.int seconds)
    | .bool seconds => .ok (.bool seconds)
    | _ => .error (.valueError "Input needs to be string or int")

/-- `clean` of a type with its default. -/
def clean (kind : Kind) (default : Default) : Scalar → Except Exn Scalar :=
  match kind with
  | .string => stringClean machine default
  | .multiline => multilineClean default
  | .email => emailClean machine default
  | .tel => telClean machine default
  | .url => urlClean default
  | .guid => guidClean moment default
  | .iprange => iprangeClean machine default
  | .ipport => ipportClean machine default
  | .int => integerClean 2147483647 default
  | .int64 => integerClean 9223372036854775807 default
  | .float => floatClean machine default
  | .percent => percentClean default
  | .bool => booleanClean default
  | .bytes => bytesClean machine default
  | .datetime => datetimeClean machine moment default
  | .date => dateClean machine moment default
  | .duration => durationClean

/-- `toData`: no scalar type makes an object of its own. -/
def toData (kind : Kind) (default : Default) (value : Scalar) : Except Exn Scalar :=
  clean machine moment kind default value

/-! ## The capnp fields -/

inductive CapnpField where
  | Text | Data | Bool | Int32 | Int64 | UInt32 | Float64
  deriving DecidableEq

/-- The field that `capnp_schema_get` declares. -/
def capnpField : Kind → CapnpField
  | .string | .multiline | .email | .tel | .url | .guid | .iprange => .Text
  | .ipport | .int => .Int32
  | .int64 => .Int64
  | .float | .percent => .Float64
  | .bool => .Bool
  | .bytes => .Data
  | .datetime | .date | .duration => .UInt32

/-- The numbers of a field of whole numbers. -/
def CapnpField.InRange : CapnpField → Int → Prop
  | .Int32, number => -2 ^ 31 ≤ number ∧ number < 2 ^ 31
  | .Int64, number => -2 ^ 63 ≤ number ∧ number < 2 ^ 63
  | .UInt32, number => 0 ≤ number ∧ number < 2 ^ 32
  | _, _ => False

/-- The data that a field can hold.  `True` and `False` count as one and zero. -/
def CapnpField.Holds : CapnpField → Scalar → Prop
  | .Text, .str _ => True
  | .Data, .bytes _ => True
  | .Bool, .bool _ => True
  | .Float64, .float _ => True
  | field, .int number => field.InRange number
  | field, .bool value => field.InRange (if value then 1 else 0)
  | _, _ => False

end Scalars

end JumpscaleX
