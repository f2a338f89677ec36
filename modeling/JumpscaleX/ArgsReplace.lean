import JumpscaleX.HostFile
import JumpscaleX.JsonType
import JumpscaleX.RedisServer
import JumpscaleX.Library.Templates

/-!
# Replacing arguments in texts

`args_replace` and `text_replace` of `Tools.py`.  The loop over the lines of a text,
the arguments that are put together from a list of dicts, and the replacement of
their placeholders.
-/

namespace JumpscaleX.TextTools

open Fallible

/-- The tools with the colours and the configuration of their environment.
`serializer` is the function of this name, which dumps a value as YAML, and `str` is
the text of a number, or of an item in a list. -/
structure Tools where
  MYCOLORS : List (String × String)
  distinct : (MYCOLORS.map Prod.fst).Nodup
  config : List (String × PyVal)
  serializer : PyVal → String
  str : PyVal → String

/-- The options of `args_replace`. -/
structure Options where
  primitivesOnly : Bool
  ignoreColors : Bool
  dieIfArgsLeft : Bool

/-! ## Arguments -/

/-- An item in the text of a list. -/
def itemText (tools : Tools) : PyVal → String
  | .str text => "'" ++ text ++ "',"
  | item => tools.str item ++ ","

/-- `rstrip` of commas. -/
def rstripComma (text : String) : String :=
  String.ofList (text.toList.reverse.dropWhile (· = ',')).reverse

/-- `arg_process`, with `safe` for `_data_serializer_safe`. -/
def argProcess (tools : Tools) (safe : PyVal → Except Exn String) (options : Options)
    (key : String) (val : PyVal) : Except Exn PyVal :=
  if key = "self" then .ok .none
  else
    match val with
    | .none => .ok (.str "")
    | .str text =>
        if (StringType.strip HostFile.isspace text.toList).map Char.toLower = "none".toList then
          .ok .none
        else .ok val
    | .bool flag => .ok (.str (if flag = true then "1" else "0"))
    | .int _ => .ok val
    | .float _ => .ok val
    | .list items =>
        let out := items.foldl (fun out item => out ++ itemText tools item) "["
        .ok (.str (rstripComma out ++ "]"))
    | _ =>
        if options.primitivesOnly = true then .ok .none
        else (safe val).map .str

/-- One argument of one dict. -/
def addArg (tools : Tools) (safe : PyVal → Except Exn String) (options : Options)
    (argsNew : List (String × PyVal)) (arg : String × PyVal) :
    Except Exn (List (String × PyVal)) :=
  if (argsNew.lookup arg.1).isSome = true then .ok argsNew
  else do
    let val ← argProcess tools safe options arg.1 arg.2
    return if val.truthy = true then argsNew ++ [(arg.1, val)] else argsNew

/-- `args_combine`. -/
def argsCombine (tools : Tools) (safe : PyVal → Except Exn String) (options : Options)
    (argsList : List (List (String × PyVal))) : Except Exn (List (String × PyVal)) := do
  let argsNew ← argsList.flatten.foldlM (addArg tools safe options) []
  return tools.MYCOLORS.foldl
    (fun argsNew colour =>
      JsonText.setEntry colour.1
        (.str (if options.ignoreColors = true then "" else colour.2)) argsNew) argsNew

/-- `str` of a value that `arg_process` returned. -/
def strOf (tools : Tools) : PyVal → String
  | .str text => text
  | val => tools.str val

/-! ## Lines -/

/-- `process_line_failback`. -/
def processLineFailback (tools : Tools) (safe : PyVal → Except Exn String)
    (options : Options) (argsList : List (List (String × PyVal))) (line : List Char) :
    Except Exn (List Char) := do
  let argsNew ← argsCombine tools safe options argsList
  argsNew.foldlM
    (fun line arg => do
      ensure (arg.1 ≠ "") .assertionError
      return Lines.replace ('{' :: arg.1.toList ++ ['}']) (strOf tools arg.2).toList 0 line)
    line

/-- `self.formatter`.  No such attribute is ever set, the line in the constructor that
would set it is a comment. -/
def formatter : Except Exn Empty :=
  .error (.attributeError "formatter")

/-- `process_line`.  Reading `self.formatter` raises inside the first `try`, so that
every line is left to the fallback. -/
def processLine (tools : Tools) (safe : PyVal → Except Exn String) (options : Options)
    (argsList : List (List (String × PyVal))) (line : List Char) : Except Exn (List Char) :=
  if '{' ∉ line then .ok line
  else
    let line :=
      if Templates.occurrences "{}".toList line ≠ 0 then
        Lines.replace "{}".toList ">>EMPTYDICT<<".toList 0 line
      else line
    match formatter with
    | .error _ => processLineFailback tools safe options argsList line
    | .ok items => nomatch items

/-- `args_replace`. -/
def argsReplaceWith (tools : Tools) (safe : PyVal → Except Exn String) (options : Options)
    (argsList : List (List (String × PyVal))) (content : String) : Except Exn String :=
  if argsList = [] then .error .assertionError
  else if content = "" then .ok content
  else do
    let lines ← (PyText.splitChars '\n' content.toList).mapM (fun line =>
      if '{' ∈ line then processLine tools safe options argsList line else .ok line)
    return String.ofList (['\n'].intercalate lines)

/-! ## Texts -/

/-- The blanks in front of the lines of a text that all of them have. -/
def minchars (lines : List (List Char)) : Nat :=
  lines.foldl
    (fun least line =>
      if StringType.strip HostFile.isspace line = [] then least
      else min least (line.takeWhile HostFile.isspace).length) 9999

/-- `text_strip` with its defaults. -/
def textStrip (content : String) : String :=
  let lines := PyText.splitChars '\n' content.toList
  let minchars := minchars lines
  if 0 < minchars then
    let lines :=
      match lines with
      | first :: others =>
          if StringType.strip HostFile.isspace first = [] then others else first :: others
      | [] => []
    String.ofList (['\n'].intercalate (lines.map (fun line => line.drop minchars)))
  else content

/-- `text_replace`. -/
def textReplaceWith (tools : Tools) (safe : PyVal → Except Exn String) (options : Options)
    (args : List (String × PyVal)) (content : String) : Except Exn String :=
  if '{' ∉ content.toList then .ok content
  else do
    let content ← argsReplaceWith tools safe options [args, tools.config] content
    return textStrip content

/-- The secrets of a dict are not shown. -/
def hideSecrets : PyVal → PyVal
  | .dict entries => .dict (entries.map (fun entry =>
      if entry.1 ∈ ["passwd", "password", "secret"] then (entry.1, .str "***") else entry))
  | data => data

/-- `_data_serializer_safe`, which replaces the arguments in what it serialized.
`depth` bounds how deep the calls can be nested, as the interpreter does. -/
def dataSerializerSafe (tools : Tools) : Nat → PyVal → Except Exn String
  | 0, _ => .error (.runtime "maximum recursion depth exceeded")
  | depth + 1, data =>
      match data with
      | .bool _ => .ok (tools.str data)
      | .int _ => .ok (tools.str data)
      | .str text => .ok text
      | .list _ => .ok (tools.str data)
      | _ => textReplaceWith tools (dataSerializerSafe tools depth)
          ⟨false, true, false⟩ [] (tools.serializer (hideSecrets data))

/-- `args_replace`, with a bound on nested calls. -/
def argsReplace (tools : Tools) (depth : Nat) (options : Options)
    (argsList : List (List (String × PyVal))) (content : String) : Except Exn String :=
  argsReplaceWith tools (dataSerializerSafe tools depth) options argsList content

end JumpscaleX.TextTools
