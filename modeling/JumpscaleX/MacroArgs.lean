import Mathlib.Data.List.DropRight
import JumpscaleX.Library.Dict
import JumpscaleX.ConfigRounds

/-!
# Arguments of a macro

`_args_get` and `_kwargs_get` of a wiki document, which cut the call of a macro at its
commas, and the calls that stand in documents.  `eval` is Python's own.
-/

namespace JumpscaleX.MacroArgs

open Fallible Profiles
open PyText (splitChars)

/-- `rstrip(", )")` -/
def rstrip (text : Text) : Text :=
  text.rdropWhile (fun char => decide (char ∈ [',', ' ', ')']))

/-- What is behind the first opening parenthesis of a text that has one. -/
def inside (methodcode : Text) : Text :=
  rstrip ((methodcode.dropWhile (· ≠ '(')).drop 1)

/-- An argument without blanks and quotes around it. -/
def unquoted (item : Text) : Text :=
  strip (stripChar '\'' (stripChar '"' (strip item)))

/-- `_args_get` -/
def argsGet (methodcode : Text) : List Text :=
  if '(' ∈ methodcode then
    ((splitChars ',' (inside methodcode)).filter (fun item => decide ('=' ∉ item))).map unquoted
  else []

section

variable {ε V : Type} (eval : Text → Except ε V)

/-- One item of the loop of `_kwargs_get`. -/
def putKwarg (kw : Dict Text V) (item : Text) : Except ε (Dict Text V) := do
  let pre := item.takeWhile (· ≠ '=')
  let post := (item.dropWhile (· ≠ '=')).drop 1
  let value ← eval post
  return kw.put (strip pre) value

/-- `_kwargs_get` -/
def kwargsGet (methodcode : Text) : Except ε (Dict Text V) :=
  let methodcode := if '(' ∈ methodcode then inside methodcode else methodcode
  (((splitChars ',' methodcode).filter (fun item => decide ('=' ∈ item))).map strip).foldlM
    (putKwarg eval) .empty

end

/-! ## Calls -/

/-- `eval`, and the texts that are literals.  A comma or a closing parenthesis in a literal
stands between brackets or quotes, and what is before it is no expression. -/
structure Python (ε V : Type) where
  eval : Text → Except ε V
  Literal : Text → V → Prop
  eval_literal : ∀ {text value}, Literal text value → eval text = .ok value
  trimmed : ∀ {text value}, Literal text value → strip text = text
  unclosed : ∀ {front blanks back : Text} {char : Char} {value},
    Literal (front ++ blanks ++ char :: back) value → (∀ blank ∈ blanks, HostFile.isspace blank) →
    char = ',' ∨ char = ')' → ∃ problem, eval front = .error problem

inductive Quote where
  | single
  | double
  deriving DecidableEq

def Quote.char : Quote → Char
  | .single => '\''
  | .double => '"'

/-- Characters of a word: no blank, no quote and none of the signs of a call. -/
def IsWord (text : Text) : Prop :=
  text ≠ [] ∧ ∀ char ∈ text,
    HostFile.isspace char = false ∧ char ∉ ['\'', '"', ',', '=', '(', ')']

/-- A positional argument: a bare word, or a string literal with one or three quotes. -/
inductive Positional where
  | word (text : Text) (isWord : IsWord text)
  | quoted (quote : Quote) (triple : Bool) (content : Text)

namespace Positional

/-- The text of the argument. -/
def content : Positional → Text
  | .word text _ => text
  | .quoted _ _ content => content

def marks (quote : Quote) (triple : Bool) : Text :=
  List.replicate (if triple then 3 else 1) quote.char

/-- The argument as it is written. -/
def text : Positional → Text
  | .word text _ => text
  | .quoted quote triple content => marks quote triple ++ content ++ marks quote triple

end Positional

section

variable {ε V : Type} (python : Python ε V)

structure Keyword where
  key : Text
  literal : Text
  value : V
  isKey : IsWord key
  isLiteral : python.Literal literal value

/-- `name(a1, ..., an, k1=v1, ..., km=vm)`, with any blanks behind the commas. -/
structure Call where
  name : Text
  isName : '(' ∉ name
  blanks : Text
  areBlanks : ∀ blank ∈ blanks, HostFile.isspace blank = true
  args : List Positional
  kwargs : List (Keyword python)
  distinct : (kwargs.map Keyword.key).Nodup

end

section

variable {ε V : Type} {python : Python ε V}

def Keyword.text (keyword : Keyword python) : Text :=
  keyword.key ++ '=' :: keyword.literal

namespace Call

variable (call : Call python)

/-- The arguments as they are written. -/
def items : List Text :=
  call.args.map Positional.text ++ call.kwargs.map Keyword.text

def methodcode : Text :=
  call.name ++ '(' :: (',' :: call.blanks).intercalate call.items ++ [')']

/-- The arguments come out as they are given. -/
def AsClaimed : Prop :=
  argsGet call.methodcode = call.args.map Positional.content ∧
    ∃ kw, kwargsGet python.eval call.methodcode = .ok kw ∧
      kw.entries = call.kwargs.map (fun keyword => (keyword.key, keyword.value))

end Call

end

/-- The content of a string literal which is not cut and keeps its ends. -/
def Positional.Plain : Positional → Prop
  | .word _ _ => True
  | .quoted quote _ content =>
      (',' ∉ content ∧ '=' ∉ content) ∧
        ∀ char, content.head? = some char ∨ content.getLast? = some char →
          HostFile.isspace char = false ∧ char ≠ '\'' ∧ (quote = .double → char ≠ '"')

/-- The call has an argument; the string literals among the positional ones have no comma
and no equal sign in them and no blank or quote at their ends; no value of a keyword has a
comma in it, and the last one does not end with a parenthesis. -/
structure Call.Sound {ε V : Type} {python : Python ε V} (call : Call python) : Prop where
  filled : call.args ≠ [] ∨ call.kwargs ≠ []
  plain : ∀ arg ∈ call.args, arg.Plain
  noComma : ∀ keyword ∈ call.kwargs, ',' ∉ keyword.literal
  last : ∀ keyword, call.kwargs.getLast? = some keyword → keyword.literal.getLast? ≠ some ')'

end JumpscaleX.MacroArgs
