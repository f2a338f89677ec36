import JumpscaleX.Library.Dict
import JumpscaleX.Library.Runs
import JumpscaleX.RedisServer

/-!
# Looking up documents

`DocSite.doc_get` finds a document by its dotted name, by a variant of the name or by the end
of it, and writes what it found into the dictionary that the next lookups search.
-/

namespace JumpscaleX.DocSites

open Fallible Stateful Runs

/-! ## Names -/

/-- A name as it is given, a text or its parts. -/
inductive Name where
  | text (name : String)
  | list (parts : List String)

def isUpper (char : Char) : Bool :=
  'A' ≤ char && char ≤ 'Z'

def isLower (char : Char) : Bool :=
  'a' ≤ char && char ≤ 'z'

/-- `re.sub("([^/_.])([A-Z][a-z]+)", r"\1_\2", text)`.  The small letters behind a match
belong to it: `inWord` tells that they are next. -/
def markWords (inWord : Bool) : List Char → List Char
  | [] => []
  | [char] => [char]
  | char :: next :: chars =>
      if inWord && isLower char then char :: markWords true (next :: chars)
      else if !(['/', '_', '.'].contains char) && isUpper next && chars.head?.any isLower then
        char :: '_' :: next :: markWords true chars
      else char :: markWords false (next :: chars)

/-- `re.sub("([a-z0-9])([A-Z])", r"\1_\2", text)` -/
def markCapitals : List Char → List Char
  | [] => []
  | [char] => [char]
  | char :: next :: chars =>
      if (isLower char || char.isDigit) && isUpper next then
        char :: '_' :: next :: markCapitals chars
      else char :: markCapitals (next :: chars)

/-- `strip` of one character. -/
def stripChar (char : Char) (text : String) : String :=
  String.ofList (StringType.strip (· = char) text.toList)

/-- `text.replace("/", ".")` -/
def dotted (text : String) : String :=
  String.ofList (text.toList.map (fun char => if char = '/' then '.' else char))

def endsWith (text suffix : String) : Bool :=
  suffix.toList.isSuffixOf text.toList

/-- `text[:-count]` -/
def dropEnd (count : Nat) (text : String) : String :=
  String.ofList (text.toList.take (text.toList.length - count))

variable (lower : String → String)

/-- `j.core.text.convert_to_snake_case` -/
def convertToSnakeCase (text : String) : String :=
  lower (String.ofList (markCapitals (markWords false text.toList)))

/-- The name that `doc_get` searches for. -/
def cleaned (name : Name) : String :=
  let name :=
    match name with
    | .text name => name
    | .list parts => "/".intercalate parts
  let name := convertToSnakeCase lower (stripChar '.' (dotted name))
  let name := lower (stripChar '/' name)
  let name := if endsWith name ".md" then dropEnd 3 name else name
  stripChar '.' (dotted name)

/-! ## Documents -/

structure Doc where
  nameDotLower : String
  path : String
  deriving DecidableEq

/-- What the dictionary holds under a name: a document, `None` or the empty text. -/
inductive Answer where
  | doc (doc : Doc)
  | missing
  | blank
  deriving DecidableEq

/-- An entry of the dictionary, and for the record the name whose lookup wrote it. -/
structure Entry where
  answer : Answer
  writer : Option String
  deriving DecidableEq

abbrev Docs := Dict String Entry

/-- The entries of the dictionary whose documents have a dotted name with the given end. -/
def hits (docs : Docs) (name : String) : List (String × Entry) :=
  docs.entries.filter (fun entry =>
    match entry.2.answer with
    | .doc doc => endsWith doc.nameDotLower name
    | .missing => false
    | .blank => false)

def isSidebar (name : String) : Bool :=
  "_sidebar_parent".toList.isPrefixOf (lower name).toList

/-- `_doc_get`: how many documents there are, and the first one.  It returns nothing for a name
of the dictionary and a category: no document is equal to a text. -/
def docGetCount (docs : Docs) (name cat : String) : Option (Nat × Answer) :=
  if isSidebar lower name then some (1, .blank)
  else
    match docs.get name with
    | some entry => if cat = "" then some (1, entry.answer) else none
    | none =>
        match hits docs name with
        | [] => some (0, .missing)
        | first :: others => some (others.length + 1, first.2.answer)

/-- What `doc_get` returns: what it found, or a pair of 1 and that. -/
inductive Result where
  | answer (answer : Answer)
  | pair (nr : Nat) (answer : Answer)
  deriving DecidableEq

/-- The name that an answer is written under: the last six characters are cut from a name that
ends with `index`. -/
def savedAs (name : String) : String :=
  if endsWith name "index" then dropEnd 6 name else name

/-- The name of the readme next to an index. -/
def siblingReadme (name : String) : String :=
  dropEnd 5 name ++ "readme"

/-- The candidates to search, in order. -/
def candidates (name : String) : List String :=
  [name] ++
  (if endsWith name "readme" then [dropEnd 6 name ++ "index"] else [name ++ ".readme"]) ++
  (if endsWith name "index" then [] else [name ++ ".index"]) ++
  (if (savedAs name).toList.contains '.' then
    [savedAs name ++ "." ++ ((PyText.split '.' (savedAs name)).getLast?.getD "")]
  else [])

/-- What the loop over the candidates ends with. -/
inductive Verdict where
  | broken
  | found (answer : Answer)
  | several (nr : Nat)
  | nothing
  deriving DecidableEq

def search (docs : Docs) (cat : String) : List String → Verdict
  | [] => .nothing
  | candidate :: candidates =>
      match docGetCount lower docs candidate cat with
      | none => .broken
      | some (nr, answer) =>
          if nr = 1 then .found answer
          else if 1 < nr then .several nr
          else search docs cat candidates

def cannotUnpack : Exn :=
  .typeError "cannot unpack non-iterable NoneType object"

def notFound (name : String) (nr : Nat) : Exn :=
  .input (.other ("Cannot find doc with name:" ++ name ++ " (nr docs found:" ++ toString nr ++ ")"))

/-- The end of `doc_get`, when no document was found. -/
def fail (name : String) (nr : Nat) (die : Bool) : EStateM Exn Docs Result :=
  if die then throw (notFound name nr) else return .answer .missing

/-- `doc_get`, behind the search for a sibling. -/
def docGetCandidates (name cat : String) (die : Bool) : EStateM Exn Docs Result := do
  let docs ← getThe Docs
  match search lower docs cat (candidates name) with
  | .broken => throw cannotUnpack
  | .found answer =>
      modify (fun docs => docs.put (savedAs name) ⟨answer, some name⟩)
      return .answer answer
  | .several nr =>
      modify (fun docs => docs.put (savedAs name) ⟨.missing, some name⟩)
      fail (savedAs name) nr die
  | .nothing => fail (savedAs name) 0 die

/-- `doc_get` -/
def docGet (given : Name) (cat : String) (die : Bool) : EStateM Exn Docs Result := do
  let name := cleaned lower given
  let docs ← getThe Docs
  match docs.get name with
  | some entry =>
      if entry.answer = .missing ∧ die = true then
        throw (.input (.other ("Cannot find doc with name:" ++ name)))
      else return .answer entry.answer
  | none =>
      if endsWith name "index" then
        match docGetCount lower docs (siblingReadme name) cat with
        | none => throw cannotUnpack
        | some (nr, answer) =>
            if nr = 1 then return .pair 1 answer else docGetCandidates lower name cat die
      else docGetCandidates lower name cat die

end JumpscaleX.DocSites
