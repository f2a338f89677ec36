import JumpscaleX.Dedent

/-!
# Blocks of lines

`extractBlocks` of `RegexTools`, a loop over the lines of a text that opens and closes
blocks, and the blocks that a text has.  Whether a pattern is found in a line is given.
-/

namespace JumpscaleX.TextBlocks

open PyText

abbrev Text := List Char

/-- The arguments of `extractBlocks` behind the text. -/
structure Patterns (P : Type) where
  blockStartPatterns : List P
  blockStartPatternsNegative : List P
  blockStopPatterns : List P
  blockStopPatternsNegative : List P
  linesIncludePatterns : List P
  linesExcludePatterns : List P
  includeMatchingLine : Bool

inductive State where
  | scan
  | foundblock
  | endoffile
  deriving DecidableEq

/-- The variables of the loop. -/
structure Scanner where
  state : State
  block : Text
  result : List Text

section

variable {P : Type} [DecidableEq P] (found : P → Text → Bool) (patterns : Patterns P)

/-- `matchMultiple` -/
def matchMultiple (candidates : List P) (text : Text) : Bool :=
  if text = [] then false else candidates.any (fun pattern => found pattern text)

/-- The line matches a start pattern and no negative one. -/
def begins (line : Text) : Bool :=
  matchMultiple found patterns.blockStartPatterns line &&
    !matchMultiple found patterns.blockStartPatternsNegative line

def stops (line : Text) : Bool :=
  matchMultiple found patterns.blockStopPatterns line

/-- There are negative stop patterns, and none of them is in the line. -/
def notNegative (line : Text) : Bool :=
  !patterns.blockStopPatternsNegative.isEmpty &&
    !matchMultiple found patterns.blockStopPatternsNegative line

/-- `addLine` -/
def addLine (line : Text) : Bool :=
  matchMultiple found patterns.linesIncludePatterns line &&
    !matchMultiple found patterns.linesExcludePatterns line || line.isEmpty

/-- The test of `extractBlocks` for the end of a block, the last line apart. -/
def closes (line : Text) : Bool :=
  stops found patterns line || begins found patterns line || notNegative found patterns line

def lineAt (lines : List Text) (t : Nat) : Except Exn Text :=
  match lines[t]? with
  | some line => .ok line
  | none => .error (.indexError "list index out of range")

/-- The line that a block is looked for in, where one has ended at a line. -/
def lineBehind (lines : List Text) (t : Nat) (line : Text) : Except Exn Text :=
  if patterns.blockStartPatterns = patterns.blockStopPatterns then
    if t < lines.length then lineAt lines (t + 1) else .ok []
  else .ok line

/-- The part of the loop that looks for the end of a block, with the line afterwards. -/
def closing (lines : List Text) (t : Nat) (line : Text) (scanner : Scanner) :
    Except Exn (Scanner × Text) :=
  if scanner.state = .foundblock ∧ (t = lines.length - 1 ∨ closes found patterns line) then
    if t = lines.length - 1 then
      .ok ({ state := .endoffile,
             block := if addLine found patterns line then scanner.block ++ line ++ ['\n']
               else scanner.block,
             result := scanner.result ++ [scanner.block] }, line)
    else (lineBehind patterns lines t line).map (fun line =>
      ({ scanner with state := .scan, result := scanner.result ++ [scanner.block] }, line))
  else .ok (scanner, line)

/-- One turn of the loop. -/
def turn (lines : List Text) (scanner : Scanner) (t : Nat) : Except Exn Scanner := do
  let line ← lineAt lines t
  let add := addLine found patterns line
  let (scanner, line) ← closing found patterns lines t line scanner
  let scanner :=
    if scanner.state = .foundblock ∧ add then
      { scanner with block := scanner.block ++ line ++ ['\n'] }
    else scanner
  if scanner.state = .scan ∧ begins found patterns line then
    return { scanner with
      state := .foundblock
      block := if patterns.includeMatchingLine && add then line ++ ['\n'] else [] }
  else return scanner

def extractBlocks (text : Text) : Except Exn (List Text) := do
  let lines := splitChars '\n' text
  let scanner ← (List.range lines.length).foldlM (turn found patterns lines)
    { state := .scan, block := [], result := [] }
  return scanner.result

/-! ## The blocks of a text -/

/-- The lines among some pieces of a text between its line breaks: what is behind the
last line break is a line when there is something. -/
def linesOf (pieces : List Text) : List Text :=
  if pieces.getLast? = some [] then pieces.dropLast else pieces

/-- A line at which a block ends that is open there. -/
def ends (line : Text) : Bool :=
  stops found patterns line || begins found patterns line

/-- The lines that a block has behind its first one. -/
def following (rest : List Text) : List Text :=
  (rest.takeWhile (fun line => !ends found patterns line)).filter (addLine found patterns)

/-- The lines of the block that begins at a line. -/
def blockLines (first : Text) (rest : List Text) : List Text :=
  (if patterns.includeMatchingLine then [first].filter (addLine found patterns) else []) ++
    following found patterns rest

/-- A block begins at each line that matches a start pattern, since the one that is open
there ends. -/
def blocks : List Text → List (List Text)
  | [] => []
  | line :: rest =>
      if begins found patterns line then blockLines found patterns line rest :: blocks rest
      else blocks rest

/-- A block as a text. -/
def render (lines : List Text) : Text :=
  lines.flatMap (fun line => line ++ ['\n'])

end

end JumpscaleX.TextBlocks
