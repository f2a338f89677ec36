import JumpscaleX.Library.Lines
import JumpscaleX.Types

/-!
# The hosts file

`HostFile`: lines are looked up with regular expressions that hold the address as it
is, and edited by replacing the text that was found.
-/

namespace JumpscaleX.HostFile

/-- `str.isspace`, and `\s` in a pattern. -/
def isspace (char : Char) : Bool :=
  let code := char.toNat
  (9 ≤ code && code ≤ 13) || (28 ≤ code && code ≤ 32) || code == 133 || code == 160 ||
    code == 5760 || (8192 ≤ code && code ≤ 8202) || code == 8232 || code == 8233 ||
    code == 8239 || code == 8287 || code == 12288

/-- `str.split` without a separator. -/
def split (text : List Char) : List (List Char) :=
  (text.splitOnP isspace).filter (fun part => !part.isEmpty)

/-- What opening a file as text makes of its line breaks. -/
def universalNewlines : List Char → List Char
  | '\r' :: '\n' :: chars => '\n' :: universalNewlines chars
  | '\r' :: chars => '\n' :: universalNewlines chars
  | char :: chars => char :: universalNewlines chars
  | [] => []

/-- Four decimal numbers up to 255 with dots between them. -/
def isIPv4 (text : List Char) : Bool :=
  text.all (fun char => char.isDigit || char == '.') &&
    (text.splitOn '.').length == 4 &&
    (text.splitOn '.').all (fun octet =>
      !octet.isEmpty && octet.length ≤ 3 && Nat.ofDigitChars 10 octet 0 ≤ 255)

structure IPv4 where
  text : List Char
  valid : isIPv4 text = true

/-- A name that can stand between blanks. -/
structure Hostname where
  text : List Char
  some : text ≠ []
  plain : text.all (fun char => !isspace char) = true

/-- The characters of an address in a pattern; a dot stands for any character that is
no line break.  The result is what follows them. -/
def dropAddress : List Char → List Char → Option (List Char)
  | [], chars => some chars
  | '.' :: pattern, char :: chars => if char = '\n' then none else dropAddress pattern chars
  | expected :: pattern, char :: chars =>
      if char = expected then dropAddress pattern chars else none
  | _ :: _, [] => none

/-- `^%s\s` at the start of a line. -/
def matchStart (ip : IPv4) (chars : List Char) : Option Unit :=
  match dropAddress ip.text chars with
  | some (blank :: _) => if isspace blank then some () else none
  | _ => none

/-- `^%s\s.*\n` at the start of a line: the text that it matches. -/
def matchEntry (ip : IPv4) (chars : List Char) : Option (List Char) :=
  match dropAddress ip.text chars with
  | some (blank :: rest) =>
      if isspace blank && rest.contains '\n' then
        some (chars.take (ip.text.length + 1) ++ rest.takeWhile (· ≠ '\n') ++ ['\n'])
      else none
  | _ => none

/-- `re.search` with `re.MULTILINE`. -/
def searchStart (ip : IPv4) (filecontents : List Char) : Option Unit :=
  Lines.search '\n' (matchStart ip) true filecontents

def searchEntry (ip : IPv4) (filecontents : List Char) : Option (List Char) :=
  Lines.search '\n' (matchEntry ip) true filecontents

/-- `j.sal.fs.readFile`. -/
def readFile (file : List Char) : List Char := universalNewlines file

/-- `ip_remove`: the file behind it. -/
def ip_remove (file : List Char) (ip : IPv4) : List Char :=
  match searchEntry ip (readFile file) with
  | some found => Lines.replace found [] 0 (readFile file)
  | none => file

def ip_exists (file : List Char) (ip : IPv4) : Bool :=
  (searchStart ip (readFile file)).isSome

/-- `hostnames_get`; where `ip_exists` sees an address that is not on a line of its own
there is no match to take a group of. -/
def hostnames_get (file : List Char) (ip : IPv4) : Except Exn (List (List Char)) :=
  if ip_exists file ip then
    match searchEntry ip (readFile file) with
    | some found => .ok ((split (StringType.strip isspace found)).drop 1)
    | none => .error (.attributeError "'NoneType' object has no attribute 'group'")
  else .ok []

/-- The line that `hostnames_set` writes. -/
def entryLine (ip : IPv4) (hostnames : List Hostname) : List Char :=
  ip.text ++ ' ' :: [' '].intercalate (hostnames.map Hostname.text)

/-- `hostnames_set`: the file behind it. -/
def hostnames_set (file : List Char) (ip : IPv4) (hostnames : List Hostname) : List Char :=
  match searchEntry ip (readFile file) with
  | some found => Lines.replace found (entryLine ip hostnames ++ ['\n']) 0 (readFile file)
  | none => readFile file ++ entryLine ip hostnames ++ ['\n']

inductive Call
  | hostnames_set (ip : IPv4) (hostnames : List Hostname) (nonempty : hostnames ≠ [])
  | ip_remove (ip : IPv4)
  | ip_exists (ip : IPv4)
  | hostnames_get (ip : IPv4)

/-- The file behind a call. -/
def step (file : List Char) : Call → List Char
  | .hostnames_set ip hostnames _ => hostnames_set file ip hostnames
  | .ip_remove ip => ip_remove file ip
  | .ip_exists _ => file
  | .hostnames_get _ => file

end JumpscaleX.HostFile
