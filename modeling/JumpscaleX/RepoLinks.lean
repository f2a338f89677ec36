import JumpscaleX.GitUrls

/-!
# Links to repositories

`MarkdownLinkParser` and `Linker` of `Link.py`: the custom form of a link, the urls that are
built for a repository, and what is read back from them.
-/

namespace JumpscaleX.RepoLinks

open GitUrls LazyGroup

/-! ## The custom form -/

/-- What `$` matches. -/
def textEnds : List Text :=
  [[], ['\n']]

section

-- what `\w` matches
variable (isWord : Char → Bool)

/-- `(\w+)$` -/
def wordToEnd (text : Text) : Option Text :=
  let word := text.takeWhile isWord
  if word ≠ [] ∧ text.dropWhile isWord ∈ textEnds then some word else none

/-- `\s*?(\w+)$` -/
def markerWord : Text → Option Text
  | [] => none
  | char :: rest =>
      (wordToEnd isWord (char :: rest)).or
        (if HostFile.isspace char then markerWord rest else none)

/-- `(?:\!\s*?(\w+))?$` -/
def pathEnd : Text → Option (Option Text)
  | '!' :: rest => (markerWord isWord rest).map some
  | rest => if rest ∈ textEnds then some none else none

/-- The path and the marker behind it. -/
def pathAndMarker : Text → Option (Text × Option Text) :=
  read (pathEnd isWord)

/-- The end of a branch, a colon and what follows. -/
def branchEnd : Text → Option (Text × Option Text)
  | ')' :: ':' :: rest => pathAndMarker isWord rest
  | _ => none

/-- The branch, if there is one, a colon and what follows. -/
def repoEnd : Text → Option (Option Text × Text × Option Text)
  | '(' :: rest => (read (branchEnd isWord) rest).map (fun found => (some found.1, found.2))
  | ':' :: rest => (pathAndMarker isWord rest).map (fun found => (none, found))
  | _ => none

/-- `parse_repo_and_path`: the repo, the branch, the path and the marker. -/
def parseRepoAndPath (text : Text) : Option (Option Text × Option Text × Text × Option Text) :=
  match read (repoEnd isWord) text with
  | some (repo, found) => some (some repo, found)
  | none => (pathAndMarker isWord text).map (fun found => (none, none, found))

/-- `str.partition` at a character. -/
def partition (separator : Char) (text : Text) : Text × Text :=
  (text.takeWhile (· ≠ separator), (text.dropWhile (· ≠ separator)).drop 1)

/-- `get_host_and_account`: the host, the account and the other part. -/
def getHostAndAccount (link : Text) : Option Text × Option Text × Text :=
  if link.count ':' = 3 then
    let (host, rest) := partition ':' link
    let (account, other) := partition ':' rest
    (some host, some account, other)
  else if link.count ':' = 2 then
    let (account, other) := partition ':' link
    (none, some account, other)
  else (none, none, link)

structure MarkdownLink where
  link : Text
  host : Option Text
  account : Option Text
  repo : Option Text
  branch : Option Text
  path : Text
  marker : Option Text
  deriving DecidableEq

/-- `is_url` -/
def isUrl (link : Text) : Bool :=
  let lower := link.map Char.toLower
  http.isPrefixOf lower || https.isPrefixOf lower

/-- `MarkdownLinkParser` -/
def MarkdownLink.parse (link : Text) : Except Exn MarkdownLink :=
  let stripped := strip link
  if isUrl stripped then .ok ⟨stripped, none, none, none, none, link, none⟩
  else
    let (host, account, other) := getHostAndAccount stripped
    match parseRepoAndPath isWord other with
    | none => .error (.attributeError "groups")
    | some (repo, branch, path, marker) =>
        .ok ⟨stripped, host, account, repo, branch.filter (· ≠ []), path, marker⟩

end

/-! ## Urls of a repository -/

structure Linker where
  host : Text
  account : Text
  repo : Text

def github : Text :=
  "github.com".toList

def Linker.new (host : Option Text) (account repo : Text) : Linker :=
  let host := ((host.filter (· ≠ [])).getD github).map Char.toLower
  ⟨if ['h', 't', 't', 'p'].isPrefixOf host then host else https ++ host, account, repo⟩

/-- `remove_slash` -/
def removeSlash (text : Text) : Text :=
  text.dropWhile (· = '/')

/-- `os.path.join` of two paths. -/
def joinPath (first second : Text) : Text :=
  if second.head? = some '/' then second
  else if first = [] ∨ first.getLast? = some '/' then first ++ second
  else first ++ '/' :: second

/-- `join_parts` -/
def joinParts (first : Text) (others : List Text) : Text :=
  others.foldl (fun joined part => joinPath joined (removeSlash part)) (removeSlash first)

def Linker.join (linker : Linker) (parts : List Text) : Text :=
  joinParts linker.host (linker.account :: linker.repo :: parts)

def Linker.tree (linker : Linker) (path : Text) (branch : Option Text) : Text :=
  let branch := (branch.filter (· ≠ [])).getD "master".toList
  linker.join [GitUrls.tree ++ '/' :: branch, path]

/-- What stands behind a host in a url.  The dot of a host matches any character. -/
def behindHost : Text → Text → Option Text
  | [], rest => some rest
  | _ :: _, [] => none
  | char :: host, other :: rest =>
      if (char = '.' ∧ other ≠ '\n') ∨ char.toLower = other.toLower then behindHost host rest
      else none

/-- `(?:http|https)\:\/\/` -/
def behindProtocol (url : Text) : Option Text :=
  let lower := url.map Char.toLower
  if http.isPrefixOf lower then some (url.drop http.length)
  else if https.isPrefixOf lower then some (url.drop https.length)
  else none

/-- `\/([^\/]+)` -/
def segment : Text → Option (Text × Text)
  | '/' :: rest =>
      let taken := rest.takeWhile (· ≠ '/')
      if taken = [] then none else some (taken, rest.dropWhile (· ≠ '/'))
  | _ => none

/-- `(?:\/(.*?)$)?` -/
def pathBehind : Text → Option Text
  | '/' :: rest => (read (closeEnd textEnds) rest).map Prod.fst
  | _ => none

/-- The branch and the path behind `tree` or `blob`. -/
def branchBehind (rest : Text) : Option Text × Option Text :=
  match segment rest with
  | some (kind, rest) =>
      if kind.map Char.toLower ∈ [tree, blob] then
        match segment rest with
        | some (branch, rest) => (some branch, pathBehind rest)
        | none => (none, none)
      else (none, none)
  | none => (none, none)

/-- `REPO_LINK_RE`: the account, the repo, the branch and the path. -/
def repoLink (host url : Text) : Option (Text × Text × Option Text × Option Text) := do
  let rest ← behindProtocol url
  let rest ← behindHost host rest
  let (account, rest) ← segment rest
  let (repo, rest) ← segment rest
  return (account, repo, branchBehind rest)

def branchText : Option Text → Text
  | some branch => '(' :: (branch ++ [')'])
  | none => []

/-- `host:account:repo(branch):path` -/
def customForm (host account repo : Text) (branch : Option Text) (path : Text) : Text :=
  host ++ ':' :: (account ++ ':' :: (repo ++ branchText branch ++ ':' :: path))

section

variable (isWord : Char → Bool) (env : Environment)

/-- The host that a url is read with. -/
def hostOf (url : Text) (host : Option Text) : Except Exn Text :=
  match host.filter (· ≠ []) with
  | some host => .ok host
  | none =>
      match codeGitrepoArgs env url none .unset with
      | .ok args => .ok args.host
      | .error (.base _) => .ok github
      | .error problem => .error problem

def toCustomLink (url : Text) (host : Option Text) : Except Exn MarkdownLink := do
  let host ← hostOf env url host
  match repoLink host url with
  | none =>
      .error (.valueError ("not a valid " ++ String.ofList host ++ " url: '" ++
        String.ofList url ++ "'"))
  | some (account, repo, branch, path) =>
      MarkdownLink.parse isWord (customForm host account repo (branch.filter (· ≠ [])) (path.getD []))

def replaceBranch (url : Text) (toBranch : Option Text) (host : Option Text) :
    Except Exn Text := do
  let link ← toCustomLink isWord env url host
  match link.account, link.repo with
  | some account, some repo => .ok ((Linker.new host account repo).tree link.path toBranch)
  | _, _ => .error (.attributeError "lstrip")

end

end JumpscaleX.RepoLinks
