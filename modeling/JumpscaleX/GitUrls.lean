import Mathlib.Data.List.Infix
import JumpscaleX.Library.LazyGroups
import JumpscaleX.Library.Lines
import JumpscaleX.HostFile
import JumpscaleX.VFSKeys

/-!
# Urls of git repositories

`code_git_rewrite_url`, `code_gitrepo_args` and `code_giturl_parse` of `Tools.py`.
-/

namespace JumpscaleX.GitUrls

open Fallible LazyGroup

abbrev Text := List Char

def strip (text : Text) : Text :=
  StringType.strip HostFile.isspace text

/-! ## Rewriting -/

/-- The settings of `ssh` that the docstring names. -/
inductive Ssh where
  | auto
  | first
  | on
  | off
  deriving DecidableEq

/-- Whether ssh is chosen.  `MyEnv` has no attribute `available`, so that reading it raises
and ssh stays off. -/
def Ssh.chosen : Ssh → Bool
  | auto => false
  | first => false
  | on => true
  | off => false

/-- The arguments beside the url.  No `ssh` is any other value that counts as false. -/
structure Settings where
  login : Option Text
  passwd : Option Text
  ssh : Option Ssh

/-- What `code_git_rewrite_url` returns. -/
structure Rewritten where
  protocol : Text
  host : Text
  account : Text
  name : Text
  url : Text
  port : Option Int
  deriving DecidableEq

/-- `int(url.split(":")[1].split("/")[0])` -/
def portOf (url : Text) : Option Int :=
  match PyText.splitChars ':' url with
  | _ :: second :: _ =>
      match PyText.splitChars '/' second with
      | number :: _ => (PyText.int (String.ofList number)).toOption
      | [] => none
  | _ => none

/-- `url.replace(":%s/" % (port), ":")` -/
def withoutPort (url : Text) (port : Int) : Text :=
  Lines.replace (':' :: (VFS.str port ++ ['/'])) [':'] 0 url

/-- What may stand behind the last group of a url. -/
def urlEnds : List Text :=
  [[], ['/'], ['\n'], ['/', '\n']]

/-- `(.*?)/(.*?)/?$` -/
def accountAndName : Text → Option (Text × Text) :=
  fun rest => (read (closeAt '/' (read (closeEnd urlEnds))) rest).map
    (fun found => (found.1, found.2.1))

/-- The protocol, the host, the account and the name in a url, and whether the url is one of
ssh. -/
structure Match where
  urlSsh : Bool
  protocol : Text
  host : Text
  account : Text
  name : Text

/-- `(.*?)`, the separator, `(.*?)/(.*?)/?$` -/
def matchBehind (urlSsh : Bool) (protocol : Text) (separator : Char) (rest : Text) :
    Option Match :=
  (read (closeAt separator accountAndName) rest).map
    (fun found => ⟨urlSsh, protocol, found.1, found.2.1, found.2.2⟩)

def gitAt : Text :=
  ['g', 'i', 't', '@']

def http : Text :=
  ['h', 't', 't', 'p', ':', '/', '/']

def https : Text :=
  ['h', 't', 't', 'p', 's', ':', '/', '/']

def sshProtocol : Text :=
  ['s', 's', 'h', ':', '/', '/']

def dotGit : Text :=
  ['.', 'g', 'i', 't']

/-- The three patterns, one after the other. -/
def matched : Text → Option Match
  | 'g' :: 'i' :: 't' :: '@' :: rest =>
      (matchBehind true gitAt ':' rest).or (matchBehind true gitAt '/' rest)
  | 'h' :: 't' :: 't' :: 'p' :: ':' :: '/' :: '/' :: rest => matchBehind false http '/' rest
  | 'h' :: 't' :: 't' :: 'p' :: 's' :: ':' :: '/' :: '/' :: rest =>
      matchBehind false https '/' rest
  | _ => none

def endsWithGit (name : Text) : Bool :=
  dotGit.isSuffixOf name

/-- The name with `.git` behind it, once. -/
def withGit (name : Text) : Text :=
  if endsWithGit name then name else name ++ dotGit

/-- The name without a `.git` behind it. -/
def withoutGit (name : Text) : Text :=
  if endsWithGit name then name.take (name.length - 4) else name

/-- How a missing password is written. -/
def passwdText : Option Text → Text
  | some passwd => passwd
  | none => ['N', 'o', 'n', 'e']

/-- `%(host)s/%(account)s/%(name)s` -/
def location (host account name : Text) : Text :=
  host ++ '/' :: (account ++ '/' :: name)

def portText : Option Int → Text
  | some port => ':' :: VFS.str port
  | none => []

/-- The login counts, and is no guest. -/
def loginOf (login : Option Text) : Option Text :=
  login.filter (fun login => login ≠ [] ∧ login ≠ "guest".toList)

/-- The protocol and the url that are written. -/
def written (settings : Settings) (ssh : Bool) (port : Option Int) (protocol : Text)
    (found : Match) : Text × Text :=
  -- the login is ssh whenever ssh is chosen
  if ssh then
    ("ssh".toList, sshProtocol ++ gitAt ++
      location (found.host ++ portText port) found.account (withGit found.name))
  else
    match loginOf settings.login with
    | some login =>
        (protocol, protocol ++ login ++ ':' :: (passwdText settings.passwd ++ '@' ::
          location found.host found.account (withGit found.name)))
    | none => (protocol, protocol ++ location found.host found.account (withGit found.name))

/-- The url that the patterns are matched with, and the port. -/
def prepared (url : Text) (ssh : Bool) : Text × Option Int :=
  let url := if sshProtocol.isPrefixOf url then Lines.replace sshProtocol [] 0 url else url
  if ssh then
    match portOf url with
    | some port => (withoutPort url port, some port)
    | none => (url, none)
  else (url, none)

def invalidUrl (url : Text) : Exn :=
  .base ("Url is invalid. Must be in the form of 'http(s)://hostname/account/repo' or " ++
    "'git@hostname:account/repo'\nnow:\n" ++ String.ofList url)

/-- `code_git_rewrite_url` -/
def codeGitRewriteUrl (url : Text) (settings : Settings) : Except Exn Rewritten :=
  match settings.ssh with
  | none => .error (.base "ssh needs to be auto, first or True or False: here:'None'")
  | some choice =>
      let ssh := choice.chosen
      let url := prepared (strip url) ssh
      match matched url.1 with
      | none => .error (invalidUrl url.1)
      | some found =>
          if strip found.name = [] ∨ strip found.account = [] then .error .assertionError
          else
            let protocol := if found.urlSsh && !ssh then https else found.protocol
            let written := written settings ssh url.2 protocol found
            .ok ⟨written.1, found.host, found.account, withoutGit (withGit found.name),
              written.2, url.2⟩

/-! ## Clones -/

/-- What the functions read of the machine. -/
structure Environment where
  githubUser : Option Text
  githubPasswd : Option Text
  codeDir : Text
  exists' : Text → Bool

/-- What `code_gitrepo_args` returns. -/
structure RepoArgs where
  host : Text
  type : Text
  account : Text
  name : Text
  dest : Text
  url : Text
  port : Option Int
  deriving DecidableEq

/-- The login and the password of the environment, where no login is given for a url of
github. -/
def Environment.completed (env : Environment) (url : Text) (settings : Settings) : Settings :=
  if settings.login = none ∧ "github.com/".toList <:+: url then
    { settings with
      login := env.githubUser
      passwd := env.githubPasswd.or settings.passwd }
  else settings

/-- The part of the host before its first dot. -/
def typeOf (host : Text) : Text :=
  (PyText.splitChars '.' host).headD host

/-- Where a repository is cloned. -/
def cloneDir (env : Environment) (found : Rewritten) : Text :=
  env.codeDir ++ '/' :: location ((typeOf found.host).map Char.toLower)
    (found.account.map Char.toLower) found.name

/-- `code_gitrepo_args`, without `reset`. -/
def codeGitrepoArgs (env : Environment) (url : Text) (dest : Option Text) (settings : Settings) :
    Except Exn RepoArgs := do
  let url := strip url
  if url = [] then
    match dest with
    | none => throw (.base "dest cannot be None (url is also '')")
    | some dest =>
        if !env.exists' dest then
          throw (.base ("Could not find git repo path:" ++ String.ofList dest ++
            ", url was not specified so git destination needs to be specified."))
  let found ← codeGitRewriteUrl url (env.completed url settings)
  let dest := (dest.filter (· ≠ [])).getD (cloneDir env found)
  return ⟨found.host, typeOf found.host, found.account, found.name, dest, found.url, found.port⟩

/-! ## Urls of a directory or a file -/

/-- `str.split` at a word.  `skip` characters of a word are still to be passed. -/
def splitWord (word : Text) : Nat → Text → List Text
  | _, [] => [[]]
  | skip + 1, _ :: text => splitWord word skip text
  | 0, char :: text =>
      if word.isPrefixOf (char :: text) then [] :: splitWord word (word.length - 1) text
      else
        match splitWord word 0 text with
        | [] => [[char]]
        | part :: parts => (char :: part) :: parts

/-- The two parts around a word. -/
def halves (word text : Text) : Except Exn (Text × Text) :=
  match splitWord word 0 text with
  | [first, second] => .ok (first, second)
  | _ => .error (.valueError "too many values to unpack (expected 2)")

def tree : Text :=
  ['t', 'r', 'e', 'e']

def blob : Text :=
  ['b', 'l', 'o', 'b']

/-- The parts around `tree`, or else around `blob`. -/
def cutPlace (text : Text) : Except Exn (Text × Text) :=
  if tree <:+: text then halves tree text
  else if blob <:+: text then halves blob text
  else .ok (text, [])

/-- The branch and the path behind the word. -/
def branchAndPath (urlEnd : Text) : Text × Text :=
  if urlEnd = [] then ([], [])
  else
    let urlEnd := StringType.strip (· = '/') urlEnd
    if '/' ∈ urlEnd then
      (urlEnd.takeWhile (· ≠ '/'), withoutGit ((urlEnd.dropWhile (· ≠ '/')).drop 1))
    else (withoutGit urlEnd, [])

/-- What `code_giturl_parse` returns. -/
structure Parsed where
  host : Text
  type : Text
  account : Text
  name : Text
  url : Text
  branch : Text
  gitpath : Text
  path : Text
  port : Option Int
  deriving DecidableEq

def Settings.unset : Settings :=
  ⟨none, none, some .auto⟩

/-- `code_giturl_parse`, where the first name that is unpacked is `repository_host` and takes
the protocol. -/
def codeGiturlParse (env : Environment) (url : Text) : Except Exn Parsed := do
  let url := strip url
  let found ← codeGitRewriteUrl url .unset
  let (repositoryUrl, urlEnd) ← cutPlace found.url
  let (branch, path) := branchAndPath urlEnd
  let args ← codeGitrepoArgs env url none .unset
  let (gitpath, _) ← cutPlace args.dest
  return ⟨found.protocol, found.host, found.account, found.name, repositoryUrl, branch, gitpath,
    path, args.port⟩

end JumpscaleX.GitUrls
