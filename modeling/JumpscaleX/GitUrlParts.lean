import JumpscaleX.GitUrlForms

/-!
# The parts of git urls

A login that is written into a url, the names that are yielded for the url of a directory or
a file, and when a url yields the parts that it was made of.
-/

namespace JumpscaleX.GitUrls

open Fallible LazyGroup

/-! ## A login in the url -/

section

theorem readEnd_length {text group : Text} {closed : Unit}
    (found : read (closeEnd urlEnds) text = some (group, closed)) :
    text.length ≤ group.length + 2 := by
  obtain ⟨ending, member, rfl⟩ := read_closeEnd_eq_some found
  simp only [urlEnds, List.mem_cons, List.not_mem_nil, or_false] at member
  rcases member with rfl | rfl | rfl | rfl
  all_goals simp

/-- Little of a url is lost when it is matched. -/
theorem matchBehind_length {urlSsh : Bool} {protocol rest : Text} {separator : Char}
    {found : Match} (isFound : matchBehind urlSsh protocol separator rest = some found) :
    found.urlSsh = urlSsh ∧ found.protocol = protocol ∧
      rest.length ≤ (location found.host found.account found.name).length + 2 := by
  obtain ⟨⟨host, account, name⟩, isRead, rfl⟩ := Option.map_eq_some_iff.mp isFound
  obtain ⟨later, rfl, isLater⟩ := read_closeAt_eq_some isRead
  obtain ⟨⟨other, group, closed⟩, isOther, same⟩ := Option.map_eq_some_iff.mp isLater
  cases same
  obtain ⟨last, rfl, isLast⟩ := read_closeAt_eq_some isOther
  have short := readEnd_length isLast
  refine ⟨rfl, rfl, ?_⟩
  simp only [location, List.length_append, List.length_cons]
  omega

theorem length_withGit (name : Text) : name.length ≤ (withGit name).length := by
  rw [withGit]
  split
  · exact le_rfl
  · simp

/-- Without ssh, a url of http with a login in it gets a second one. -/
theorem rewrite_login_ne {secure : Bool} {behind : Text} {settings : Settings} {choice : Ssh}
    {login : Text} {result : Rewritten}
    (chooses : settings.ssh = some choice) (off : choice.chosen = false)
    (logs : loginOf settings.login = some login)
    (solid : strip ((if secure then https else http) ++ behind) =
      (if secure then https else http) ++ behind)
    (rewrites : codeGitRewriteUrl ((if secure then https else http) ++ behind) settings =
      .ok result) :
    result.url ≠ (if secure then https else http) ++ behind := by
  have plain : sshProtocol.isPrefixOf ((if secure then https else http) ++ behind) = false := by
    cases secure with
    | false => rfl
    | true => rfl
  have isMatch : matched ((if secure then https else http) ++ behind) =
      matchBehind false (if secure then https else http) '/' behind := by
    cases secure with
    | false => rfl
    | true => rfl
  simp only [codeGitRewriteUrl, chooses, off, solid, prepared_off plain, isMatch] at rewrites
  split at rewrites
  case h_1 => cases rewrites
  case h_2 found isFound =>
    obtain ⟨isHttp, isProtocol, short⟩ := matchBehind_length isFound
    split at rewrites
    case isTrue => cases rewrites
    case isFalse =>
      cases rewrites
      have loginLength : 0 < login.length := by
        have kept := (Option.filter_eq_some_iff.mp logs).2
        rw [decide_eq_true_iff] at kept
        exact List.length_pos_iff.mpr kept.1
      have nameLength := length_withGit found.name
      intro same
      have lengths := congrArg List.length same
      simp only [written, logs, isHttp, isProtocol, Bool.false_eq_true, if_false, location,
        List.length_append, List.length_cons, Bool.false_and] at lengths short
      omega

end

section

variable {place : RepoPlace} {ending : Ending} {form : Form} {settings : Settings} {choice : Ssh}

/-- A url that ends in `.git` is not stripped. -/
theorem strip_git (secure : Bool) (middle : Text) :
    strip ((if secure then https else http) ++ (middle ++ dotGit)) =
      (if secure then https else http) ++ (middle ++ dotGit) := by
  have last : ∀ first : Char, ∀ front : Text, ∀ char,
      (first :: (front ++ (middle ++ dotGit))).getLast? = some char →
        HostFile.isspace char = false := by
    intro first front char isLast
    have whole : first :: (front ++ (middle ++ dotGit)) =
        (first :: (front ++ (middle ++ ['.', 'g', 'i']))) ++ ['t'] := by simp [dotGit]
    rw [whole, List.getLast?_concat] at isLast
    cases isLast
    rfl
  cases secure with
  | false => exact PyText.strip_eq_self rfl (last 'h' ['t', 't', 'p', ':', '/', '/'])
  | true => exact PyText.strip_eq_self rfl (last 'h' ['t', 't', 'p', 's', ':', '/', '/'])

/-- The url that is written is rewritten to itself just where no login is written. -/
theorem rewrite_again_iff (chooses : settings.ssh = some choice)
    (reads : form.Read choice.chosen place.account.text)
    (told : ending.Told place.name.text) :
    codeGitRewriteUrl (form.rewritten place ending settings choice.chosen).url settings =
        .ok (form.rewritten place ending settings choice.chosen) ↔
      choice.chosen = true ∨ loginOf settings.login = none := by
  constructor
  · intro again
    by_contra writes
    rw [not_or] at writes
    obtain ⟨login, logs⟩ := Option.ne_none_iff_exists'.mp writes.2
    have off : choice.chosen = false := by simpa using writes.1
    have isUrl : (form.rewritten place ending settings choice.chosen).url =
        (if form.secure then https else http) ++
          ((login ++ ':' :: (passwdText settings.passwd ++ '@' :: (place.host.text ++ '/' ::
            (place.account.text ++ '/' :: place.name.text)))) ++ dotGit) := by
      rw [off, Form.rewritten, written, logs, Form.found, withGit_named told, clonedBy_eq]
      simp [location]
    rw [isUrl] at again
    exact rewrite_login_ne chooses off logs (strip_git _ _) again isUrl
  · exact rewrite_again chooses reads told

end

/-! ## Urls of a directory or a file -/

/-- What a url of a directory or a file says behind the repository. -/
structure Within where
  isFile : Bool
  branch : Text
  path : Text

def Within.kind (within : Within) : Text :=
  if within.isFile then blob else tree

/-- `tree/branch/path` -/
def Within.text (within : Within) : Text :=
  within.kind ++ '/' :: (within.branch ++ if within.path = [] then [] else '/' :: within.path)

def RepoPlace.front (place : RepoPlace) (port : Option Nat) : Text :=
  place.host.text ++ portText (portNumber port)

/-- The url of a directory or a file. -/
def Within.url (within : Within) (place : RepoPlace) (secure : Bool) (port : Option Nat) : Text :=
  (if secure then https else http) ++ (place.front port ++ '/' ::
    (place.account.text ++ '/' :: (place.name.text ++ '/' :: within.text)))

theorem accountAndName_longer (skipped text : Text) (oneLine : '\n' ∉ skipped)
    (found : (accountAndName text).isSome = true) :
    (accountAndName (skipped ++ text)).isSome = true := by
  rw [accountAndName, Option.isSome_map] at found ⊢
  exact read_isSome_append oneLine found

/-- The groups of a url end at the first slashes. -/
theorem matchBehind_first {urlSsh : Bool} {protocol front account rest : Text}
    (solid : Solid front) (absent : '/' ∉ front) (alsoSolid : Solid account)
    (alsoAbsent : '/' ∉ account) {found : Match}
    (isFound : matchBehind urlSsh protocol '/' (front ++ '/' :: (account ++ '/' :: rest)) =
      some found) :
    found.host = front ∧ found.account = account ∧
      ∃ ending ∈ urlEnds, rest = found.name ++ ending := by
  obtain ⟨⟨host, other, name⟩, isRead, rfl⟩ := Option.map_eq_some_iff.mp isFound
  obtain ⟨isHost, isNamed⟩ := read_closeAt_first absent (by decide) solid.oneLine
    accountAndName_longer isRead
  obtain ⟨⟨first, group, closed⟩, isOther, same⟩ := Option.map_eq_some_iff.mp isNamed
  cases same
  obtain ⟨isAccount, isLast⟩ := read_closeAt_first alsoAbsent (by decide) alsoSolid.oneLine
    (fun skipped text oneLine found => read_isSome_append oneLine found) isOther
  exact ⟨isHost, isAccount, read_closeEnd_eq_some isLast⟩

/-- A text keeps a part in front whose ends are not blank. -/
theorem strip_append {front : Text} (ends : Profiles.Ends HostFile.isspace front)
    (some : front ≠ []) (rest : Text) : ∃ kept, strip (front ++ rest) = front ++ kept := by
  have start : (front ++ rest).dropWhile HostFile.isspace = front ++ rest := by
    cases front with
    | nil => exact absurd rfl some
    | cons char front =>
        rw [List.cons_append, List.dropWhile_cons_of_neg]
        simp [ends.1 char rfl]
  have behind : front.reverse.dropWhile HostFile.isspace = front.reverse := by
    cases isReversed : front.reverse with
    | nil => rfl
    | cons char others =>
        have isLast : front.getLast? = Option.some char := by
          rw [← List.head?_reverse, isReversed, List.head?_cons]
        rw [List.dropWhile_cons_of_neg]
        simp [ends.2 char isLast]
  rw [strip, StringType.strip, start, List.reverse_append, List.dropWhile_append]
  split
  · exact ⟨[], by rw [behind, List.reverse_reverse, List.append_nil]⟩
  · exact ⟨(rest.reverse.dropWhile HostFile.isspace).reverse, by simp⟩

theorem Solid.ends {text : Text} (solid : Solid text) : Profiles.Ends HostFile.isspace text :=
  ⟨fun char first => solid char (List.mem_of_mem_head? first),
    fun char last => solid char (List.mem_of_getLast? last)⟩

/-- No slash is lost with `.git`. -/
theorem count_shownName (name : Text) : (shownName name).count '/' = name.count '/' := by
  cases ends : endsWithGit name with
  | false =>
      rw [shownName, withGit, if_neg (by simp [ends]), withoutGit_append]
  | true =>
      obtain ⟨short, rfl⟩ := List.isSuffixOf_iff_suffix.mp ends
      rw [shownName, withGit, if_pos ends, withoutGit_append, List.count_append]
      rfl

theorem solid_kind (within : Within) : Solid within.kind := by
  rw [Within.kind]
  split
  · exact solid_of_all rfl
  · exact solid_of_all rfl

theorem solid_front (place : RepoPlace) (port : Option Nat) : Solid (place.front port) :=
  place.host.solid.append (solid_portText port)

theorem slash_not_mem_front (place : RepoPlace) (port : Option Nat) : '/' ∉ place.front port := by
  have noHost : '/' ∉ place.host.text := place.host.not_mem rfl
  cases port with
  | none => simpa [RepoPlace.front, portNumber, portText] using noHost
  | some port =>
      have noDigit : '/' ∉ VFS.str (port : Int) := not_mem_str rfl port
      simp [RepoPlace.front, portNumber, portText, noHost, noDigit]

/-- What stands before the branch. -/
def Within.start (within : Within) (place : RepoPlace) (secure : Bool) (port : Option Nat) : Text :=
  (if secure then https else http) ++ (place.front port ++ '/' ::
    (place.account.text ++ '/' :: (place.name.text ++ '/' :: (within.kind ++ ['/']))))

section

variable (within : Within) (place : RepoPlace) (secure : Bool) (port : Option Nat)

theorem solid_start : Solid (within.start place secure port) := by
  have solidProtocol : Solid (if secure then https else http) := by
    cases secure with
    | false => exact solid_of_all rfl
    | true => exact solid_of_all rfl
  have solidKind : Solid (within.kind ++ ['/']) := (solid_kind within).append (solid_of_all rfl)
  exact solidProtocol.append ((solid_front place port).append (.cons rfl
    (place.account.solid.append (.cons rfl (place.name.solid.append (.cons rfl solidKind))))))

theorem start_ne_nil : within.start place secure port ≠ [] := by
  simp [Within.start]

theorem url_eq : within.url place secure port = within.start place secure port ++
    (within.branch ++ if within.path = [] then [] else '/' :: within.path) := by
  simp [Within.url, Within.text, Within.start]

theorem matched_start (rest : Text) :
    matched (within.start place secure port ++ rest) =
      matchBehind false (if secure then https else http) '/'
        (place.front port ++ '/' :: (place.account.text ++ '/' ::
          (place.name.text ++ '/' :: (within.kind ++ '/' :: rest)))) := by
  have whole : within.start place secure port ++ rest = (if secure then https else http) ++
      (place.front port ++ '/' :: (place.account.text ++ '/' ::
        (place.name.text ++ '/' :: (within.kind ++ '/' :: rest)))) := by
    simp [Within.start]
  rw [whole]
  cases secure with
  | false => rfl
  | true => rfl

/-- The name that rewriting yields for such a url has a slash in it. -/
theorem rewrite_start_name {rest : Text} {result : Rewritten}
    (rewrites : codeGitRewriteUrl (within.start place secure port ++ rest) .unset =
      .ok result) : '/' ∈ result.name := by
  obtain ⟨kept, again⟩ :=
    strip_append (solid_start within place secure port).ends (start_ne_nil within place secure port) rest
  have plain : sshProtocol.isPrefixOf (within.start place secure port ++ kept) = false := by
    cases secure with
    | false => rfl
    | true => rfl
  simp only [codeGitRewriteUrl, Settings.unset, Ssh.chosen, again, prepared_off plain,
    matched_start] at rewrites
  split at rewrites
  case h_1 => cases rewrites
  case h_2 found isFound =>
    split at rewrites
    case isTrue => cases rewrites
    case isFalse =>
      cases rewrites
      obtain ⟨-, -, ending, member, isRest⟩ := matchBehind_first (solid_front place port)
        (slash_not_mem_front place port) place.account.solid (place.account.not_mem rfl) isFound
      have slashes := congrArg (List.count '/') isRest
      have few : ending.count '/' ≤ 1 := by
        have all : urlEnds.all (fun ending => ending.count '/' ≤ 1) = true := by decide
        simpa using List.all_eq_true.mp all ending member
      simp only [List.count_append, List.count_cons_self] at slashes
      apply List.count_pos_iff.mp
      change 0 < (shownName found.name).count '/'
      rw [count_shownName]
      omega

/-- The name that is yielded for the url of a directory or a file is not that of the
repository. -/
theorem parsed_name_ne {env : Environment} {parsed : Parsed}
    (parses : codeGiturlParse env (within.url place secure port) = .ok parsed) :
    parsed.name ≠ place.name.text := by
  obtain ⟨kept, stripped⟩ := strip_append (solid_start within place secure port).ends
    (start_ne_nil within place secure port)
    (within.branch ++ if within.path = [] then [] else '/' :: within.path)
  simp only [codeGiturlParse, url_eq, stripped, bind_eq_ok_iff] at parses
  obtain ⟨found, rewrites, cut, -, args, -, dir, -, isParsed⟩ := parses
  cases isParsed
  intro same
  have slash := rewrite_start_name within place secure port rewrites
  rw [show found.name = place.name.text from same] at slash
  exact place.name.not_mem rfl slash

end

/-! ## The parts of a url -/

/-- A url and what is asked of it. -/
inductive Question where
  | rewrite (form : Form) (ending : Ending) (login passwd : Option Text) (choice : Ssh)
  | parse (within : Within) (secure : Bool) (port : Option Nat)

/-- The url yields the parts that it was made of: rewriting also leaves what it wrote, and
parsing also yields the directory of the bare url. -/
def AsClaimed (env : Environment) (place : RepoPlace) : Question → Prop
  | .rewrite form ending login passwd choice =>
      ∃ result,
        codeGitRewriteUrl (form.text place ending) ⟨login, passwd, some choice⟩ = .ok result ∧
          Yields place form result ∧
          codeGitRewriteUrl result.url ⟨login, passwd, some choice⟩ = .ok result
  | .parse within secure port =>
      ∃ parsed args,
        codeGiturlParse env (within.url place secure port) = .ok parsed ∧
          codeGitrepoArgs env ((Form.http secure port).text place ⟨false, false⟩) none .unset =
            .ok args ∧
          parsed.account = place.account.text ∧ parsed.name = place.name.text ∧
          parsed.branch = within.branch ∧ parsed.path = within.path ∧
          parsed.gitpath = args.dest

/-- No directory or file is asked for, the form is one that is read, its name can be told
from the ending, and no login is written into the url. -/
def Sound (place : RepoPlace) : Question → Prop
  | .rewrite form ending login _ choice =>
      form.Read choice.chosen place.account.text ∧ ending.Told place.name.text ∧
        (choice.chosen = true ∨ loginOf login = none)
  | .parse .. => False

theorem url_parts_iff (env : Environment) (place : RepoPlace) (question : Question) :
    AsClaimed env place question ↔ Sound place question := by
  cases question with
  | rewrite form ending login passwd choice =>
      constructor
      · rintro ⟨result, rewrites, yields, again⟩
        obtain ⟨reads, told⟩ := (yields_iff rfl).mp ⟨result, rewrites, yields⟩
        rw [rewrite_text place ending rfl reads] at rewrites
        cases rewrites
        exact ⟨reads, told, (rewrite_again_iff rfl reads told).mp again⟩
      · rintro ⟨reads, told, anonymous⟩
        obtain ⟨result, rewrites, yields⟩ :=
          (@yields_iff place ending form ⟨login, passwd, some choice⟩ choice rfl).mpr ⟨reads, told⟩
        refine ⟨result, rewrites, yields, ?_⟩
        rw [rewrite_text place ending rfl reads] at rewrites
        cases rewrites
        exact (rewrite_again_iff rfl reads told).mpr anonymous
  | parse within secure port =>
      constructor
      · rintro ⟨parsed, args, parses, -, -, sameName, -⟩
        exact parsed_name_ne within place secure port parses sameName
      · exact False.elim

/-! ### A url of a directory -/

/-- A name that is checked when it is used. -/
def Name.of (text : Text) (named : (text ≠ [] ∧ text.all nameChar = true) := by decide) : Name :=
  ⟨text, named.1, named.2⟩

def corePlace : RepoPlace :=
  ⟨.of "github.com".toList, .of "threefoldtech".toList, .of "jumpscaleX_core".toList⟩

def docsWithin : Within :=
  ⟨false, "master".toList, "docs".toList⟩

def emptyEnvironment : Environment :=
  ⟨none, none, "/sandbox/code".toList, fun _ => false⟩

/-- `https://github.com/threefoldtech/jumpscaleX_core/tree/master/docs` -/
theorem directory_url_fails :
    ¬ AsClaimed emptyEnvironment corePlace (.parse docsWithin true none) := by
  rintro ⟨parsed, args, parses, -, -, sameName, -⟩
  exact parsed_name_ne docsWithin corePlace true none parses sameName

end JumpscaleX.GitUrls
