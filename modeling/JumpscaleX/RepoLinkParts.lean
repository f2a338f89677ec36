import JumpscaleX.RepoLinkForms

/-!
# What links to repositories say

The url of a branch and a path, and when it and the custom form are read back into the
parts they were made of.
-/

namespace JumpscaleX.RepoLinks

open Fallible GitUrls LazyGroup

/-! ## The url of a branch and a path -/

section

variable (place : RepoPlace) (branch : Branch) (path : FilePath)

/-- What stands behind the protocol. -/
def behind (host : Name) : Text :=
  host.text ++ '/' :: (place.account.text ++ '/' :: (place.name.text ++ '/' ::
    (tree ++ '/' :: (branch.text ++ '/' :: path.text))))

/-- The url that `tree` builds. -/
def treeUrl : Text :=
  (Linker.new (some place.host.text) place.account.text place.name.text).tree path.text
    (some branch.text)

theorem removeSlash_eq {text : Text} (relative : text.head? ≠ some '/') :
    removeSlash text = text := by
  cases text with
  | nil => rfl
  | cons char rest =>
      rw [removeSlash, List.dropWhile_cons_of_neg]
      simpa using relative

theorem head_ne (name : Name) : name.text.head? ≠ some '/' := by
  intro first
  have absent : '/' ∉ name.text := name.not_mem rfl
  exact absent (List.mem_of_mem_head? first)

theorem last_ne (name : Name) : name.text.getLast? ≠ some '/' := by
  intro last
  have absent : '/' ∉ name.text := name.not_mem rfl
  exact absent (List.mem_of_getLast? last)

/-- A part of a path, with no slash at its ends. -/
structure Part (text : Text) : Prop where
  notEmpty : text ≠ []
  relative : text.head? ≠ some '/'
  closed : text.getLast? ≠ some '/'

theorem part_name (name : Name) : Part name.text :=
  ⟨name.notEmpty, head_ne name, last_ne name⟩

theorem Part.append {first second : Text} (part : Part first) (other : Part second) :
    Part (first ++ '/' :: second) where
  notEmpty := by simp
  relative := by
    rw [List.head?_append_of_ne_nil _ part.notEmpty]
    exact part.relative
  closed := by
    rw [List.getLast?_append_of_ne_nil _ (List.cons_ne_nil _ _),
      List.getLast?_cons_of_ne_nil other.notEmpty]
    exact other.closed

theorem joinParts_cons {first : Text} (part : Part first) {second : Text}
    (relative : second.head? ≠ some '/') (others : List Text) :
    joinParts first (second :: others) = joinParts (first ++ '/' :: second) others := by
  have start : (first ++ '/' :: second).head? ≠ some '/' := by
    rw [List.head?_append_of_ne_nil _ part.notEmpty]
    exact part.relative
  have joined : joinPath first second = first ++ '/' :: second := by
    rw [joinPath, if_neg relative, if_neg]
    rw [not_or]
    exact ⟨part.notEmpty, part.closed⟩
  rw [joinParts, joinParts, List.foldl_cons, removeSlash_eq part.relative,
    removeSlash_eq relative, joined, removeSlash_eq start]

theorem given {text : Text} (notEmpty : text ≠ []) :
    (some text).filter (fun text => decide (text ≠ [])) = some text :=
  Option.filter_eq_some_iff.mpr ⟨rfl, by simpa using notEmpty⟩

/-- The protocol that `Linker` puts before a host. -/
def protocolOf (host : Name) : Text :=
  if ['h', 't', 't', 'p'].isPrefixOf host.lower.text then [] else https

theorem protocolOf_append (host : Name) :
    (if ['h', 't', 't', 'p'].isPrefixOf host.lower.text then host.lower.text
      else https ++ host.lower.text) = protocolOf host ++ host.lower.text := by
  rw [protocolOf]
  split
  · rfl
  · rfl

theorem part_host (host : Name) : Part (protocolOf host ++ host.lower.text) := by
  have closed : (protocolOf host ++ host.lower.text).getLast? ≠ some '/' := by
    rw [List.getLast?_append_of_ne_nil _ host.lower.notEmpty]
    exact last_ne host.lower
  refine ⟨by simp [host.lower.notEmpty], ?_, closed⟩
  rw [protocolOf]
  split
  · exact head_ne host.lower
  · simp [https]

theorem part_tree : Part (tree ++ '/' :: branch.text) where
  notEmpty := by simp
  relative := by simp [tree]
  closed := by
    rw [List.getLast?_append_of_ne_nil _ (List.cons_ne_nil _ _),
      List.getLast?_cons_of_ne_nil branch.notEmpty]
    exact branch.closed

theorem treeUrl_eq : treeUrl place branch path =
    protocolOf place.host ++ behind place branch path place.host.lower := by
  have host := part_host place.host
  have account := host.append (part_name place.account)
  have repo := account.append (part_name place.name)
  have whole := repo.append (part_tree branch)
  have lowered : place.host.text.map Char.toLower = place.host.lower.text := rfl
  rw [treeUrl, Linker.new, given place.host.notEmpty, Option.getD_some, lowered,
    protocolOf_append, Linker.tree, given branch.notEmpty, Option.getD_some, Linker.join]
  dsimp only
  rw [joinParts_cons host (head_ne _), joinParts_cons account (head_ne _),
    joinParts_cons repo (part_tree branch).relative, joinParts_cons whole path.relative, joinParts,
    List.foldl_nil, removeSlash_eq]
  · simp [behind]
  · rw [List.head?_append_of_ne_nil _ whole.notEmpty]
    exact whole.relative

end

/-! ## Reading the url -/

section

variable (place : RepoPlace) (branch : Branch) (path : FilePath)

theorem behindProtocol_https (rest : Text) : behindProtocol (https ++ rest) = some rest := by
  have lowered : (https ++ rest).map Char.toLower = https ++ rest.map Char.toLower := by
    rw [List.map_append]
    rfl
  have noHttp : http.isPrefixOf (https ++ rest.map Char.toLower) = false := rfl
  have isHttps : https.isPrefixOf (https ++ rest.map Char.toLower) = true :=
    List.isPrefixOf_iff_prefix.mpr (List.prefix_append _ _)
  simp only [behindProtocol, lowered, noHttp, isHttps, Bool.false_eq_true, if_false, if_true,
    List.drop_left]

/-- A url without a protocol in front is not read. -/
theorem behindProtocol_bare (host : Name) (rest : Text) :
    behindProtocol (host.text ++ '/' :: rest) = none := by
  have lowered : (host.text ++ '/' :: rest).map Char.toLower =
      host.lower.text ++ '/' :: rest.map Char.toLower := by
    rw [List.map_append, List.map_cons]
    rfl
  have notPrefix : ∀ start : Text, '/' ∉ start → ':' ∈ start →
      (start ++ ['/', '/']).isPrefixOf (host.lower.text ++ '/' :: rest.map Char.toLower) =
        false := by
    intro start absent colon
    rw [Bool.eq_false_iff]
    intro starts
    obtain ⟨later, whole⟩ := List.isPrefixOf_iff_prefix.mp starts
    rw [List.append_assoc, List.cons_append] at whole
    have isHost := ((Separated.append_separator_inj absent (host.lower.not_mem rfl)).mp whole).1
    have noColon : ':' ∉ host.lower.text := host.lower.not_mem rfl
    rw [← isHost] at noColon
    exact noColon colon
  have noHttp := notPrefix ['h', 't', 't', 'p', ':'] (by decide) (by decide)
  have noHttps := notPrefix ['h', 't', 't', 'p', 's', ':'] (by decide) (by decide)
  rw [behindProtocol, lowered, if_neg, if_neg]
  · exact Bool.eq_false_iff.mp noHttps
  · exact Bool.eq_false_iff.mp noHttp

theorem behindHost_lower (host rest : Text) :
    behindHost host (host.map Char.toLower ++ rest) = some rest := by
  induction host with
  | nil => rfl
  | cons char host induction =>
      rw [List.map_cons, List.cons_append, behindHost, if_pos, induction]
      exact Or.inr (Letters.toLower_toLower char).symm

theorem takeWhile_slash (first rest : Text) :
    (first ++ '/' :: rest).takeWhile (· ≠ '/') = first.takeWhile (· ≠ '/') := by
  induction first with
  | nil => rfl
  | cons char first induction =>
      rw [List.cons_append, List.takeWhile_cons, List.takeWhile_cons, induction]

theorem segment_append {name : Text} (some : name ≠ []) (absent : '/' ∉ name) (rest : Text) :
    segment ('/' :: (name ++ '/' :: rest)) = Option.some (name, '/' :: rest) := by
  have kept : ∀ char ∈ name, decide (char ≠ '/') = true := by
    intro char member
    rw [decide_eq_true_iff]
    rintro rfl
    exact absent member
  have taken : (name ++ '/' :: rest).takeWhile (· ≠ '/') = name := by
    rw [takeWhile_slash, List.takeWhile_eq_self_iff.mpr kept]
  have left : (name ++ '/' :: rest).dropWhile (· ≠ '/') = '/' :: rest := by
    rw [List.dropWhile_append_of_pos kept]
    rfl
  rw [segment, taken, left]
  exact if_neg some

/-- The branch that is read ends at its first slash. -/
theorem branchBehind_fst (branch path : Text) :
    (branchBehind ('/' :: (tree ++ '/' :: (branch ++ '/' :: path)))).1 =
      if branch.takeWhile (· ≠ '/') = [] then none else some (branch.takeWhile (· ≠ '/')) := by
  rw [branchBehind, segment_append (by decide) (by decide)]
  dsimp only
  rw [if_pos (by decide), segment, takeWhile_slash]
  split
  case h_1 found isFound =>
    split at isFound
    case isTrue => cases isFound
    case isFalse some =>
      cases isFound
      rw [if_neg some]
  case h_2 isNone =>
    split at isNone
    case isTrue empty => rw [if_pos empty]
    case isFalse => cases isNone

theorem branchBehind_plain {branch path : Text} (some : branch ≠ []) (absent : '/' ∉ branch)
    (oneLine : '\n' ∉ path) :
    branchBehind ('/' :: (tree ++ '/' :: (branch ++ '/' :: path))) =
      (Option.some branch, Option.some path) := by
  have isPath : read (closeEnd textEnds) path = Option.some (path, ()) := by
    have found := @read_closeEnd_append textEnds path [] (by decide) oneLine
    rw [List.append_nil] at found
    apply found
    intro char member other ends starts
    simp only [textEnds, List.mem_cons, List.not_mem_nil, or_false] at ends
    rcases ends with rfl | rfl
    · cases starts
    · cases starts
      exact oneLine member
  rw [branchBehind, segment_append (by decide) (by decide)]
  dsimp only
  rw [if_pos (by decide), segment_append some absent]
  dsimp only
  rw [pathBehind, isPath]
  rfl

theorem repoLink_https (host : Name) :
    repoLink host.text (https ++ behind place branch path host.lower) =
      some (place.account.text, place.name.text,
        branchBehind ('/' :: (tree ++ '/' :: (branch.text ++ '/' :: path.text)))) := by
  have hosted := behindHost_lower host.text ('/' :: (place.account.text ++ '/' ::
    (place.name.text ++ '/' :: (tree ++ '/' :: (branch.text ++ '/' :: path.text)))))
  have isHost : behind place branch path host.lower = host.text.map Char.toLower ++ '/' ::
      (place.account.text ++ '/' :: (place.name.text ++ '/' ::
        (tree ++ '/' :: (branch.text ++ '/' :: path.text)))) := rfl
  simp only [repoLink, behindProtocol_https, isHost, hosted, Option.bind_eq_bind,
    Option.bind_some,
    segment_append place.account.notEmpty (place.account.not_mem rfl),
    segment_append place.name.notEmpty (place.name.not_mem rfl)]
  rfl

end

/-! ## The host of the url -/

section

variable (place : RepoPlace) {branch : Branch} {path : FilePath} {env : Environment}

/-- What a url has before the name of the repository. -/
def urlFront : Text :=
  https ++ (place.host.lower.text ++ '/' :: (place.account.text ++ ['/']))

theorem solid_urlFront : Solid (urlFront place) :=
  Solid.append (solid_of_all rfl) (place.host.lower.solid.append
    (.cons rfl (place.account.solid.append (solid_of_all rfl))))

theorem matched_urlFront (rest : Text) :
    matched (urlFront place ++ rest) = matchBehind false https '/'
      (place.host.lower.text ++ '/' :: (place.account.text ++ '/' :: rest)) := by
  have whole : urlFront place ++ rest = https ++
      (place.host.lower.text ++ '/' :: (place.account.text ++ '/' :: rest)) := by
    simp [urlFront]
  rw [whole]
  rfl

theorem prepared_urlFront (rest : Text) :
    prepared (urlFront place ++ rest) Ssh.auto.chosen = (urlFront place ++ rest, none) :=
  prepared_off rfl

/-- A url whose host is rewritten has the small letters of the host. -/
theorem rewrite_host {rest : Text} {settings : Settings} {result : Rewritten}
    (chooses : settings.ssh = some .auto)
    (rewrites : codeGitRewriteUrl (urlFront place ++ rest) settings = .ok result) :
    result.host = place.host.lower.text := by
  have someFront : urlFront place ≠ [] := by simp [urlFront]
  obtain ⟨kept, stripped⟩ := strip_append (solid_urlFront place).ends someFront rest
  simp only [codeGitRewriteUrl, chooses, stripped, prepared_urlFront, matched_urlFront]
    at rewrites
  split at rewrites
  case h_1 => cases rewrites
  case h_2 found isFound =>
    split at rewrites
    case isTrue => cases rewrites
    case isFalse =>
      cases rewrites
      exact (matchBehind_first place.host.lower.solid (place.host.lower.not_mem rfl)
        place.account.solid (place.account.not_mem rfl) isFound).1

theorem completed_ssh (url : Text) : (env.completed url .unset).ssh = some .auto := by
  rw [Environment.completed]
  split
  · rfl
  · rfl

theorem repoArgs_host {rest : Text} {args : RepoArgs}
    (reads : codeGitrepoArgs env (urlFront place ++ rest) none .unset = .ok args) :
    args.host = place.host.lower.text := by
  have someFront : urlFront place ≠ [] := by simp [urlFront]
  obtain ⟨kept, stripped⟩ := strip_append (solid_urlFront place).ends someFront rest
  have someUrl : urlFront place ++ kept ≠ [] := by simp [someFront]
  rw [codeGitrepoArgs, stripped, if_neg someUrl] at reads
  obtain ⟨result, rewrites, isArgs⟩ := bind_eq_ok_iff.mp reads
  cases isArgs
  exact rewrite_host place (completed_ssh _) rewrites

end

section

variable (place : RepoPlace) {branch : Branch} {path : FilePath} {env : Environment}

/-- The host of a url without blanks at its end and without line ends is rewritten. -/
theorem rewrite_isOk {repo : Name} {rest : Text} {settings : Settings}
    (chooses : settings.ssh = some .auto) (oneLine : '\n' ∉ rest)
    (stripped : strip (urlFront place ++ (repo.text ++ rest)) =
      urlFront place ++ (repo.text ++ rest)) :
    ∃ result, codeGitRewriteUrl (urlFront place ++ (repo.text ++ rest)) settings = .ok result := by
  have noLine : '\n' ∉ repo.text ++ rest := by
    rw [List.mem_append, not_or]
    exact ⟨repo.solid.oneLine, oneLine⟩
  have named : (accountAndName (place.account.text ++ '/' :: (repo.text ++ rest))).isSome =
      true := by
    have last : (read (closeEnd urlEnds) (repo.text ++ rest)).isSome = true :=
      read_isSome_iff.mpr ⟨repo.text ++ rest, [], (List.append_nil _).symm, noLine, rfl⟩
    obtain ⟨closed, isClosed⟩ := Option.isSome_iff_exists.mp last
    rw [accountAndName, read_closeAt_append isClosed place.account.solid.oneLine
      (place.account.not_mem rfl)]
    rfl
  obtain ⟨parts, isNamed⟩ := Option.isSome_iff_exists.mp named
  obtain ⟨found, isFound⟩ : ∃ found, matchBehind false https '/' (place.host.lower.text ++ '/' ::
      (place.account.text ++ '/' :: (repo.text ++ rest))) = some found := by
    rw [matchBehind, read_closeAt_append isNamed place.host.lower.solid.oneLine
      (place.host.lower.not_mem rfl)]
    exact ⟨_, rfl⟩
  obtain ⟨-, isAccount, ending, member, isRest⟩ := matchBehind_first place.host.lower.solid
    (place.host.lower.not_mem rfl) place.account.solid (place.account.not_mem rfl) isFound
  have someAccount : strip found.account ≠ [] := by
    rw [isAccount, place.account.solid.strip_eq]
    exact place.account.notEmpty
  have someName : strip found.name ≠ [] := by
    intro blank
    have blanks := Scalars.space_of_strip blank
    cases isRepo : repo.text with
    | nil => exact repo.notEmpty isRepo
    | cons char others =>
        have isChar : nameChar char = true :=
          List.all_eq_true.mp repo.plain char (isRepo ▸ List.mem_cons_self)
        rw [isRepo, List.cons_append] at isRest
        cases isName : found.name with
        | nil =>
            rw [isName, List.nil_append] at isRest
            have other := urlEnds_head member (congrArg List.head? isRest).symm
            rw [isChar] at other
            cases other
        | cons first name =>
            rw [isName, List.cons_append] at isRest
            have blankChar := blanks first (isName ▸ List.mem_cons_self)
            rw [← (List.cons.inj isRest).1, isspace_of_nameChar isChar] at blankChar
            cases blankChar
  simp only [codeGitRewriteUrl, chooses, stripped, prepared_urlFront, matched_urlFront, isFound,
    someName, someAccount, or_self, if_false]
  exact ⟨_, rfl⟩

theorem https_behind : https ++ behind place branch path place.host.lower =
    urlFront place ++ (place.name.text ++ '/' :: (tree ++ '/' :: (branch.text ++ '/' ::
      path.text))) := by
  simp [behind, urlFront]

/-- A url whose path is kept is read with its host. -/
theorem hostOf_https {isWord : Char → Bool} (kept : Kept isWord path.text) :
    hostOf env (https ++ behind place branch path place.host.lower) none =
      .ok place.host.lower.text := by
  have oneLine : '\n' ∉ '/' :: (tree ++ '/' :: (branch.text ++ '/' :: path.text)) := by
    have noBranch : '\n' ∉ branch.text := branch.not_mem (by decide)
    simp [tree, noBranch, kept.oneLine]
  have stripped : strip (https ++ behind place branch path place.host.lower) =
      https ++ behind place branch path place.host.lower := by
    apply Profiles.strip_eq_self_iff.mpr
    constructor
    · intro char first
      cases first
      rfl
    · intro char last
      have whole : https ++ behind place branch path place.host.lower =
          ((https ++ (place.host.lower.text ++ '/' :: (place.account.text ++ '/' ::
            (place.name.text ++ '/' :: (tree ++ '/' :: branch.text))))) ++ ['/']) ++
              path.text := by
        simp [behind]
      rw [whole, List.getLast?_append, List.getLast?_concat, Option.or_eq_some_iff] at last
      rcases last with inPath | ⟨-, isSlash⟩
      · exact kept.noBlank char inPath
      · cases isSlash
        rfl
  have someUrl : https ++ behind place branch path place.host.lower ≠ [] := by simp [https]
  obtain ⟨args, reads⟩ : ∃ args,
      codeGitrepoArgs env (https ++ behind place branch path place.host.lower) none .unset =
        .ok args := by
    have isUrl := @https_behind place branch path
    have chooses := @completed_ssh env (https ++ behind place branch path place.host.lower)
    obtain ⟨result, rewrites⟩ := rewrite_isOk place chooses oneLine (isUrl ▸ stripped)
    rw [← isUrl] at rewrites
    rw [codeGitrepoArgs, stripped, if_neg someUrl]
    dsimp only
    rw [rewrites]
    exact ⟨_, rfl⟩
  have isHost := reads
  rw [https_behind] at isHost
  rw [hostOf]
  dsimp only [Option.filter]
  rw [reads]
  dsimp only
  rw [repoArgs_host place isHost]

/-- The host of a url is written in small letters. -/
theorem hostOf_lower {host : Text}
    (isHost : hostOf env (https ++ behind place branch path place.host.lower) none =
      .ok host) : host.map Char.toLower = host ∧ Solid host ∧ ':' ∉ host ∧ host ≠ [] := by
  rw [hostOf] at isHost
  dsimp only [Option.filter] at isHost
  split at isHost
  case h_1 args reads =>
    cases isHost
    rw [https_behind] at reads
    rw [repoArgs_host place reads]
    refine ⟨?_, place.host.lower.solid, place.host.lower.not_mem rfl, place.host.lower.notEmpty⟩
    simp [Name.lower, Letters.toLower_toLower, Function.comp_def]
  case h_2 =>
    cases isHost
    exact ⟨by decide, solid_of_all (by decide), by decide, by decide⟩
  case h_3 => cases isHost

end

/-! ## Links are read back -/

section

variable (isWord : Char → Bool) (env : Environment) (place : RepoPlace) (branch : Branch)
  (path : FilePath)

/-- The url that `tree` builds and the custom form are read back into the parts they were made
of, with and without the host beside the url, and replacing the branch of the url gives the
url of the other branch. -/
structure AsClaimed : Prop where
  url : ∀ asked ∈ [none, some place.host.text], ∃ link,
    toCustomLink isWord env (treeUrl place branch path) asked = .ok link ∧
      HasParts place branch.text path.text link
  custom : ∃ link, MarkdownLink.parse isWord (form place branch.text path.text) = .ok link ∧
    HasParts place branch.text path.text link
  replaced : ∀ other : Branch,
    replaceBranch isWord env (treeUrl place branch path) (some other.text)
      (some place.host.text) = .ok (treeUrl place other path)

/-- The host has no capital letters and does not start with `http`, the branch has no slash,
and the path is kept. -/
structure Sound : Prop where
  lower : place.host.text.map Char.toLower = place.host.text
  protocol : ['h', 't', 't', 'p'].isPrefixOf place.host.text = false
  oneSegment : '/' ∉ branch.text
  kept : Kept isWord path.text

end

section

variable {isWord : Char → Bool} {env : Environment} {place : RepoPlace} {branch : Branch}
  {path : FilePath}

theorem hostOf_given (url : Text) (host : Name) :
    hostOf env url (some host.text) = .ok host.text := by
  rw [hostOf, given host.notEmpty]

theorem toCustomLink_eq_ok {url : Text} {asked : Option Text} {link : MarkdownLink}
    (reads : toCustomLink isWord env url asked = .ok link) :
    ∃ host account repo found, hostOf env url asked = .ok host ∧
      repoLink host url = some (account, repo, found) ∧
      MarkdownLink.parse isWord (customForm host account repo (found.1.filter (· ≠ []))
        (found.2.getD [])) = .ok link := by
  obtain ⟨host, isHost, later⟩ := bind_eq_ok_iff.mp reads
  split at later
  case h_1 => cases later
  case h_2 account repo branch path isFound =>
    exact ⟨host, account, repo, (branch, path), isHost, isFound, later⟩

theorem Sound.url (sound : Sound isWord place branch path) :
    treeUrl place branch path = https ++ behind place branch path place.host.lower := by
  have isLower : place.host.lower.text = place.host.text := sound.lower
  have notHttp : ¬ ['h', 't', 't', 'p'].isPrefixOf place.host.lower.text = true := by
    rw [isLower, sound.protocol]
    exact Bool.false_ne_true
  rw [treeUrl_eq, protocolOf, if_neg notHttp]

theorem Sound.read (sound : Sound isWord place branch path) {asked : Option Text}
    (isAsked : asked ∈ [none, some place.host.text]) :
    toCustomLink isWord env (treeUrl place branch path) asked =
      .ok (formLink place branch.text path.text) := by
  have isHost : hostOf env (https ++ behind place branch path place.host.lower) asked =
      .ok place.host.text := by
    simp only [List.mem_cons, List.not_mem_nil, or_false] at isAsked
    rcases isAsked with rfl | rfl
    · rw [hostOf_https place sound.kept]
      exact congrArg Except.ok sound.lower
    · exact hostOf_given _ place.host
  have isBranch := branchBehind_plain branch.notEmpty sound.oneSegment sound.kept.oneLine
  rw [sound.url, toCustomLink, isHost]
  simp only [bind, Except.bind, repoLink_https, isBranch, given branch.notEmpty,
    Option.getD_some]
  exact parse_form place sound.kept

theorem Sound.claimed (sound : Sound isWord place branch path) :
    AsClaimed isWord env place branch path := by
  constructor
  case url => exact fun asked isAsked => ⟨_, sound.read isAsked, hasParts_formLink⟩
  case custom => exact ⟨_, parse_form place sound.kept, hasParts_formLink⟩
  case replaced =>
    intro other
    have isAsked : some place.host.text ∈ [none, some place.host.text] := by simp
    rw [replaceBranch, sound.read isAsked]
    rfl

/-- The text of a link with all its parts. -/
theorem text_of_parse {text path : Text} {link : MarkdownLink}
    (reads : MarkdownLink.parse isWord text = .ok link)
    (parts : HasParts place branch.text path link) :
    ∃ rest, strip text = formFront place branch.text ++ ':' :: rest := by
  obtain ⟨-, account, rest, isAccount, whole, -, -, -⟩ :=
    parse_eq_ok reads parts.host parts.repo parts.branch
  have sameAccount : account = place.account.text :=
    Option.some.inj (isAccount.symm.trans parts.account)
  exact ⟨rest, by rw [whole, sameAccount]; simp [formFront]⟩

/-- A link whose form starts with a host has that host. -/
theorem host_of_parse {host account repo path rest : Text} {found : Option Text}
    {link : MarkdownLink} (solid : Solid host) (noColon : ':' ∉ host)
    (reads : MarkdownLink.parse isWord (customForm host account repo found rest) = .ok link)
    (parts : HasParts place branch.text path link) : host = place.host.text := by
  have ends : Solid (host ++ [':']) := solid.append (solid_of_all rfl)
  obtain ⟨kept, stripped⟩ := strip_append ends.ends (by simp)
    (account ++ ':' :: (repo ++ branchText found ++ ':' :: rest))
  obtain ⟨others, whole⟩ := text_of_parse reads parts
  have isForm : customForm host account repo found rest = (host ++ [':']) ++
      (account ++ ':' :: (repo ++ branchText found ++ ':' :: rest)) := by
    simp [customForm]
  rw [isForm, stripped, formFront, List.append_assoc, List.append_assoc] at whole
  exact ((Separated.append_separator_inj noColon (place.host.not_mem rfl)).mp whole).1

/-- What a form has behind the repository is what its link has there. -/
theorem branch_of_parse {found : Option Text} {path rest : Text} {link : MarkdownLink}
    (reads : MarkdownLink.parse isWord (customForm place.host.text place.account.text
      place.name.text found rest) = .ok link)
    (parts : HasParts place branch.text path link) :
    ∃ kept others, branchText found ++ ':' :: kept =
      branchText (some branch.text) ++ ':' :: others := by
  have ends : Profiles.Ends HostFile.isspace (place.host.text ++ (':' :: (place.account.text ++
      ':' :: (place.name.text ++ branchText found)) ++ [':'])) := by
    constructor
    · exact head_isspace place.host _
    · intro char last
      rw [← List.append_assoc, List.getLast?_concat] at last
      cases last
      rfl
  have isForm : customForm place.host.text place.account.text place.name.text found rest =
      (place.host.text ++ (':' :: (place.account.text ++ ':' :: (place.name.text ++
        branchText found)) ++ [':'])) ++ rest := by
    simp [customForm]
  obtain ⟨kept, stripped⟩ := strip_append ends (by simp) rest
  obtain ⟨others, whole⟩ := text_of_parse reads parts
  refine ⟨kept, others, ?_⟩
  rw [isForm, stripped, formFront] at whole
  simpa [branchText] using whole

theorem oneSegment_of_parse {found : Option Text} {path rest : Text} {link : MarkdownLink}
    (isFound : found = if branch.text.takeWhile (· ≠ '/') = [] then none
      else some (branch.text.takeWhile (· ≠ '/')))
    (reads : MarkdownLink.parse isWord (customForm place.host.text place.account.text
      place.name.text found rest) = .ok link)
    (parts : HasParts place branch.text path link) : '/' ∉ branch.text := by
  have noColon : ':' ∉ branch.text := branch.not_mem rfl
  obtain ⟨kept, others, same⟩ := branch_of_parse reads parts
  split at isFound
  case isTrue =>
    rw [isFound] at same
    cases same
  case isFalse =>
    rw [isFound, branchText, branchText] at same
    have absent : ':' ∉ '(' :: (branch.text ++ [')']) := by simp [noColon]
    have alsoAbsent : ':' ∉ '(' :: (branch.text.takeWhile (· ≠ '/') ++ [')']) := by
      intro member
      apply absent
      have sub := (List.takeWhile_sublist (· ≠ '/') (l := branch.text)).subset
      simp only [List.mem_cons, List.mem_append] at member ⊢
      exact member.imp_right (Or.imp_left (fun inside => sub inside))
    have branches := ((Separated.append_separator_inj alsoAbsent absent).mp same).1
    have isBranch : branch.text.takeWhile (· ≠ '/') = branch.text :=
      List.append_cancel_right (List.cons.inj branches).2
    intro slash
    rw [← isBranch] at slash
    simpa using List.mem_takeWhile_imp slash

theorem AsClaimed.sound (claimed : AsClaimed isWord env place branch path) :
    Sound isWord place branch path := by
  obtain ⟨customLink, isCustom, customParts⟩ := claimed.custom
  obtain ⟨given', isGiven, givenParts⟩ := claimed.url (some place.host.text) (by simp)
  obtain ⟨found, isFound, foundParts⟩ := claimed.url none (by simp)
  have notHttp : ¬ ['h', 't', 't', 'p'].isPrefixOf place.host.lower.text = true := by
    intro starts
    obtain ⟨host, account, repo, parts, -, isRead, -⟩ := toCustomLink_eq_ok isGiven
    rw [treeUrl_eq, protocolOf, if_pos starts, List.nil_append, behind, repoLink,
      behindProtocol_bare] at isRead
    cases isRead
  have isUrl : treeUrl place branch path = https ++ behind place branch path place.host.lower := by
    rw [treeUrl_eq, protocolOf, if_neg notHttp]
  have lower : place.host.text.map Char.toLower = place.host.text := by
    obtain ⟨host, account, repo, parts, isHost, isRead, reads⟩ := toCustomLink_eq_ok isFound
    rw [isUrl] at isHost
    obtain ⟨isLower, solid, noColon, -⟩ := hostOf_lower place isHost
    rw [host_of_parse solid noColon reads foundParts] at isLower
    exact isLower
  constructor
  case lower => exact lower
  case protocol =>
    have isLower : place.host.lower.text = place.host.text := lower
    rw [isLower] at notHttp
    exact Bool.eq_false_iff.mpr notHttp
  case oneSegment =>
    obtain ⟨host, account, repo, parts, isHost, isRead, reads⟩ := toCustomLink_eq_ok isGiven
    rw [hostOf_given] at isHost
    cases isHost
    rw [isUrl, repoLink_https] at isRead
    cases isRead
    refine oneSegment_of_parse ?_ reads givenParts
    rw [branchBehind_fst]
    split
    · rfl
    case isFalse some => exact given some
  case kept => exact kept_of_parse isCustom customParts

/-- Links are read back just where the parts are sound. -/
theorem links_read_back_iff (isWord : Char → Bool) (env : Environment) (place : RepoPlace)
    (branch : Branch) (path : FilePath) :
    AsClaimed isWord env place branch path ↔ Sound isWord place branch path :=
  ⟨AsClaimed.sound, Sound.claimed⟩

end

/-! ### A branch with a slash -/

/-- A branch that is checked when it is used. -/
def Branch.of (text : Text)
    (valid : text ≠ [] ∧ text.all branchChar = true ∧ text.getLast? ≠ some '/' := by decide) :
    Branch :=
  ⟨text, valid.1, valid.2.1, valid.2.2⟩

def asciiWord (char : Char) : Bool :=
  char.isAlphanum || char = '_'

/-- The url of the branch `feature/x` is that of another file on the branch `feature`. -/
theorem slash_ends_branch :
    treeUrl corePlace (.of "feature/x".toList) ⟨"docs/readme.md".toList, by decide⟩ =
        treeUrl corePlace (.of "feature".toList) ⟨"x/docs/readme.md".toList, by decide⟩ ∧
      ¬ AsClaimed asciiWord emptyEnvironment corePlace (.of "feature/x".toList)
        ⟨"docs/readme.md".toList, by decide⟩ := by
  constructor
  · rw [treeUrl_eq, treeUrl_eq]
    rfl
  · intro claimed
    exact claimed.sound.oneSegment (by decide)

end JumpscaleX.RepoLinks
