import JumpscaleX.GitUrlParts
import JumpscaleX.RepoLinks

/-!
# The custom form of a link

Which paths the parser of links keeps, and what it reads of a text that has the custom form.
-/

namespace JumpscaleX.RepoLinks

open Fallible GitUrls LazyGroup

/-! ## Branches and paths -/

/-- A character that git allows in a branch name. -/
def branchChar (char : Char) : Bool :=
  32 < char.toNat && char.toNat ≠ 127 && !(['~', '^', ':', '?', '*', '[', '\\'].contains char)

/-- A branch name, as far as git restricts its characters and its end. -/
structure Branch where
  text : Text
  notEmpty : text ≠ []
  plain : text.all branchChar = true
  closed : text.getLast? ≠ some '/'

/-- The path of a file in a repository. -/
structure FilePath where
  text : Text
  relative : text.head? ≠ some '/'

theorem Branch.not_mem (branch : Branch) {char : Char} (other : branchChar char = false) :
    char ∉ branch.text := by
  intro member
  rw [List.all_eq_true.mp branch.plain char member] at other
  cases other

/-! ## Markers -/

section

variable {isWord : Char → Bool}

/-- A marker stands at the end of the text. -/
def Marked (isWord : Char → Bool) (text : Text) : Prop :=
  ∃ front blanks word, text = front ++ '!' :: (blanks ++ word) ∧
    (∀ char ∈ blanks, HostFile.isspace char = true) ∧ word ≠ [] ∧
    ∀ char ∈ word, isWord char = true

theorem wordToEnd_eq_some {text word : Text} (found : wordToEnd isWord text = some word) :
    word ≠ [] ∧ (∀ char ∈ word, isWord char = true) ∧ ∃ ending ∈ textEnds,
      text = word ++ ending := by
  rw [wordToEnd] at found
  split at found
  case isTrue ends =>
    cases found
    refine ⟨ends.1, fun char member => List.mem_takeWhile_imp member,
      _, ends.2, List.takeWhile_append_dropWhile.symm⟩
  case isFalse => cases found

theorem markerWord_eq_some {text word : Text} (found : markerWord isWord text = some word) :
    ∃ blanks, (∀ char ∈ blanks, HostFile.isspace char = true) ∧ word ≠ [] ∧
      (∀ char ∈ word, isWord char = true) ∧ ∃ ending ∈ textEnds,
        text = blanks ++ (word ++ ending) := by
  induction text with
  | nil => cases found
  | cons char rest induction =>
      rw [markerWord, Option.or_eq_some_iff] at found
      rcases found with here | ⟨-, later⟩
      · obtain ⟨some, words, ending, member, whole⟩ := wordToEnd_eq_some here
        exact ⟨[], fun _ absent => absurd absent List.not_mem_nil, some, words, ending, member,
          whole⟩
      · split at later
        case isTrue space =>
          obtain ⟨blanks, spaces, some, words, ending, member, rfl⟩ := induction later
          exact ⟨char :: blanks, List.forall_mem_cons.mpr ⟨space, spaces⟩, some, words, ending,
            member, rfl⟩
        case isFalse => cases later

theorem wordToEnd_isSome {word ending : Text} (some : word ≠ [])
    (words : ∀ char ∈ word, isWord char = true) (member : ending ∈ textEnds) :
    (wordToEnd isWord (word ++ ending)).isSome = true := by
  have rest : ending.dropWhile isWord ∈ textEnds := by
    simp only [textEnds, List.mem_cons, List.not_mem_nil, or_false] at member
    rcases member with rfl | rfl
    · exact List.mem_cons_self
    · rw [List.dropWhile_cons]
      split
      · exact List.mem_cons_self
      · decide
  rw [wordToEnd, if_pos]
  · rfl
  · rw [List.takeWhile_append_of_pos words, List.dropWhile_append_of_pos words]
    exact ⟨fun empty => some (List.append_eq_nil_iff.mp empty).1, rest⟩

theorem markerWord_isSome {blanks word ending : Text}
    (spaces : ∀ char ∈ blanks, HostFile.isspace char = true) (some : word ≠ [])
    (words : ∀ char ∈ word, isWord char = true) (member : ending ∈ textEnds) :
    (markerWord isWord (blanks ++ (word ++ ending))).isSome = true := by
  induction blanks with
  | nil =>
      cases isText : word ++ ending with
      | nil => exact absurd (List.append_eq_nil_iff.mp isText).1 some
      | cons char rest =>
          have here := wordToEnd_isSome some words member
          rw [isText] at here
          rw [List.nil_append, markerWord, Option.isSome_or, here, Bool.true_or]
  | cons char blanks induction =>
      obtain ⟨space, others⟩ := List.forall_mem_cons.mp spaces
      rw [List.cons_append, markerWord, Option.isSome_or, if_pos space, induction others,
        Bool.or_true]

theorem pathEnd_marker (rest : Text) :
    pathEnd isWord ('!' :: rest) = (markerWord isWord rest).map some :=
  rfl

theorem pathEnd_eq_none_iff (text : Text) (notMark : text.head? ≠ some '!') :
    pathEnd isWord text = none ↔ text ∉ textEnds := by
  unfold pathEnd
  split
  · exact absurd rfl notMark
  · split
    case isTrue ends => simp [ends]
    case isFalse open' => simp [open']

/-- What the parser of a path keeps of it: colons are counted as separators, a line ends the
path, blanks at the end are stripped and a marker is cut off. -/
structure Kept (isWord : Char → Bool) (path : Text) : Prop where
  noColon : ':' ∉ path
  oneLine : '\n' ∉ path
  noBlank : ∀ char, path.getLast? = some char → HostFile.isspace char = false
  unmarked : ¬ Marked isWord path

theorem pathAndMarker_of_kept {path : Text} (oneLine : '\n' ∉ path)
    (unmarked : ¬ Marked isWord path) : pathAndMarker isWord path = some (path, none) := by
  refine read_eq_some_iff.mpr ⟨[], (List.append_nil path).symm, rfl, oneLine, ?_⟩
  intro front back parts some
  rw [List.append_nil]
  rw [parts, List.mem_append, not_or] at oneLine
  cases back with
  | nil => exact absurd rfl some
  | cons char back =>
      by_cases mark : char = '!'
      · subst mark
        rw [pathEnd_marker]
        cases isMarker : markerWord isWord back with
        | none => rfl
        | some word =>
            obtain ⟨blanks, spaces, someWord, words, ending, member, rfl⟩ :=
              markerWord_eq_some isMarker
            have noLine : ending ≠ ['\n'] := by
              rintro rfl
              simp at oneLine
            have isEmpty : ending = [] := by
              simpa [textEnds, noLine] using member
            rw [isEmpty, List.append_nil] at parts
            exact absurd ⟨front, blanks, word, parts, spaces, someWord, words⟩ unmarked
      · have notMark : (char :: back).head? ≠ Option.some '!' := by simpa using mark
        rw [pathEnd_eq_none_iff _ notMark]
        intro ends
        simp only [textEnds, List.mem_cons, List.not_mem_nil, or_false, reduceCtorEq, false_or,
          List.cons.injEq] at ends
        rw [ends.1] at oneLine
        exact oneLine.2 List.mem_cons_self

/-- A path that is read as it stands has no marker. -/
theorem unmarked_of_read {path rest : Text} {marker : Option Text}
    (ends : rest ∈ textEnds)
    (found : pathAndMarker isWord (path ++ rest) = some (path, marker)) :
    ¬ Marked isWord path := by
  rintro ⟨front, blanks, word, isPath, spaces, someWord, words⟩
  obtain ⟨others, whole, -, -, shortest⟩ := read_eq_some_iff.mp found
  have same : others = rest := (List.append_cancel_left whole).symm
  have unclosed := shortest front ('!' :: (blanks ++ word)) isPath (List.cons_ne_nil _ _)
  rw [same, List.cons_append, pathEnd_marker, List.append_assoc] at unclosed
  have isSome := markerWord_isSome spaces someWord words ends
  rw [Option.map_eq_none_iff] at unclosed
  rw [unclosed] at isSome
  cases isSome

end

/-! ## Partitions -/

section

variable {separator : Char}

theorem partition_append {first : Text} (absent : separator ∉ first) (rest : Text) :
    partition separator (first ++ separator :: rest) = (first, rest) := by
  have kept : ∀ char ∈ first, decide (char ≠ separator) = true := by
    intro char member
    rw [decide_eq_true_iff]
    rintro rfl
    exact absent member
  rw [partition, List.takeWhile_append_of_pos kept, List.dropWhile_append_of_pos kept]
  simp

theorem eq_partition {text : Text} (member : separator ∈ text) :
    text = (partition separator text).1 ++ separator :: (partition separator text).2 ∧
      separator ∉ (partition separator text).1 := by
  obtain ⟨first, rest, rfl, absent⟩ := List.eq_append_cons_of_mem member
  rw [partition_append absent]
  exact ⟨rfl, absent⟩

end

/-! ## Reading the custom form -/

section

variable {isWord : Char → Bool}

theorem branchEnd_append (back : Text) (some : back ≠ []) (absent : ':' ∉ back) (rest : Text) :
    branchEnd isWord (back ++ ')' :: ':' :: rest) = none := by
  cases back with
  | nil => exact absurd rfl some
  | cons char back =>
      rw [List.mem_cons, not_or] at absent
      cases back with
      | nil =>
          rw [List.cons_append, List.nil_append, branchEnd]
          rintro found same
          cases same
      | cons next back =>
          rw [List.mem_cons, not_or] at absent
          rw [List.cons_append, List.cons_append, branchEnd]
          rintro found same
          cases same
          exact absent.2.1 rfl

theorem read_branchEnd {branch path : Text} (noColon : ':' ∉ branch) (noLine : '\n' ∉ branch)
    {found : Text × Option Text} (isPath : pathAndMarker isWord path = some found) :
    read (branchEnd isWord) (branch ++ ')' :: ':' :: path) = some (branch, found) := by
  refine read_eq_some_iff.mpr ⟨_, rfl, isPath, noLine, ?_⟩
  intro front back parts some
  apply branchEnd_append back some
  rw [parts, List.mem_append, not_or] at noColon
  exact noColon.2

theorem repoEnd_of_ne {char : Char} (noParen : char ≠ '(') (noColon : char ≠ ':') (rest : Text) :
    repoEnd isWord (char :: rest) = none := by
  unfold repoEnd
  split
  · rename_i same
    exact absurd (List.cons.inj same).1 noParen
  · rename_i same
    exact absurd (List.cons.inj same).1 noColon
  · rfl

theorem parseRepoAndPath_form {repo : Name} {branch path : Text} (noColon : ':' ∉ branch)
    (noLine : '\n' ∉ branch) {found : Text × Option Text}
    (isPath : pathAndMarker isWord path = some found) :
    parseRepoAndPath isWord (repo.text ++ '(' :: (branch ++ ')' :: ':' :: path)) =
      some (some repo.text, some branch, found) := by
  have closes : repoEnd isWord ('(' :: (branch ++ ')' :: ':' :: path)) =
      some (some branch, found) := by
    rw [repoEnd, read_branchEnd noColon noLine isPath]
    rfl
  have isRead : read (repoEnd isWord) (repo.text ++ '(' :: (branch ++ ')' :: ':' :: path)) =
      some (repo.text, some branch, found) := by
    apply read_append closes repo.solid.oneLine
    intro char member others
    apply repoEnd_of_ne
    · rintro rfl
      exact repo.not_mem rfl member
    · rintro rfl
      exact repo.not_mem rfl member
  rw [parseRepoAndPath, isRead]

end

/-! ## The custom form of a place -/

/-- `host:account:repo(branch):path` -/
def form (place : RepoPlace) (branch : Text) (path : Text) : Text :=
  customForm place.host.text place.account.text place.name.text (some branch) path

theorem form_eq (place : RepoPlace) (branch path : Text) :
    form place branch path = place.host.text ++ ':' :: (place.account.text ++ ':' ::
      (place.name.text ++ '(' :: (branch ++ ')' :: ':' :: path))) := by
  simp [form, customForm, branchText]


/-- A text of which a part before a colon is a name, with another name behind it, is no url. -/
theorem isUrl_names (host account : Name) (rest : Text) :
    isUrl (host.text ++ ':' :: (account.text ++ rest)) = false := by
  have noColon : ':' ∉ host.lower.text := host.lower.not_mem rfl
  have lowered : (host.text ++ ':' :: (account.text ++ rest)).map Char.toLower =
      host.lower.text ++ ':' :: (account.lower.text ++ rest.map Char.toLower) := by
    rw [List.map_append, List.map_cons, List.map_append]
    rfl
  have notPrefix : ∀ start : Text, ':' ∉ start →
      (start ++ [':', '/', '/']).isPrefixOf
        ((host.text ++ ':' :: (account.text ++ rest)).map Char.toLower) = false := by
    intro start absent
    rw [lowered, Bool.eq_false_iff]
    intro starts
    obtain ⟨behind, whole⟩ := List.isPrefixOf_iff_prefix.mp starts
    rw [List.append_assoc, List.cons_append] at whole
    have slashes := ((Separated.append_separator_inj absent noColon).mp whole).2
    cases isAccount : account.lower.text with
    | nil => exact account.lower.notEmpty isAccount
    | cons char others =>
        rw [isAccount] at slashes
        have noSlash : '/' ∉ account.lower.text := account.lower.not_mem rfl
        rw [isAccount, (List.cons.inj slashes).1] at noSlash
        exact noSlash List.mem_cons_self
  rw [isUrl, Bool.or_eq_false_iff]
  exact ⟨notPrefix ['h', 't', 't', 'p'] (by decide), notPrefix ['h', 't', 't', 'p', 's'] (by decide)⟩

section

variable (place : RepoPlace) {branch : Branch} {path : Text}

theorem head_isspace (name : Name) (rest : Text) :
    ∀ char, (name.text ++ rest).head? = some char → HostFile.isspace char = false := by
  intro char first
  cases isName : name.text with
  | nil => exact absurd isName name.notEmpty
  | cons other others =>
      rw [isName] at first
      cases first
      exact name.solid _ (isName ▸ List.mem_cons_self)

theorem count_of_not_mem {char : Char} {text : Text} (absent : char ∉ text) :
    text.count char = 0 :=
  List.count_eq_zero.mpr absent

theorem count_form : (form place branch.text path).count ':' = 3 + path.count ':' := by
  have noHost : ':' ∉ place.host.text := place.host.not_mem rfl
  have noAccount : ':' ∉ place.account.text := place.account.not_mem rfl
  have noName : ':' ∉ place.name.text := place.name.not_mem rfl
  have noBranch : ':' ∉ branch.text := branch.not_mem rfl
  rw [form_eq]
  simp only [List.count_append, List.count_cons, count_of_not_mem noHost,
    count_of_not_mem noAccount, count_of_not_mem noName, count_of_not_mem noBranch]
  simp
  omega

/-- What stands before the path. -/
def formFront (place : RepoPlace) (branch : Text) : Text :=
  place.host.text ++ ':' :: (place.account.text ++ ':' :: (place.name.text ++ '(' ::
    (branch ++ [')'])))

theorem form_eq_append (place : RepoPlace) (branch path : Text) :
    form place branch path = (formFront place branch ++ [':']) ++ path := by
  simp [form_eq, formFront]

theorem strip_form (noBlank : ∀ char, path.getLast? = some char → HostFile.isspace char = false) :
    strip (form place branch.text path) = form place branch.text path := by
  apply Profiles.strip_eq_self_iff.mpr
  constructor
  · rw [form_eq]
    exact head_isspace place.host _
  · intro char last
    rw [form_eq_append, List.getLast?_append, List.getLast?_concat,
      Option.or_eq_some_iff] at last
    rcases last with inPath | ⟨-, isColon⟩
    · exact noBlank char inPath
    · cases isColon
      rfl

theorem getHostAndAccount_form {host account other : Text} (noHost : ':' ∉ host)
    (noAccount : ':' ∉ account)
    (three : (host ++ ':' :: (account ++ ':' :: other)).count ':' = 3) :
    getHostAndAccount (host ++ ':' :: (account ++ ':' :: other)) =
      (some host, some account, other) := by
  simp only [getHostAndAccount, three, if_true, partition_append noHost,
    partition_append noAccount]

/-- The link that a form is read as. -/
def formLink (place : RepoPlace) (branch path : Text) : MarkdownLink :=
  ⟨form place branch path, some place.host.text, some place.account.text, some place.name.text,
    some branch, path, none⟩

/-- The custom form is read back. -/
theorem parse_form {isWord : Char → Bool} (kept : Kept isWord path) :
    MarkdownLink.parse isWord (form place branch.text path) =
      .ok (formLink place branch.text path) := by
  have noHost : ':' ∉ place.host.text := place.host.not_mem rfl
  have noAccount : ':' ∉ place.account.text := place.account.not_mem rfl
  have three : (form place branch.text path).count ':' = 3 := by
    rw [count_form, count_of_not_mem kept.noColon]
  have noUrl : isUrl (form place branch.text path) = false := by
    rw [form_eq]
    exact isUrl_names place.host place.account _
  have isPath := pathAndMarker_of_kept kept.oneLine kept.unmarked
  rw [MarkdownLink.parse, strip_form place kept.noBlank]
  simp only [noUrl, Bool.false_eq_true, if_false]
  rw [form_eq] at three ⊢
  rw [getHostAndAccount_form noHost noAccount three]
  dsimp only
  rw [parseRepoAndPath_form (branch.not_mem rfl) (branch.not_mem (by decide)) isPath]
  have some : branch.text ≠ [] := branch.notEmpty
  simp [formLink, form_eq, some]

end

/-! ## What a link that is read has -/

section

variable {isWord : Char → Bool}

theorem branchEnd_eq_some {text : Text} {found : Text × Option Text}
    (closes : branchEnd isWord text = some found) :
    ∃ rest, text = ')' :: ':' :: rest ∧ pathAndMarker isWord rest = some found := by
  unfold branchEnd at closes
  split at closes
  · exact ⟨_, rfl, closes⟩
  · cases closes

theorem repoEnd_eq_some {text name : Text} {found : Text × Option Text}
    (closes : repoEnd isWord text = some (some name, found)) :
    ∃ rest, text = '(' :: (name ++ ')' :: ':' :: rest) ∧
      pathAndMarker isWord rest = some found := by
  unfold repoEnd at closes
  split at closes
  · rename_i inside
    obtain ⟨⟨group, later⟩, isRead, same⟩ := Option.map_eq_some_iff.mp closes
    cases same
    obtain ⟨ending, rfl, isEnd, -, -⟩ := read_eq_some_iff.mp isRead
    obtain ⟨rest, rfl, isPath⟩ := branchEnd_eq_some isEnd
    exact ⟨rest, rfl, isPath⟩
  · obtain ⟨later, -, same⟩ := Option.map_eq_some_iff.mp closes
    cases same
  · cases closes

/-- What is read of the part behind the account. -/
theorem parseRepoAndPath_eq_some {text repo name : Text} {found : Text × Option Text}
    (isFound : parseRepoAndPath isWord text = some (some repo, some name, found)) :
    ∃ rest, text = repo ++ '(' :: (name ++ ')' :: ':' :: rest) ∧
      pathAndMarker isWord rest = some found := by
  rw [parseRepoAndPath] at isFound
  split at isFound
  case h_1 first later isRead =>
    cases isFound
    obtain ⟨ending, rfl, isEnd, -, -⟩ := read_eq_some_iff.mp isRead
    obtain ⟨rest, rfl, isPath⟩ := repoEnd_eq_some isEnd
    exact ⟨rest, rfl, isPath⟩
  case h_2 =>
    obtain ⟨later, -, same⟩ := Option.map_eq_some_iff.mp isFound
    cases same

theorem getHostAndAccount_eq_some {link host other : Text} {account : Option Text}
    (found : getHostAndAccount link = (some host, account, other)) :
    link.count ':' = 3 ∧ ∃ name, account = some name ∧
      link = host ++ ':' :: (name ++ ':' :: other) ∧ ':' ∉ host ∧ ':' ∉ name := by
  rw [getHostAndAccount] at found
  split at found
  case isTrue three =>
    have member : ':' ∈ link := List.count_pos_iff.mp (by omega)
    obtain ⟨whole, absent⟩ := eq_partition member
    have inRest : ':' ∈ (partition ':' link).2 := by
      rw [whole, List.count_append, List.count_cons_self, count_of_not_mem absent] at three
      exact List.count_pos_iff.mp (by omega)
    obtain ⟨rest, alsoAbsent⟩ := eq_partition inRest
    cases found
    refine ⟨three, _, rfl, ?_, absent, alsoAbsent⟩
    exact whole.trans (congrArg (fun text => (partition ':' link).1 ++ ':' :: text) rest)
  case isFalse =>
    split at found
    all_goals cases found

/-- The text of a link that is read with all its parts. -/
theorem parse_eq_ok {text host repo branch : Text} {link : MarkdownLink}
    (reads : MarkdownLink.parse isWord text = .ok link) (hosted : link.host = some host)
    (named : link.repo = some repo) (branched : link.branch = some branch) :
    (strip text).count ':' = 3 ∧ ∃ account rest, link.account = some account ∧
      strip text = host ++ ':' :: (account ++ ':' :: (repo ++ '(' ::
        (branch ++ ')' :: ':' :: rest))) ∧
      ':' ∉ host ∧ ':' ∉ account ∧
      pathAndMarker isWord rest = some (link.path, link.marker) := by
  rw [MarkdownLink.parse] at reads
  split at reads
  case isTrue =>
    cases reads
    cases hosted
  case isFalse =>
    cases isParts : getHostAndAccount (strip text) with
    | mk first others =>
        obtain ⟨account, other⟩ := others
        rw [isParts] at reads
        dsimp only at reads
        split at reads
        case h_1 => cases reads
        case h_2 repo' branch' path marker isFound =>
          cases reads
          dsimp only at hosted named branched ⊢
          subst hosted named
          obtain ⟨three, name, rfl, whole, noHost, noName⟩ := getHostAndAccount_eq_some isParts
          have isBranch : branch' = some branch := (Option.filter_eq_some_iff.mp branched).1
          subst isBranch
          obtain ⟨rest, rfl, isPath⟩ := parseRepoAndPath_eq_some isFound
          exact ⟨three, name, rest, rfl, whole, noHost, noName, isPath⟩

end

/-! ## The custom form is read back -/

/-- The link has the parts that it was made of. -/
structure HasParts (place : RepoPlace) (branch path : Text) (link : MarkdownLink) : Prop where
  host : link.host = some place.host.text
  account : link.account = some place.account.text
  repo : link.repo = some place.name.text
  branch : link.branch = some branch
  path : link.path = path

section

variable {isWord : Char → Bool} {place : RepoPlace} {branch : Branch} {path : Text}

theorem hasParts_formLink : HasParts place branch.text path (formLink place branch.text path) :=
  ⟨rfl, rfl, rfl, rfl, rfl⟩

/-- Only a path that is kept is read back. -/
theorem kept_of_parse {link : MarkdownLink}
    (reads : MarkdownLink.parse isWord (form place branch.text path) = .ok link)
    (parts : HasParts place branch.text path link) : Kept isWord path := by
  obtain ⟨three, account, rest, isAccount, whole, -, -, isPath⟩ :=
    parse_eq_ok reads parts.host parts.repo parts.branch
  have sameAccount : account = place.account.text :=
    Option.some.inj (isAccount.symm.trans parts.account)
  rw [parts.path] at isPath
  obtain ⟨tail, rfl, closes, oneLine, -⟩ := read_eq_some_iff.mp isPath
  have stripped : strip (form place branch.text path) = form place branch.text path ++ tail := by
    rw [whole, sameAccount, form_eq]
    simp
  have short := Scalars.length_strip_le HostFile.isspace (form place branch.text path)
  have noTail : tail = [] := by
    rw [strip] at stripped
    rw [stripped, List.length_append] at short
    exact List.length_eq_zero_iff.mp (by omega)
  rw [noTail, List.append_nil] at stripped isPath
  have ends := Profiles.strip_eq_self_iff.mp stripped
  constructor
  case noColon =>
    rw [stripped, count_form] at three
    exact List.count_eq_zero.mp (by omega)
  case oneLine => exact oneLine
  case noBlank =>
    intro char last
    apply ends.2 char
    rw [form_eq_append, List.getLast?_append, last]
    rfl
  case unmarked =>
    have atEnd : [] ∈ textEnds := List.mem_cons_self
    apply unmarked_of_read atEnd
    rw [List.append_nil]
    exact isPath

end

end JumpscaleX.RepoLinks
