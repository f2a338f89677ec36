import JumpscaleX.GitUrls
import JumpscaleX.ProfileLists

/-!
# Forms of git urls

The forms in which a url names a repository, what rewriting makes of each, and when it
yields the parts that the url was made of.
-/

namespace JumpscaleX.GitUrls

open Fallible LazyGroup

/-! ## Texts without blanks -/

/-- No character of the text is blank. -/
def Solid (text : Text) : Prop :=
  ∀ char ∈ text, HostFile.isspace char = false

theorem Solid.append {first second : Text} (solid : Solid first) (alsoSolid : Solid second) :
    Solid (first ++ second) := by
  intro char member
  rcases List.mem_append.mp member with inFirst | inSecond
  · exact solid char inFirst
  · exact alsoSolid char inSecond

theorem Solid.cons {char : Char} {text : Text} (kept : HostFile.isspace char = false)
    (solid : Solid text) : Solid (char :: text) :=
  List.forall_mem_cons.mpr ⟨kept, solid⟩

theorem Solid.oneLine {text : Text} (solid : Solid text) : '\n' ∉ text :=
  fun member => absurd (solid _ member) (by decide)

theorem Solid.strip_eq {text : Text} (solid : Solid text) : strip text = text :=
  VFS.strip_of_forall_not solid

theorem solid_of_all {text : Text} (all : text.all (fun char => !HostFile.isspace char) = true) :
    Solid text := by
  intro char member
  simpa using List.all_eq_true.mp all char member

/-! ## Names -/

def nameChar (char : Char) : Bool :=
  char.isAlphanum || char = '-' || char = '_' || char = '.'

/-- The name of a host, an account or a repository. -/
structure Name where
  text : Text
  notEmpty : text ≠ []
  plain : text.all nameChar = true

theorem nameChar_iff (char : Char) : nameChar char = true ↔
    (48 ≤ char.toNat ∧ char.toNat ≤ 57) ∨ (65 ≤ char.toNat ∧ char.toNat ≤ 90) ∨
      (97 ≤ char.toNat ∧ char.toNat ≤ 122) ∨ char = '-' ∨ char = '_' ∨ char = '.' := by
  simp only [nameChar, Bool.or_eq_true, Letters.isAlphanum_iff, decide_eq_true_eq]
  grind

theorem isspace_of_nameChar {char : Char} (named : nameChar char = true) :
    HostFile.isspace char = false := by
  rw [Bool.eq_false_iff]
  intro space
  rcases (nameChar_iff char).mp named with digit | upper | lower | rfl | rfl | rfl
  case inr.inr.inr.inl => cases space
  case inr.inr.inr.inr.inl => cases space
  case inr.inr.inr.inr.inr => cases space
  all_goals
    simp only [HostFile.isspace, Bool.or_eq_true, Bool.and_eq_true, decide_eq_true_eq,
      beq_iff_eq] at space
    omega

/-- A character that no name has. -/
theorem Name.not_mem (name : Name) {char : Char} (other : nameChar char = false) :
    char ∉ name.text := by
  intro member
  rw [List.all_eq_true.mp name.plain char member] at other
  cases other

theorem Name.solid (name : Name) : Solid name.text :=
  fun char member => isspace_of_nameChar (List.all_eq_true.mp name.plain char member)

theorem nameChar_toLower {char : Char} (named : nameChar char = true) :
    nameChar char.toLower = true := by
  rcases (nameChar_iff char).mp named with digit | upper | lower | rfl | rfl | rfl
  case inr.inr.inr.inl => rfl
  case inr.inr.inr.inr.inl => rfl
  case inr.inr.inr.inr.inr => rfl
  all_goals
    have code := Letters.toNat_toLower char
    split at code
    all_goals
      apply (nameChar_iff _).mpr
      omega

/-- A name in small letters. -/
def Name.lower (name : Name) : Name where
  text := name.text.map Char.toLower
  notEmpty := by simpa using name.notEmpty
  plain := by
    rw [List.all_map, List.all_eq_true]
    exact fun char member => nameChar_toLower (List.all_eq_true.mp name.plain char member)

/-! ## Forms -/

/-- Where a repository is. -/
structure RepoPlace where
  host : Name
  account : Name
  name : Name

/-- How a url names a repository, with the port where it gives one. -/
inductive Form where
  | http (secure : Bool) (port : Option Nat)
  /-- `git@host:account/repo` -/
  | colon
  /-- `git@host/account/repo` -/
  | slash (port : Option Nat)
  /-- `ssh://git@host/account/repo` -/
  | ssh (port : Option Nat)
  deriving DecidableEq

/-- What a url has behind the name. -/
structure Ending where
  git : Bool
  slash : Bool
  deriving DecidableEq

def Form.port : Form → Option Nat
  | http _ port => port
  | colon => none
  | slash port => port
  | ssh port => port

def Form.protocol : Form → Text
  | http secure _ => if secure then https else GitUrls.http
  | _ => gitAt

def Form.urlSsh : Form → Bool
  | http .. => false
  | _ => true

/-- A port, as the code has it. -/
def portNumber (port : Option Nat) : Option Int :=
  port.map (fun number : Nat => (number : Int))

def Ending.slashText (ending : Ending) : Text :=
  if ending.slash then ['/'] else []

/-- The name in the url, with its `.git`. -/
def Ending.named (ending : Ending) (name : Text) : Text :=
  if ending.git then name ++ dotGit else name

section

variable (place : RepoPlace) (ending : Ending)

/-- `/account/repo`, to the end of the url. -/
def RepoPlace.rest : Text :=
  place.account.text ++ '/' :: (ending.named place.name.text ++ ending.slashText)

def RepoPlace.at (port : Option Nat) : Text :=
  place.host.text ++ portText (portNumber port) ++ '/' :: place.rest ending

def Form.text : Form → Text
  | http secure port => (if secure then https else GitUrls.http) ++ place.at ending port
  | colon => gitAt ++ place.host.text ++ ':' :: place.rest ending
  | slash port => gitAt ++ place.at ending port
  | ssh port => sshProtocol ++ gitAt ++ place.at ending port

end

/-! ## Characters of a url -/


theorem isspace_of_isDigit {char : Char} (digit : char.isDigit = true) :
    HostFile.isspace char = false := by
  apply isspace_of_nameChar
  simp [nameChar, Char.isAlphanum, digit]

theorem digit_of_mem_str {port : Nat} {char : Char} (member : char ∈ VFS.str (port : Int)) :
    char.isDigit = true := by
  have spelled : VFS.str (port : Int) = Nat.toDigits 10 port := VFS.str_ofNat port
  rw [spelled] at member
  exact VFS.isDigit_of_mem member

theorem not_mem_str {char : Char} (other : char.isDigit = false) (port : Nat) :
    char ∉ VFS.str (port : Int) := by
  intro member
  rw [digit_of_mem_str member] at other
  cases other

theorem str_ne_nil (port : Nat) : VFS.str (port : Int) ≠ [] := by
  have spelled : VFS.str (port : Int) = Nat.toDigits 10 port := VFS.str_ofNat port
  rw [spelled]
  exact Nat.toDigits_ne_nil

theorem solid_portText (port : Option Nat) : Solid (portText (portNumber port)) := by
  cases port with
  | none => exact fun char member => absurd member List.not_mem_nil
  | some port =>
      exact Solid.cons rfl (fun char member => isspace_of_isDigit (digit_of_mem_str member))

section

variable (place : RepoPlace) (ending : Ending)

theorem solid_named (name : Name) : Solid (ending.named name.text) := by
  rw [Ending.named]
  split
  · exact Solid.append name.solid (solid_of_all rfl)
  · exact name.solid

theorem solid_slashText : Solid ending.slashText := by
  rw [Ending.slashText]
  split
  · exact solid_of_all rfl
  · exact solid_of_all rfl

theorem solid_rest : Solid (place.rest ending) :=
  place.account.solid.append
    (.cons rfl ((solid_named ending place.name).append (solid_slashText ending)))

theorem solid_at (port : Option Nat) : Solid (place.at ending port) :=
  (place.host.solid.append (solid_portText port)).append (.cons rfl (solid_rest place ending))

theorem Form.solid (form : Form) : Solid (form.text place ending) := by
  cases form with
  | http secure port =>
      cases secure with
      | false => exact Solid.append (solid_of_all rfl) (solid_at place ending port)
      | true => exact Solid.append (solid_of_all rfl) (solid_at place ending port)
  | colon =>
      exact Solid.append (Solid.append (solid_of_all rfl) place.host.solid)
        (.cons rfl (solid_rest place ending))
  | slash port => exact Solid.append (solid_of_all rfl) (solid_at place ending port)
  | ssh port => exact Solid.append (solid_of_all rfl) (solid_at place ending port)

theorem not_mem_named {char : Char} (other : nameChar char = false) :
    char ∉ ending.named place.name.text := by
  rw [Ending.named]
  split
  · intro member
    rcases List.mem_append.mp member with inName | inGit
    · exact place.name.not_mem other inName
    · have plain : dotGit.all nameChar = true := rfl
      rw [List.all_eq_true.mp plain char inGit] at other
      cases other
  · exact place.name.not_mem other

/-- The only character of the rest that names do not have is the slash. -/
theorem not_mem_rest {char : Char} (other : nameChar char = false) (noSlash : char ≠ '/') :
    char ∉ place.rest ending := by
  have notSlash : char ∉ ending.slashText := by
    rw [Ending.slashText]
    split
    · exact fun member => noSlash (List.mem_singleton.mp member)
    · exact List.not_mem_nil
  simp [RepoPlace.rest, place.account.not_mem other, noSlash, not_mem_named place ending other,
    notSlash]

end

/-! ## Ports -/

theorem splitChars_front {separator : Char} {first : Text} (absent : separator ∉ first)
    (rest : Text) :
    ∃ part parts, PyText.splitChars separator (first ++ rest) = (first ++ part) :: parts := by
  induction first with
  | nil =>
      cases split : PyText.splitChars separator rest with
      | nil =>
          rw [TextTools.splitChars_eq_splitOn] at split
          exact absurd split (List.splitOn_ne_nil _ _)
      | cons part parts => exact ⟨part, parts, split⟩
  | cons char first induction =>
      rw [List.mem_cons, not_or] at absent
      obtain ⟨part, parts, split⟩ := induction absent.2
      refine ⟨part, parts, ?_⟩
      rw [List.cons_append, PyText.splitChars, if_neg (Ne.symm absent.1), split]
      rfl

theorem portOf_of_not_mem {url : Text} (absent : ':' ∉ url) : portOf url = none := by
  rw [portOf, VFS.splitChars_of_not_mem absent]

/-- The number that is read stands between the first colon and the next slash. -/
theorem portOf_append {front number : Text} (absent : ':' ∉ front) (noColon : ':' ∉ number)
    (noSlash : '/' ∉ number) (rest : Text) :
    portOf (front ++ ':' :: (number ++ '/' :: rest)) =
      (PyText.int (String.ofList number)).toOption := by
  have whole : number ++ '/' :: rest = (number ++ ['/']) ++ rest := by simp
  have alsoAbsent : ':' ∉ number ++ ['/'] := by simp [noColon]
  obtain ⟨part, parts, split⟩ := splitChars_front alsoAbsent rest
  have second : number ++ ['/'] ++ part = number ++ '/' :: part := by simp
  rw [portOf, VFS.splitChars_append _ absent, whole, split, second]
  dsimp only
  rw [VFS.splitChars_append _ noSlash]

theorem portOf_str {front : Text} (absent : ':' ∉ front) (port : Nat) (rest : Text) :
    portOf (front ++ ':' :: (VFS.str (port : Int) ++ '/' :: rest)) =
      some (port : Int) := by
  rw [portOf_append absent (not_mem_str rfl port) (not_mem_str rfl port), VFS.pyInt_str]
  rfl

theorem withoutPort_append {front rest : Text} (absent : ':' ∉ front) (noColon : ':' ∉ rest)
    (port : Nat) :
    withoutPort (front ++ ':' :: (VFS.str (port : Int) ++ '/' :: rest)) (port : Int) =
      front ++ ':' :: rest := by
  have whole : VFS.str (port : Int) ++ '/' :: rest =
      (VFS.str (port : Int) ++ ['/']) ++ rest := by simp
  rw [withoutPort, Lines.replace_append_of_not_mem absent, whole, Lines.replace_here,
    Lines.replace_of_first_not_mem noColon]
  rfl

/-! ## Matches -/

theorem urlEnds_head {ending : Text} (member : ending ∈ urlEnds) {char : Char}
    (starts : ending.head? = some char) : nameChar char = false := by
  simp only [urlEnds, List.mem_cons, List.not_mem_nil, or_false] at member
  rcases member with rfl | rfl | rfl | rfl
  case inl => cases starts
  all_goals
    cases starts
    rfl

section

variable (place : RepoPlace) (ending : Ending)

theorem accountAndName_rest :
    accountAndName (place.rest ending) =
      some (place.account.text, ending.named place.name.text) := by
  have last : read (closeEnd urlEnds) (ending.named place.name.text ++ ending.slashText) =
      some (ending.named place.name.text, ()) := by
    apply read_closeEnd_append
    · rw [Ending.slashText]
      split
      · decide
      · decide
    · exact (solid_named ending place.name).oneLine
    · intro char member other isEnd starts
      exact not_mem_named place ending (urlEnds_head isEnd starts) member
  rw [accountAndName, RepoPlace.rest,
    read_closeAt_append last place.account.solid.oneLine (place.account.not_mem rfl)]
  rfl

theorem matchBehind_rest {front : Text} (solid : Solid front) {separator : Char}
    (absent : separator ∉ front) (urlSsh : Bool) (protocol : Text) :
    matchBehind urlSsh protocol separator (front ++ separator :: place.rest ending) =
      some ⟨urlSsh, protocol, front, place.account.text, ending.named place.name.text⟩ := by
  rw [matchBehind, read_closeAt_append (accountAndName_rest place ending) solid.oneLine absent]
  rfl

end

/-! ## Rewriting a form -/

/-- The form whose parts the patterns can tell apart. -/
def Form.Read (chosen : Bool) (account : Text) : Form → Prop
  | http _ port => port = none
  | colon => chosen = true → (PyText.int (String.ofList account)).toOption = none
  | slash port => port = none ∨ chosen = true
  | ssh port => port = none ∨ chosen = true

/-- The form of the url that the patterns are matched with. -/
def Form.bare : Form → Form
  | http secure port => http secure port
  | colon => colon
  | slash none => slash none
  | slash (some _) => colon
  | ssh none => slash none
  | ssh (some _) => colon

section

variable (place : RepoPlace) (ending : Ending)

theorem not_mem_at {char : Char} (other : nameChar char = false) (noSlash : char ≠ '/') :
    char ∉ place.at ending none := by
  have noRest := not_mem_rest place ending other noSlash
  simp [RepoPlace.at, portText, portNumber, place.host.not_mem other, noSlash, noRest]

theorem at_some (port : Nat) :
    place.at ending (some port) =
      place.host.text ++ ':' :: (VFS.str (port : Int) ++ '/' :: place.rest ending) := by
  simp [RepoPlace.at, portText, portNumber]

theorem gitAt_host_not_mem : ':' ∉ gitAt ++ place.host.text := by
  have noHost : ':' ∉ place.host.text := place.host.not_mem rfl
  simp [gitAt, noHost]

/-- A url without a protocol holds no `ssh://`. -/
theorem sshProtocol_absent (port : Option Nat) :
    ¬ sshProtocol <:+: gitAt ++ place.at ending port := by
  cases port with
  | none =>
      intro occurs
      have member : ':' ∈ gitAt ++ place.at ending none := occurs.subset (by decide)
      have absent : ':' ∉ place.at ending none := not_mem_at place ending rfl (by decide)
      simp [gitAt, absent] at member
  | some port =>
      rintro ⟨start, finish, same⟩
      have single : (start ++ ['s', 's', 'h']) ++ ':' :: ('/' :: '/' :: finish) =
          (gitAt ++ place.host.text) ++
            ':' :: (VFS.str (port : Int) ++ '/' :: place.rest ending) := by
        have whole := same
        rw [at_some] at whole
        simpa [sshProtocol] using whole
      have once : ':' ∉ VFS.str (port : Int) ++ '/' :: place.rest ending := by
        have noDigit : ':' ∉ VFS.str (port : Int) := not_mem_str rfl port
        have noRest : ':' ∉ place.rest ending := not_mem_rest place ending rfl (by decide)
        simp [noDigit, noRest]
      obtain ⟨-, slashes⟩ := (Separated.append_single_separator_inj
        (gitAt_host_not_mem place) once).mp single
      cases isPort : VFS.str (port : Int) with
      | nil => exact str_ne_nil port isPort
      | cons digit digits =>
          have isDigit : digit.isDigit = true :=
            digit_of_mem_str (isPort ▸ List.mem_cons_self : digit ∈ VFS.str (port : Int))
          rw [isPort] at slashes
          rw [← (List.cons.inj slashes).1] at isDigit
          cases isDigit

theorem portOf_protocol {start : Text} (absent : ':' ∉ start) (rest : Text) :
    portOf (start ++ ':' :: '/' :: rest) = none :=
  portOf_append absent List.not_mem_nil List.not_mem_nil rest

/-- A url that starts with no `ssh://` is not prepared without ssh. -/
theorem prepared_off {url : Text} (plain : sshProtocol.isPrefixOf url = false) :
    prepared url false = (url, none) := by
  simp [prepared, plain]

theorem prepared_on {url : Text} (plain : sshProtocol.isPrefixOf url = false) :
    prepared url true =
      match portOf url with
      | some port => (withoutPort url port, some port)
      | none => (url, none) := by
  cases isPort : portOf url with
  | none => simp [prepared, plain, isPort]
  | some port => simp [prepared, plain, isPort]

/-- `ssh://` in front makes no difference. -/
theorem prepared_ssh (port : Option Nat) (chosen : Bool) :
    prepared (sshProtocol ++ gitAt ++ place.at ending port) chosen =
      prepared (gitAt ++ place.at ending port) chosen := by
  have dropped : Lines.replace sshProtocol [] 0 (sshProtocol ++ gitAt ++ place.at ending port) =
      gitAt ++ place.at ending port := by
    have passed := @Lines.replace_here _ _ [] 's' ['s', 'h', ':', '/', '/']
      (gitAt ++ place.at ending port)
    rw [List.nil_append, show 's' :: ['s', 'h', ':', '/', '/'] = sshProtocol from rfl,
      Lines.replace_of_absent (sshProtocol_absent place ending port)] at passed
    exact passed
  have starts : sshProtocol.isPrefixOf (sshProtocol ++ gitAt ++ place.at ending port) = true :=
    rfl
  have differs : sshProtocol.isPrefixOf (gitAt ++ place.at ending port) = false := rfl
  rw [prepared, prepared, dropped, if_pos starts, differs]
  rfl

theorem prepared_git_none (chosen : Bool) :
    prepared (gitAt ++ place.at ending none) chosen = (gitAt ++ place.at ending none, none) := by
  cases chosen with
  | false => exact prepared_off rfl
  | true =>
      have absent : ':' ∉ gitAt ++ place.at ending none := by
        have noColon : ':' ∉ place.at ending none := not_mem_at place ending rfl (by decide)
        simp [gitAt, noColon]
      rw [prepared_on rfl, portOf_of_not_mem absent]

theorem prepared_git_some (port : Nat) :
    prepared (gitAt ++ place.at ending (some port)) true =
      (gitAt ++ place.host.text ++ ':' :: place.rest ending, some (port : Int)) := by
  have whole : gitAt ++ place.at ending (some port) = (gitAt ++ place.host.text) ++
      ':' :: (VFS.str (port : Int) ++ '/' :: place.rest ending) := by
    rw [at_some, List.append_assoc]
  have noColon : ':' ∉ place.rest ending := not_mem_rest place ending rfl (by decide)
  rw [prepared_on rfl, whole, portOf_str (gitAt_host_not_mem place)]
  dsimp only
  rw [withoutPort_append (gitAt_host_not_mem place) noColon]

theorem portOf_http (secure : Bool) (port : Option Nat) :
    portOf ((Form.http secure port).text place ending) = none := by
  cases secure with
  | false =>
      have absent : ':' ∉ ['h', 't', 't', 'p'] := by decide
      exact portOf_protocol absent ('/' :: place.at ending port)
  | true =>
      have absent : ':' ∉ ['h', 't', 't', 'p', 's'] := by decide
      exact portOf_protocol absent ('/' :: place.at ending port)

theorem portOf_colon :
    portOf (Form.colon.text place ending) =
      (PyText.int (String.ofList place.account.text)).toOption := by
  rw [Form.text, RepoPlace.rest, portOf_append (gitAt_host_not_mem place)
    (place.account.not_mem rfl) (place.account.not_mem rfl)]

theorem prepared_text {form : Form} {chosen : Bool}
    (reads : form.Read chosen place.account.text) :
    prepared (form.text place ending) chosen =
      (form.bare.text place ending, portNumber form.port) := by
  cases form with
  | http secure port =>
      have isNone : port = none := reads
      subst isNone
      have plain : sshProtocol.isPrefixOf ((Form.http secure none).text place ending) = false := by
        cases secure with
        | false => rfl
        | true => rfl
      cases chosen with
      | false => exact prepared_off plain
      | true =>
          rw [prepared_on plain, portOf_http]
          rfl
  | colon =>
      cases chosen with
      | false => exact prepared_off rfl
      | true =>
          rw [prepared_on rfl, portOf_colon, reads rfl]
          rfl
  | slash port =>
      cases port with
      | none => exact prepared_git_none place ending chosen
      | some port =>
          have on : chosen = true := by simpa [Form.Read] using reads
          rw [on]
          exact prepared_git_some place ending port
  | ssh port =>
      rw [Form.text, prepared_ssh]
      cases port with
      | none => exact prepared_git_none place ending chosen
      | some port =>
          have on : chosen = true := by simpa [Form.Read] using reads
          rw [on]
          exact prepared_git_some place ending port

theorem matched_colon :
    matched (gitAt ++ place.host.text ++ ':' :: place.rest ending) =
      some ⟨true, gitAt, place.host.text, place.account.text,
        ending.named place.name.text⟩ := by
  have absent : ':' ∉ place.host.text := place.host.not_mem rfl
  have found := matchBehind_rest place ending place.host.solid absent true gitAt
  exact congrArg (Option.or · (matchBehind true gitAt '/' _)) found

theorem matched_slash :
    matched (gitAt ++ place.at ending none) =
      some ⟨true, gitAt, place.host.text, place.account.text,
        ending.named place.name.text⟩ := by
  have absent : ':' ∉ place.at ending none := not_mem_at place ending rfl (by decide)
  have missed : matchBehind true gitAt ':' (place.at ending none) = none := by
    rw [matchBehind, read_closeAt_of_not_mem absent]
    rfl
  have noSlash : '/' ∉ place.host.text := place.host.not_mem rfl
  have found := matchBehind_rest place ending place.host.solid noSlash true gitAt
  have whole : place.at ending none = place.host.text ++ '/' :: place.rest ending := by
    simp [RepoPlace.at, portText, portNumber]
  rw [← whole] at found
  exact (congrArg (Option.or · (matchBehind true gitAt '/' _)) missed).trans found

theorem matched_text {form : Form} {chosen : Bool}
    (reads : form.Read chosen place.account.text) :
    matched (form.bare.text place ending) =
      some ⟨form.urlSsh, form.protocol, place.host.text, place.account.text,
        ending.named place.name.text⟩ := by
  cases form with
  | http secure port =>
      have isNone : port = none := reads
      subst isNone
      have whole : place.at ending none = place.host.text ++ '/' :: place.rest ending := by
        simp [RepoPlace.at, portText, portNumber]
      have noSlash : '/' ∉ place.host.text := place.host.not_mem rfl
      have found := matchBehind_rest place ending place.host.solid noSlash false
      rw [← whole] at found
      cases secure with
      | false => exact found http
      | true => exact found https
  | colon => exact matched_colon place ending
  | slash port =>
      cases port with
      | none => exact matched_slash place ending
      | some port => exact matched_colon place ending
  | ssh port =>
      cases port with
      | none => exact matched_slash place ending
      | some port => exact matched_colon place ending

end

/-! ## What rewriting yields -/

/-- The name that is yielded for a name in a url. -/
def shownName (name : Text) : Text :=
  withoutGit (withGit name)

section

variable (place : RepoPlace) (ending : Ending)

def Form.found (form : Form) : Match :=
  ⟨form.urlSsh, form.protocol, place.host.text, place.account.text,
    ending.named place.name.text⟩

/-- What rewriting makes of a form that is read. -/
def Form.rewritten (form : Form) (settings : Settings) (chosen : Bool) : Rewritten :=
  let protocol := if form.urlSsh && !chosen then https else form.protocol
  let written := written settings chosen (portNumber form.port) protocol
    (form.found place ending)
  ⟨written.1, place.host.text, place.account.text, shownName (ending.named place.name.text),
    written.2, portNumber form.port⟩

theorem named_ne_nil : ending.named place.name.text ≠ [] := by
  rw [Ending.named]
  split
  · simp [dotGit]
  · exact place.name.notEmpty

theorem rewrite_text {form : Form} {settings : Settings} {choice : Ssh}
    (chooses : settings.ssh = some choice)
    (reads : form.Read choice.chosen place.account.text) :
    codeGitRewriteUrl (form.text place ending) settings =
      .ok (form.rewritten place ending settings choice.chosen) := by
  have isPrepared := prepared_text place ending reads
  have isMatched := matched_text place ending reads
  have someName : strip (ending.named place.name.text) ≠ [] := by
    rw [(solid_named ending place.name).strip_eq]
    exact named_ne_nil place ending
  have someAccount : strip place.account.text ≠ [] := by
    rw [place.account.solid.strip_eq]
    exact place.account.notEmpty
  simp only [codeGitRewriteUrl, chooses, (form.solid place ending).strip_eq, isPrepared, isMatched,
    someName, someAccount, or_self, if_false, Form.rewritten, Form.found, shownName]

end

/-! ## Names that end in `.git` -/

theorem endsWithGit_append (name : Text) : endsWithGit (name ++ dotGit) = true := by
  rw [endsWithGit, List.isSuffixOf_iff_suffix]
  exact List.suffix_append name dotGit

theorem withoutGit_append (name : Text) : withoutGit (name ++ dotGit) = name := by
  rw [withoutGit, if_pos (endsWithGit_append name)]
  simp [dotGit]

/-- The name and its ending can be told apart. -/
def Ending.Told (ending : Ending) (name : Text) : Prop :=
  ending.git = true ∨ endsWithGit name = false

theorem withGit_named {ending : Ending} {name : Text} (told : ending.Told name) :
    withGit (ending.named name) = name ++ dotGit := by
  rcases told with git | plain
  · rw [Ending.named, if_pos git, withGit, if_pos (endsWithGit_append name)]
  · rw [Ending.named]
    split
    · rw [withGit, if_pos (endsWithGit_append name)]
    · rw [withGit, if_neg (by simp [plain])]

theorem shownName_named_iff {ending : Ending} {name : Text} (some : name ≠ []) :
    shownName (ending.named name) = name ↔ ending.Told name := by
  constructor
  · intro shown
    by_contra untold
    rw [Ending.Told, not_or] at untold
    have noGit : ending.named name = name := if_neg untold.1
    have ends : endsWithGit name = true := by simpa using untold.2
    rw [noGit, shownName, withGit, if_pos ends, withoutGit, if_pos ends] at shown
    have length := congrArg List.length shown
    rw [List.length_take] at length
    have positive := List.length_pos_iff.mpr some
    omega
  · intro told
    rw [shownName, withGit_named told, withoutGit_append]

/-! ## The parts of a url -/

/-- Rewriting yields the parts that the url was made of. -/
def Yields (place : RepoPlace) (form : Form) (result : Rewritten) : Prop :=
  result.host = place.host.text ∧ result.account = place.account.text ∧
    result.name = place.name.text ∧ result.port = portNumber form.port

section

variable {place : RepoPlace} {ending : Ending} {form : Form} {settings : Settings} {choice : Ssh}

theorem rewrite_port {url : Text} {result : Rewritten} (chooses : settings.ssh = some choice)
    (rewrites : codeGitRewriteUrl url settings = .ok result) :
    result.port = (prepared (strip url) choice.chosen).2 := by
  simp only [codeGitRewriteUrl, chooses] at rewrites
  split at rewrites
  case h_1 => cases rewrites
  case h_2 found isMatched =>
    split at rewrites
    case isTrue => cases rewrites
    case isFalse =>
      cases rewrites
      rfl

theorem prepared_off_port (url : Text) : (prepared url false).2 = none := by
  rw [prepared]
  rfl

theorem prepared_on_port {url : Text} (plain : sshProtocol.isPrefixOf url = false) :
    (prepared url true).2 = portOf url := by
  rw [prepared_on plain]
  cases portOf url with
  | none => rfl
  | some port => rfl

/-- Only a form that is read gives its port. -/
theorem read_of_port
    (same : (prepared (form.text place ending) choice.chosen).2 = portNumber form.port) :
    form.Read choice.chosen place.account.text := by
  cases isChosen : choice.chosen with
  | false =>
      rw [isChosen, prepared_off_port] at same
      cases form with
      | http secure port =>
          cases port with
          | none => rfl
          | some port => cases same
      | colon => exact fun on => by cases on
      | slash port =>
          cases port with
          | none => exact Or.inl rfl
          | some port => cases same
      | ssh port =>
          cases port with
          | none => exact Or.inl rfl
          | some port => cases same
  | true =>
      rw [isChosen] at same
      cases form with
      | http secure port =>
          have plain : sshProtocol.isPrefixOf ((Form.http secure port).text place ending) =
              false := by
            cases secure with
            | false => rfl
            | true => rfl
          rw [prepared_on_port plain, portOf_http] at same
          cases port with
          | none => rfl
          | some port => cases same
      | colon =>
          rw [prepared_on_port rfl, portOf_colon] at same
          exact fun _ => same
      | slash port => exact Or.inr rfl
      | ssh port => exact Or.inr rfl

theorem yields_iff (chooses : settings.ssh = some choice) :
    (∃ result, codeGitRewriteUrl (form.text place ending) settings = .ok result ∧
        Yields place form result) ↔
      form.Read choice.chosen place.account.text ∧ ending.Told place.name.text := by
  constructor
  · rintro ⟨result, rewrites, -, -, sameName, samePort⟩
    have port := rewrite_port chooses rewrites
    rw [(form.solid place ending).strip_eq, samePort] at port
    have reads := read_of_port port.symm
    have rewritten := rewrite_text place ending chooses reads
    rw [rewrites] at rewritten
    cases rewritten
    exact ⟨reads, (shownName_named_iff place.name.notEmpty).mp sameName⟩
  · rintro ⟨reads, told⟩
    exact ⟨_, rewrite_text place ending chooses reads, rfl, rfl,
      (shownName_named_iff place.name.notEmpty).mpr told, rfl⟩

end

/-! ## Rewriting again -/

/-- What is written behind the name. -/
def gitOnly : Ending :=
  ⟨true, false⟩

section

variable {place : RepoPlace} {ending : Ending} {form : Form} {settings : Settings} {choice : Ssh}

/-- Whether the url that is written without ssh is one of https. -/
def Form.secure : Form → Bool
  | http secure _ => secure
  | _ => true

theorem clonedBy_eq (form : Form) :
    (if form.urlSsh && !false then https else form.protocol) =
      if form.secure then https else GitUrls.http := by
  cases form with
  | http secure port => rfl
  | colon => rfl
  | slash port => rfl
  | ssh port => rfl

theorem location_again (port : Option Nat) :
    location (place.host.text ++ portText (portNumber port)) place.account.text
        (place.name.text ++ dotGit) =
      place.at gitOnly port := by
  simp [location, RepoPlace.at, RepoPlace.rest, gitOnly, Ending.named, Ending.slashText]

/-- With ssh. -/
theorem rewritten_on (told : ending.Told place.name.text) :
    form.rewritten place ending settings true =
      ⟨"ssh".toList, place.host.text, place.account.text, place.name.text,
        (Form.ssh form.port).text place gitOnly, portNumber form.port⟩ := by
  have shown := (shownName_named_iff place.name.notEmpty).mpr told
  rw [Form.rewritten, written, if_pos rfl, shown, Form.found, withGit_named told,
    location_again]
  rfl

/-- Without ssh and without a login. -/
theorem rewritten_off (told : ending.Told place.name.text)
    (anonymous : loginOf settings.login = none)
    (noPort : form.port = none) :
    form.rewritten place ending settings false =
      ⟨if form.secure then https else GitUrls.http, place.host.text, place.account.text,
        place.name.text, (Form.http form.secure none).text place gitOnly, none⟩ := by
  have shown := (shownName_named_iff place.name.notEmpty).mpr told
  have bare := @location_again place none
  rw [portNumber, Option.map_none, portText, List.append_nil] at bare
  rw [Form.rewritten, written, anonymous, shown, Form.found, withGit_named told, clonedBy_eq,
    noPort]
  simp only [Bool.false_eq_true, if_false, bare, Form.text]
  rfl

theorem Form.Read.port_none (reads : form.Read false place.account.text) : form.port = none := by
  cases form with
  | http secure port => exact reads
  | colon => rfl
  | slash port => simpa [Form.Read, Form.port] using reads
  | ssh port => simpa [Form.Read, Form.port] using reads

theorem told_gitOnly (name : Text) : gitOnly.Told name :=
  Or.inl rfl

/-- Where no login is written, the url that is written is rewritten to itself. -/
theorem rewrite_again (chooses : settings.ssh = some choice)
    (reads : form.Read choice.chosen place.account.text)
    (told : ending.Told place.name.text)
    (anonymous : choice.chosen = true ∨ loginOf settings.login = none) :
    codeGitRewriteUrl (form.rewritten place ending settings choice.chosen).url settings =
      .ok (form.rewritten place ending settings choice.chosen) := by
  cases isChosen : choice.chosen with
  | true =>
      have again : (Form.ssh form.port).Read choice.chosen place.account.text :=
        Or.inr isChosen
      rw [rewritten_on told, rewrite_text place gitOnly chooses again, isChosen,
        rewritten_on (told_gitOnly _)]
      rfl
  | false =>
      have noLogin : loginOf settings.login = none := by
        rcases anonymous with on | noLogin
        · rw [isChosen] at on
          cases on
        · exact noLogin
      rw [isChosen] at reads
      have again : (Form.http form.secure none).Read choice.chosen place.account.text := rfl
      rw [rewritten_off told noLogin reads.port_none, rewrite_text place gitOnly chooses again,
        isChosen, rewritten_off (told_gitOnly _) noLogin rfl]
      rfl

end

end JumpscaleX.GitUrls
