import JumpscaleX.Scalars

/-!
# Texts read back as written

What it means that a scalar value reads back as written, the condition for it, and
the types that hold texts.
-/

namespace JumpscaleX.Scalars

open Fallible PyText
open Letters (toNat_toLower)

variable (machine : Machine)

/-! ## The claim and the condition -/

/-- A value that a property of the type takes at a moment, and what reading it returns. -/
structure Assigned (moment : Moment) (kind : Kind) (default : Default) where
  value : Scalar
  cleaned : Scalar
  accepted : clean machine moment kind default value = .ok cleaned

/-- The value reads back as written: cleaning again changes nothing, the data of the value
are a value of the field that cleans to the same, and so do the data that are saved later
for the property that holds it. -/
structure AsClaimed {moment : Moment} {kind : Kind} {default : Default}
    (assigned : Assigned machine moment kind default) : Prop where
  cleanedAgain : ∀ later : Moment,
    clean machine later kind default assigned.cleaned = .ok assigned.cleaned
  dataCleaned : ∀ data, toData machine moment kind default assigned.value = .ok data →
    ∀ later : Moment, clean machine later kind default data = .ok assigned.cleaned
  inRange : ∀ data, toData machine moment kind default assigned.value = .ok data →
    (capnpField kind).Holds data
  readBack : ∀ saving loading : Moment,
    ∃ data, toData machine saving kind default assigned.cleaned = .ok data ∧
      (capnpField kind).Holds data ∧
      clean machine loading kind default data = .ok assigned.cleaned

/-- The text is neither the word none nor within quotes. -/
structure Plain (text : String) : Prop where
  notNone : lower text ≠ "none"
  notQuoted : ¬ Wrapped '\'' text
  notDoubleQuoted : ¬ Wrapped '"' text

def StringKept (default : Default) : Scalar → Prop
  | .none => lower default ≠ "none" ∧ Plain (unquoted default)
  | .str text => lower text ≠ "none" ∧ Plain (unquoted text)
  | value => ∀ text, str machine value = .ok text → Plain (unquoted text)

def IntegerKept (field : CapnpField) (default : Default) : Scalar → Prop
  | .none => default = "" ∨ ∀ number, integerText default = .ok number → field.InRange number
  | .int number => field.InRange number
  | .float value => ∀ number, value.int = .ok number → field.InRange number
  | .str text => ∀ number, integerText text = .ok number → field.InRange number
  | _ => True

def DatetimeKept (moment : Moment) (default : Default) : Scalar → Prop
  | .none => default = ""
  | .bool _ => True
  | value => ∀ epoch, datetimeNumber machine moment value = .ok epoch →
      CapnpField.UInt32.InRange epoch

/-- The day of the time starts at a moment that the field holds and that belongs to it. -/
def DayKept (epoch : Int) : Prop :=
  ∀ start, dayOf machine epoch = .ok start →
    CapnpField.UInt32.InRange start ∧ (start = 0 ∨ dayOf machine start = .ok start)

def DateKept (moment : Moment) (default : Default) : Scalar → Prop
  | .none => default = ""
  | value => NoDate (dateText value) ∨
      ∀ epoch, datetimeNumber machine moment (dateText value) = .ok epoch → DayKept machine epoch

def DurationKept : Scalar → Prop
  | .int seconds => CapnpField.UInt32.InRange seconds
  | .str text => ∀ seconds, Duration.cleanText text = .ok seconds →
      CapnpField.UInt32.InRange seconds
  | _ => True

/-- When a value reads back as written: most types need nothing or a default in the form
that they clean to, the texts must not be quoted twice, and the numbers fit their field. -/
def Kept (moment : Moment) (kind : Kind) (default : Default) (value : Scalar) : Prop :=
  match kind with
  | .string => StringKept machine default value
  | .multiline => value.truthy = true ∨ default = "" ∨ hasNewline default = true
  | .tel => value = .none ∨ value = .str "None" →
      default ≠ "" ∧ (default = "None" ∨ Pattern.fullmatch telPattern default = true)
  | .url => value = .none ∨ value = .str "None" ∨ value = .str "" →
      default = "" ∨ default = "None" ∨ Pattern.fullmatch urlPattern default = true
  | .iprange => value = .none ∨ ∃ text, value = .str text
  | .ipport => value.truthy = true ∨ default = ""
  | .int => IntegerKept .Int32 default value
  | .int64 => IntegerKept .Int64 default value
  | .datetime => DatetimeKept machine moment default value
  | .date => DateKept machine moment default value
  | .duration => DurationKept value
  | .email | .guid | .float | .percent | .bool | .bytes => True

/-- What was cleaned stays as it is, and is a value of the field. -/
structure Lasts (kind : Kind) (default : Default) (cleaned : Scalar) : Prop where
  again : ∀ later : Moment, clean machine later kind default cleaned = .ok cleaned
  inRange : (capnpField kind).Holds cleaned

variable {machine}

section

variable {moment : Moment} {kind : Kind} {default : Default}

theorem asClaimed_iff_lasts (assigned : Assigned machine moment kind default) :
    AsClaimed machine assigned ↔ Lasts machine kind default assigned.cleaned := by
  constructor
  · intro claimed
    exact ⟨claimed.cleanedAgain, claimed.inRange _ assigned.accepted⟩
  · intro lasts
    have same : ∀ data, toData machine moment kind default assigned.value = .ok data →
        data = assigned.cleaned := by
      intro data isData
      have equal : Except.ok data = .ok assigned.cleaned := isData.symm.trans assigned.accepted
      exact Except.ok.inj equal
    constructor
    case cleanedAgain => exact lasts.again
    case dataCleaned =>
      intro data isData
      rw [same data isData]
      exact lasts.again
    case inRange =>
      intro data isData
      rw [same data isData]
      exact lasts.inRange
    case readBack =>
      intro saving loading
      exact ⟨assigned.cleaned, lasts.again saving, lasts.inRange, lasts.again loading⟩

end

/-! ## Texts -/

theorem length_strip_le (drop : Char → Bool) (chars : List Char) :
    (StringType.strip drop chars).length ≤ chars.length := by
  have front := (List.dropWhile_sublist drop (l := chars)).length_le
  have back := (List.dropWhile_sublist drop (l := (chars.dropWhile drop).reverse)).length_le
  simp only [StringType.strip, List.length_reverse] at *
  omega

theorem length_strip_lt {drop : Char → Bool} {char : Char} {chars : List Char}
    (first : chars.head? = some char) (dropped : drop char = true) :
    (StringType.strip drop chars).length < chars.length := by
  cases chars with
  | nil => cases first
  | cons head chars =>
      cases first
      have short := length_strip_le drop chars
      have same : StringType.strip drop (char :: chars) = StringType.strip drop chars := by
        simp [StringType.strip, List.dropWhile_cons, dropped]
      rw [same, List.length_cons]
      exact Nat.lt_succ_of_le short

/-- Taking quotes off makes a text shorter. -/
theorem stripChar_ne_of_wrapped {quote : Char} {text : String} (wrapped : Wrapped quote text) :
    stripChar quote (strip text) ≠ text := by
  intro same
  obtain ⟨-, first, -⟩ := wrapped
  have shorter := @length_strip_lt (· = quote) _ _ first (by simp)
  have bare := length_strip_le HostFile.isspace text.toList
  have equal := congrArg (fun value : String => value.toList.length) same
  simp only [stripChar, strip, String.toList_ofList] at equal shorter
  omega

theorem unquoted_eq_self_iff (text : String) :
    unquoted text = text ↔ ¬ Wrapped '\'' text ∧ ¬ Wrapped '"' text := by
  unfold unquoted
  split
  case isTrue single => simp [single, stripChar_ne_of_wrapped single]
  case isFalse single =>
    split
    case isTrue double => simp [double, stripChar_ne_of_wrapped double]
    case isFalse double => simp [single, double]

/-- A plain text is what it cleans to. -/
theorem stringText_eq_self_iff (text : String) : stringText text = .str text ↔ Plain text := by
  unfold stringText
  split
  case isTrue word =>
    constructor
    · intro same
      cases same
    · intro plain
      exact absurd word plain.notNone
  case isFalse word =>
    rw [Scalar.str.injEq, unquoted_eq_self_iff]
    exact ⟨fun unwrapped => ⟨word, unwrapped.1, unwrapped.2⟩,
      fun plain => ⟨plain.notQuoted, plain.notDoubleQuoted⟩⟩

theorem stringText_of_ne {text : String} (other : lower text ≠ "none") :
    stringText text = .str (unquoted text) := by
  simp [stringText, other]

/-- A text without quotes is not within quotes. -/
theorem not_wrapped_of_not_mem {quote : Char} {text : String} (absent : quote ∉ text.toList) :
    ¬ Wrapped quote text := by
  intro wrapped
  apply absent
  have inside : quote ∈ (strip text).toList := List.mem_of_head? wrapped.2.1
  rw [strip, String.toList_ofList, StringType.strip, List.mem_reverse] at inside
  have reversed := (List.dropWhile_sublist _).subset inside
  exact (List.dropWhile_sublist _).subset (List.mem_reverse.mp reversed)

theorem lower_lower_text (text : String) : lower (lower text) = lower text := by
  simp [lower, Letters.toLower_toLower, Function.comp_def]

section

variable {moment : Moment} {default : Default} {value cleaned : Scalar}

theorem string_lasts_iff
    (accepted : clean machine moment .string default value = .ok cleaned) :
    Lasts machine .string default cleaned ↔ StringKept machine default value := by
  -- A text that was cleaned lasts when it is plain.
  have lasting (text : String) :
      Lasts machine .string default (.str text) ↔ Plain text := by
    constructor
    · intro lasts
      exact (stringText_eq_self_iff text).mp (Except.ok.inj (lasts.again moment))
    · intro plain
      exact ⟨fun _ => congrArg Except.ok ((stringText_eq_self_iff text).mpr plain), trivial⟩
  have given (text : String) (isCleaned : stringText text = cleaned) :
      Lasts machine .string default cleaned ↔ lower text ≠ "none" ∧ Plain (unquoted text) := by
    by_cases word : lower text = "none"
    · have isNone : cleaned = .none := by rw [← isCleaned, stringText, if_pos word]
      rw [isNone]
      constructor
      · intro lasts
        exact lasts.inRange.elim
      · intro kept
        exact absurd word kept.1
    · rw [← isCleaned, stringText_of_ne word, lasting]
      exact (and_iff_right word).symm
  have converted (isText : (str machine value).map (fun text => Scalar.str (unquoted text)) =
      .ok cleaned) :
      Lasts machine .string default cleaned ↔
        ∀ text, str machine value = .ok text → Plain (unquoted text) := by
    cases isStr : str machine value with
    | error problem =>
        rw [isStr] at isText
        cases isText
    | ok text =>
        rw [isStr] at isText
        cases isText
        rw [lasting]
        simp
  cases value with
  | none => exact given default (Except.ok.inj accepted)
  | str text => exact given text (Except.ok.inj accepted)
  | bool value => exact converted accepted
  | int value => exact converted accepted
  | float value => exact converted accepted
  | bytes value => exact converted accepted
  | other object => exact converted accepted

theorem multiline_lasts_iff
    (accepted : clean machine moment .multiline default value = .ok cleaned) :
    Lasts machine .multiline default cleaned ↔
      value.truthy = true ∨ default = "" ∨ hasNewline default = true := by
  have cleanStr (text : String) : multilineClean default (.str text) =
      if text = "" then .ok (.str default)
      else if hasNewline text then .ok (.str text)
      else .error (.valueError ("Invalid value for multiline " ++ text)) := by
    by_cases empty : text = "" <;> simp [multilineClean, Scalar.truthy, empty]
  have acceptedHere : multilineClean default value = .ok cleaned := accepted
  by_cases full : value.truthy = true
  · have isText : ∃ text, value = .str text ∧ hasNewline text = true ∧ cleaned = value := by
      unfold multilineClean at acceptedHere
      rw [if_neg (not_not.mpr full)] at acceptedHere
      split at acceptedHere
      · rename_i text
        split at acceptedHere
        · rename_i newline
          cases acceptedHere
          exact ⟨text, rfl, newline, rfl⟩
        · cases acceptedHere
      · cases acceptedHere
    obtain ⟨text, rfl, newline, rfl⟩ := isText
    refine iff_of_true ⟨fun _ => ?_, trivial⟩ (Or.inl full)
    have filled : text ≠ "" := by simpa [Scalar.truthy] using full
    show multilineClean default (.str text) = .ok (.str text)
    rw [cleanStr, if_neg filled, if_pos newline]
  · unfold multilineClean at acceptedHere
    rw [if_pos full] at acceptedHere
    cases acceptedHere
    rw [or_iff_right full]
    constructor
    · intro lasts
      by_cases empty : default = ""
      · exact Or.inl empty
      · have again : multilineClean default (.str default) = .ok (.str default) :=
          lasts.again moment
        rw [cleanStr, if_neg empty] at again
        split at again
        · rename_i newline
          exact Or.inr newline
        · cases again
    · intro kept
      refine ⟨fun _ => ?_, trivial⟩
      show multilineClean default (.str default) = .ok (.str default)
      rw [cleanStr]
      rcases kept with empty | newline
      · rw [if_pos empty]
      · rw [if_pos newline]
        split
        · rfl
        · rfl

/-! ## Patterned texts -/

theorem isAlnum_iff (char : Char) : isAlnum char = true ↔
    (97 ≤ char.toNat ∧ char.toNat ≤ 122) ∨ (65 ≤ char.toNat ∧ char.toNat ≤ 90) ∨
      (48 ≤ char.toNat ∧ char.toNat ≤ 57) := by
  simp only [isAlnum, isLetter, Char.isDigit, Bool.or_eq_true, Bool.and_eq_true,
    decide_eq_true_eq, or_assoc]
  exact Iff.rfl

theorem isLetter_iff (char : Char) : isLetter char = true ↔
    (97 ≤ char.toNat ∧ char.toNat ≤ 122) ∨ (65 ≤ char.toNat ∧ char.toNat ≤ 90) := by
  simp only [isLetter, Bool.or_eq_true, Bool.and_eq_true, decide_eq_true_eq]
  exact Iff.rfl

theorem isAlnum_toLower (char : Char) : isAlnum char.toLower = isAlnum char := by
  rw [Bool.eq_iff_iff, isAlnum_iff, isAlnum_iff, toNat_toLower]
  split <;> omega

theorem isLetter_toLower (char : Char) : isLetter char.toLower = isLetter char := by
  rw [Bool.eq_iff_iff, isLetter_iff, isLetter_iff, toNat_toLower]
  split <;> omega

/-- Small letters and signs are told apart from the same characters. -/
theorem contains_toLower {marks : List Char}
    (signs : marks.all (fun mark => decide (mark.toNat < 97) && mark.toLower == mark) = true)
    (char : Char) : marks.contains char.toLower = marks.contains char := by
  have sign : ∀ mark ∈ marks, mark.toNat < 97 ∧ mark.toLower = mark := by
    simpa [List.all_eq_true] using signs
  rw [Bool.eq_iff_iff, List.contains_iff_mem, List.contains_iff_mem]
  constructor
  · intro member
    obtain ⟨below, same⟩ := sign _ member
    rw [(Letters.toLower_eq_iff below same).mp rfl]
    exact member
  · intro member
    rw [(sign _ member).2]
    exact member

theorem emailPattern_classes {property : (Char → Bool) → Prop}
    (name : property (fun char => isAlnum char || "._%+-".toList.contains char))
    (sign : property (fun other => other = '@'))
    (domain : property (fun char => isAlnum char || ".-".toList.contains char))
    (dot : property (fun other => other = '.'))
    (letter : property isLetter) : Pattern.Classes property emailPattern := by
  have last : Pattern.Classes property (.one isLetter) := letter
  have front : Pattern.Classes property
      (.one (fun char => isAlnum char || "._%+-".toList.contains char)) := name
  have middle : Pattern.Classes property
      (.one (fun char => isAlnum char || ".-".toList.contains char)) := domain
  exact ⟨front.plus, sign, middle.plus, dot, last.atLeast 2⟩

theorem emailPattern_lower (text : String) :
    Pattern.fullmatch emailPattern (lower text) = Pattern.fullmatch emailPattern text := by
  have blind := @Pattern.fullmatch_map Char.toLower emailPattern
    (emailPattern_classes
      (by
        intro char
        beta_reduce
        rw [isAlnum_toLower, contains_toLower (by decide)])
      (fun char => by simp [@Letters.toLower_eq_iff char '@' (by decide) (by decide)])
      (by
        intro char
        beta_reduce
        rw [isAlnum_toLower, contains_toLower (by decide)])
      (fun char => by simp [@Letters.toLower_eq_iff char '.' (by decide) (by decide)])
      isLetter_toLower) text.toList
  simpa [lower] using blind

/-- An address that matches is plain. -/
theorem plain_of_email {text : String}
    (matched : Pattern.fullmatch emailPattern text = true) : Plain text := by
  have without (quote : Char) (isQuote : quote = '\'' ∨ quote = '"') : quote ∉ text.toList := by
    have allowed := @Pattern.allowed_of_fullmatch (· ≠ quote) emailPattern text
      (emailPattern_classes
        (by rintro _ accepted rfl; rcases isQuote with rfl | rfl <;> cases accepted)
        (by rintro _ accepted rfl; rcases isQuote with rfl | rfl <;> cases accepted)
        (by rintro _ accepted rfl; rcases isQuote with rfl | rfl <;> cases accepted)
        (by rintro _ accepted rfl; rcases isQuote with rfl | rfl <;> cases accepted)
        (by rintro _ accepted rfl; rcases isQuote with rfl | rfl <;> cases accepted)) matched
    intro member
    exact allowed quote member rfl
  constructor
  case notNone =>
    intro word
    rw [← emailPattern_lower, word] at matched
    cases matched
  case notQuoted => exact not_wrapped_of_not_mem (without '\'' (Or.inl rfl))
  case notDoubleQuoted => exact not_wrapped_of_not_mem (without '"' (Or.inr rfl))

theorem space_of_strip {drop : Char → Bool} {chars : List Char}
    (nothing : StringType.strip drop chars = []) : ∀ char ∈ chars, drop char = true := by
  have inner : (chars.dropWhile drop).reverse.dropWhile drop = [] := by
    simpa [StringType.strip] using nothing
  have dropped : ∀ char ∈ chars.dropWhile drop, drop char = true := by
    intro char member
    exact List.dropWhile_eq_nil_iff.mp inner char (List.mem_reverse.mpr member)
  intro char member
  rw [← List.takeWhile_append_dropWhile (p := drop) (l := chars)] at member
  rcases List.mem_append.mp member with front | back
  · exact List.mem_takeWhile_imp front
  · exact dropped char back

/-- A blank text is plain and has no capital letters. -/
theorem blank_text {text : String} (blank : strip text = "") : Plain text ∧ lower text = text := by
  have nothing : StringType.strip HostFile.isspace text.toList = [] := by
    simpa [strip] using congrArg String.toList blank
  have same : lower text = text := by
    have each : ∀ char ∈ text.toList, char.toLower = id char := by
      intro char member
      have space := space_of_strip nothing char member
      apply Char.ext
      apply UInt32.toNat_inj.mp
      show char.toLower.toNat = char.toNat
      rw [toNat_toLower, if_neg]
      simp only [HostFile.isspace, Bool.or_eq_true, Bool.and_eq_true, decide_eq_true_eq,
        beq_iff_eq] at space
      omega
    simp [lower, List.map_congr_left each]
  refine ⟨?plain, same⟩
  constructor
  case notNone =>
    intro word
    rw [same] at word
    rw [word] at blank
    exact absurd blank (by decide)
  case notQuoted =>
    intro wrapped
    simp [Wrapped, blank] at wrapped
  case notDoubleQuoted =>
    intro wrapped
    simp [Wrapped, blank] at wrapped

theorem emailText_ok {given : Scalar} (isGiven : emailText machine given = .ok cleaned) :
    ∃ text, cleaned = .str (lower text) ∧ emailCheck text = true := by
  obtain ⟨part, -, isPart⟩ := bind_eq_ok_iff.mp isGiven
  split at isPart
  · rename_i text
    split at isPart
    · rename_i checked
      cases isPart
      exact ⟨text, rfl, checked⟩
    · cases isPart
  · cases isPart

theorem emailCheck_lower {text : String} (checked : emailCheck text = true) :
    emailCheck (lower text) = true ∧ Plain (lower text) := by
  simp only [emailCheck, Bool.or_eq_true, decide_eq_true_eq] at checked ⊢
  rcases checked with blank | matched
  · obtain ⟨plain, same⟩ := blank_text blank
    rw [same]
    exact ⟨Or.inl blank, plain⟩
  · rw [← emailPattern_lower] at matched
    exact ⟨Or.inr matched, plain_of_email matched⟩

theorem email_lasts (accepted : clean machine moment .email default value = .ok cleaned) :
    Lasts machine .email default cleaned := by
  have acceptedHere : emailClean machine default value = .ok cleaned := accepted
  have isLower : ∃ text, cleaned = .str (lower text) ∧ emailCheck text = true := by
    unfold emailClean at acceptedHere
    split at acceptedHere
    · split at acceptedHere
      · cases acceptedHere
        exact ⟨"", rfl, rfl⟩
      · split at acceptedHere
        · cases acceptedHere
        · exact emailText_ok acceptedHere
    · exact emailText_ok acceptedHere
  obtain ⟨text, rfl, checked⟩ := isLower
  obtain ⟨checkedLower, plain⟩ := emailCheck_lower checked
  have notWord : lower text ≠ "None" := by
    intro word
    have twice := lower_lower_text text
    rw [word] at twice
    exact absurd twice (by decide)
  have again : emailText machine (.str (lower text)) = .ok (.str (lower text)) := by
    refine bind_eq_ok_iff.mpr
      ⟨_, congrArg Except.ok ((stringText_eq_self_iff _).mpr plain), ?_⟩
    simp [checkedLower, lower_lower_text, pure, Except.pure]
  refine ⟨fun _ => ?_, trivial⟩
  show emailClean machine default (.str (lower text)) = .ok (.str (lower text))
  simp [emailClean, notWord, again]

theorem telPattern_classes {property : (Char → Bool) → Prop}
    (sign : property (fun other => other = '+')) (digit : property Char.isDigit)
    (extension : property (fun other => other = 'x')) :
    Pattern.Classes property telPattern := by
  have isSign : Pattern.Classes property (Pattern.char '+') := sign
  have isDigit : Pattern.Classes property (.one Char.isDigit) := digit
  have last : Pattern.Classes property (.seq (Pattern.char 'x') (.plus (.one Char.isDigit))) :=
    ⟨extension, isDigit.plus⟩
  exact ⟨isSign.optional, isDigit.between 6 9, last.optional⟩

/-- The characters of a telephone number. -/
def isTelChar (char : Char) : Bool :=
  char = '+' || char.isDigit || char = 'x'

theorem telChars_of_fullmatch {text : String}
    (matched : Pattern.fullmatch telPattern text = true) :
    ∀ char ∈ text.toList, isTelChar char = true := by
  refine @Pattern.allowed_of_fullmatch (fun char => isTelChar char = true) _ _ ?_ matched
  apply telPattern_classes
  · intro char isSign
    simp [isTelChar, of_decide_eq_true isSign]
  · intro char isDigit
    simp [isTelChar, isDigit]
  · intro char isExtension
    simp [isTelChar, of_decide_eq_true isExtension]

/-- A telephone number is what it cleans to. -/
theorem plain_of_tel {text : String} (matched : Pattern.fullmatch telPattern text = true) :
    Plain text ∧ without [',', '-', '(', ')', ' '] text = text := by
  have chars := telChars_of_fullmatch matched
  have absent {char : Char} (other : isTelChar char = false) : char ∉ text.toList := by
    intro member
    rw [chars char member] at other
    cases other
  constructor
  · refine ⟨?_, not_wrapped_of_not_mem (absent rfl), not_wrapped_of_not_mem (absent rfl)⟩
    intro word
    have member : 'o' ∈ text.toList.map Char.toLower := by
      have letters : text.toList.map Char.toLower = "none".toList := by
        simpa [lower] using congrArg String.toList word
      rw [letters]
      decide
    obtain ⟨char, isChar, lowered⟩ := List.mem_map.mp member
    have code := toNat_toLower char
    rw [lowered] at code
    have letter : char.toNat = 79 ∨ char.toNat = 111 := by
      have isO : 'o'.toNat = 111 := rfl
      rw [isO] at code
      split at code <;> omega
    have tel := chars char isChar
    simp only [isTelChar, Bool.or_eq_true, decide_eq_true_eq] at tel
    rcases tel with (sign | digit) | extension
    · rw [sign] at letter
      exact absurd letter (by decide)
    · have bounds : 48 ≤ char.toNat ∧ char.toNat ≤ 57 := by
        simp only [Char.isDigit, Bool.and_eq_true, decide_eq_true_eq] at digit
        exact digit
      omega
    · rw [extension] at letter
      exact absurd letter (by decide)
  · have others : [',', '-', '(', ')', ' '].all (fun mark => !(isTelChar mark)) = true := by
      decide
    have kept : text.toList.filter (fun char => !([',', '-', '(', ')', ' '].contains char)) =
        text.toList := by
      apply List.filter_eq_self.mpr
      intro char member
      rw [Bool.not_eq_true', ← Bool.not_eq_true, List.contains_iff_mem]
      intro isMark
      have other := List.all_eq_true.mp others char isMark
      exact absent (by simpa using other) member
    rw [without, kept, String.ofList_toList]

/-- A number that was checked is what it cleans to. -/
theorem tel_again {text : String} (checked : telCheck text = true) :
    Lasts machine .tel default (.str text) := by
  refine ⟨fun _ => ?_, trivial⟩
  show telClean machine default (.str text) = .ok (.str text)
  have plain : Plain text ∧ without [',', '-', '(', ')', ' '] text = text := by
    simp only [telCheck, Bool.or_eq_true, decide_eq_true_eq] at checked
    rcases checked with empty | matched
    · rw [empty]
      exact ⟨(blank_text rfl).1, rfl⟩
    · exact plain_of_tel matched
  have notWord : text ≠ "None" := by
    intro word
    exact plain.1.notNone (by rw [word]; decide)
  have cleanedText : stringClean machine "" (.str text) = .ok (.str text) :=
    congrArg Except.ok ((stringText_eq_self_iff text).mpr plain.1)
  simp [telClean, notWord, cleanedText, plain.2, checked, bind, Except.bind, pure, Except.pure]

theorem telText_ok {given : Scalar} (isGiven :
    (do
      match ← stringClean machine "" given with
      | .str text =>
          let v := without [',', '-', '(', ')', ' '] text
          if telCheck v then return .str v
          else throw (.valueError ("Invalid mobile number :" ++ v))
      | _ => throw (.attributeError "replace")) = Except.ok cleaned) :
    ∃ text, cleaned = .str text ∧ telCheck text = true := by
  obtain ⟨part, -, isPart⟩ := bind_eq_ok_iff.mp isGiven
  split at isPart
  · dsimp only at isPart
    split at isPart
    · rename_i checked
      cases isPart
      exact ⟨_, rfl, checked⟩
    · cases isPart
  · cases isPart

theorem tel_lasts_iff (accepted : clean machine moment .tel default value = .ok cleaned) :
    Lasts machine .tel default cleaned ↔
      (value = .none ∨ value = .str "None" →
        default ≠ "" ∧ (default = "None" ∨ Pattern.fullmatch telPattern default = true)) := by
  have acceptedHere : telClean machine default value = .ok cleaned := accepted
  by_cases empty : value = .none ∨ value = .str "None"
  · unfold telClean at acceptedHere
    rw [if_pos empty] at acceptedHere
    by_cases unset : default = ""
    · rw [if_pos unset] at acceptedHere
      cases acceptedHere
      constructor
      · intro lasts
        exact lasts.inRange.elim
      · intro kept
        exact absurd unset (kept empty).1
    · rw [if_neg unset] at acceptedHere
      cases acceptedHere
      constructor
      · intro lasts _
        refine ⟨unset, ?_⟩
        by_cases word : default = "None"
        · exact Or.inl word
        · have again : telClean machine default (.str default) = .ok (.str default) :=
            lasts.again moment
          unfold telClean at again
          rw [if_neg (by simp [word])] at again
          obtain ⟨text, same, checked⟩ := telText_ok again
          cases same
          simp only [telCheck, unset, decide_false, Bool.false_or] at checked
          exact Or.inr checked
      · intro kept
        rcases (kept empty).2 with word | matched
        · refine ⟨fun _ => ?_, trivial⟩
          show telClean machine default (.str default) = .ok (.str default)
          rw [word]
          rfl
        · exact tel_again (by simp [telCheck, matched])
  · refine iff_of_true ?_ (fun unset => absurd unset empty)
    unfold telClean at acceptedHere
    rw [if_neg empty] at acceptedHere
    obtain ⟨text, same, checked⟩ := telText_ok acceptedHere
    rw [same]
    exact tel_again checked

theorem url_lasts_iff (accepted : clean machine moment .url default value = .ok cleaned) :
    Lasts machine .url default cleaned ↔
      (value = .none ∨ value = .str "None" ∨ value = .str "" →
        default = "" ∨ default = "None" ∨ Pattern.fullmatch urlPattern default = true) := by
  have cleanStr (text : String) : urlClean default (.str text) =
      if text = "None" ∨ text = "" then .ok (.str default)
      else if Pattern.fullmatch urlPattern text then .ok (.str text)
      else .error (.valueError ("invalid url :" ++ text)) := by
    simp [urlClean]
  have acceptedHere : urlClean default value = .ok cleaned := accepted
  by_cases empty : value = .none ∨ value = .str "None" ∨ value = .str ""
  · unfold urlClean at acceptedHere
    rw [if_pos empty] at acceptedHere
    cases acceptedHere
    constructor
    · intro lasts _
      have again : urlClean default (.str default) = .ok (.str default) := lasts.again moment
      by_cases unset : default = "None" ∨ default = ""
      · exact unset.elim (fun word => Or.inr (Or.inl word)) Or.inl
      · rw [cleanStr, if_neg unset] at again
        split at again
        · rename_i matched
          exact Or.inr (Or.inr matched)
        · cases again
    · intro kept
      refine ⟨fun _ => ?_, trivial⟩
      show urlClean default (.str default) = .ok (.str default)
      rw [cleanStr]
      rcases kept empty with unset | word | matched
      · rw [if_pos (Or.inr unset)]
      · rw [if_pos (Or.inl word)]
      · rw [if_pos matched]
        split
        · rfl
        · rfl
  · refine iff_of_true ?_ (fun unset => absurd unset empty)
    have again : ∃ text, cleaned = .str text ∧ value = cleaned := by
      unfold urlClean at acceptedHere
      rw [if_neg empty] at acceptedHere
      split at acceptedHere
      · rename_i text
        split at acceptedHere
        · cases acceptedHere
          exact ⟨text, rfl, rfl⟩
        · cases acceptedHere
      · cases acceptedHere
    obtain ⟨text, rfl, rfl⟩ := again
    exact ⟨fun _ => acceptedHere, trivial⟩

theorem guidText_ok {given : Scalar} (isGiven : guidText given = .ok cleaned) :
    ∃ text, cleaned = .str text ∧ isGuid text = true := by
  unfold guidText at isGiven
  split at isGiven
  · rename_i text
    split at isGiven
    · rename_i guid
      cases isGiven
      exact ⟨text, rfl, guid⟩
    · cases isGiven
  · cases isGiven
  · cases isGiven

theorem guid_lasts (accepted : clean machine moment .guid default value = .ok cleaned) :
    Lasts machine .guid default cleaned := by
  have acceptedHere : guidClean moment default value = .ok cleaned := accepted
  have isText : ∃ text, cleaned = .str text ∧ isGuid text = true := by
    unfold guidClean at acceptedHere
    split at acceptedHere
    · split at acceptedHere
      · cases acceptedHere
        exact ⟨_, rfl, moment.isGuid_generateGUID⟩
      · exact guidText_ok acceptedHere
    · exact guidText_ok acceptedHere
  obtain ⟨text, rfl, guid⟩ := isText
  have filled : text ≠ "" := by
    intro empty
    rw [empty] at guid
    cases guid
  refine ⟨fun later => ?_, trivial⟩
  show guidClean later default (.str text) = .ok (.str text)
  simp [guidClean, guidText, filled, guid]

theorem iprange_lasts_iff
    (accepted : clean machine moment .iprange default value = .ok cleaned) :
    Lasts machine .iprange default cleaned ↔ value = .none ∨ ∃ text, value = .str text := by
  have acceptedHere : iprangeClean machine default value = .ok cleaned := accepted
  have kept {given : Scalar} (isGiven : iprangeText machine given = .ok cleaned) :
      cleaned = given := by
    unfold iprangeText at isGiven
    split at isGiven
    · cases isGiven
      rfl
    · cases isGiven
  have again {text : String} (isWord : text ≠ "None") (filled : text ≠ "")
      (taken : iprangeText machine (.str text) = .ok (.str text)) :
      Lasts machine .iprange default (.str text) := by
    refine ⟨fun later => ?_, trivial⟩
    show iprangeClean machine default (.str text) = .ok (.str text)
    simp [iprangeClean, isWord, filled, taken]
  by_cases empty : value = .none ∨ value = .str "None" ∨ value = .str ""
  · have isText : value = .none ∨ ∃ text, value = .str text := by
      rcases empty with isNone | word | blank
      · exact Or.inl isNone
      · exact Or.inr ⟨_, word⟩
      · exact Or.inr ⟨_, blank⟩
    refine iff_of_true ?_ isText
    unfold iprangeClean at acceptedHere
    rw [if_pos empty] at acceptedHere
    split at acceptedHere
    case isTrue => cases acceptedHere
    case isFalse notWord =>
      have same := kept acceptedHere
      rw [same] at acceptedHere ⊢
      apply again _ _ acceptedHere
      · split
        · decide
        · exact notWord
      · split
        · decide
        · assumption
  · unfold iprangeClean at acceptedHere
    rw [if_neg empty] at acceptedHere
    have same := kept acceptedHere
    rw [same] at acceptedHere ⊢
    constructor
    · intro lasts
      cases value with
      | str text => exact Or.inr ⟨text, rfl⟩
      | none => exact Or.inl rfl
      | bool value => exact lasts.inRange.elim
      | int value => exact lasts.inRange.elim
      | float value => exact lasts.inRange.elim
      | bytes value => exact lasts.inRange.elim
      | other object => exact lasts.inRange.elim
    · intro isText
      rcases isText with isNone | ⟨text, rfl⟩
      · exact absurd (Or.inl isNone) empty
      · simp only [Scalar.str.injEq, reduceCtorEq, false_or, not_or] at empty
        exact again empty.1 empty.2 acceptedHere

end

end JumpscaleX.Scalars
