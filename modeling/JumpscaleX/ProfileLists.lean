import JumpscaleX.Dedent
import JumpscaleX.Profile
import JumpscaleX.PyNumbers

/-!
# Lists that keep their entries once

The parts of a variable against the entries that were added to it and not deleted since, along
every sequence of operations and reloads.
-/

namespace JumpscaleX.Profiles

open Fallible Stateful Runs

/-! ## What a profile should hold -/

/-- The profile, the entries that each list should have, the values that the other variables
should have, and whether the profile was loaded. -/
structure World where
  profile : Profile
  lists : Text → Option (List Text)
  values : Text → Option Text
  isLoaded : Bool

/-- Which variables are lists.  The path is one. -/
structure Kinds where
  listed : Text → Bool
  path : listed "PATH".toList = true

/-- An operation.  Parts belong to the variables that are lists, and other values to the
others. -/
inductive Action (kinds : Kinds) where
  | pathAdd (path : Text) (atEnd checkExists isSaved : Bool)
  | pathDelete (path : Text)
  | envSetPart (key value : Text) (atEnd quote isSaved : Bool) (separator : Separator)
      (isListed : kinds.listed key = true)
  | envDeletePart (key value : Text) (isListed : kinds.listed key = true)
  | envSet (key value : Text) (quote isSaved : Bool) (notListed : kinds.listed key = false)
  | reload

/-- An entry put at one of the ends of a list, and nowhere else. -/
def enter (entry : Text) (atEnd : Bool) (entries : List Text) : List Text :=
  if atEnd then entries.erase entry ++ [entry] else entry :: entries.erase entry

/-- The entries of a value in a file. -/
def entriesOf (value : Text) : List Text :=
  if value = [] then []
  else if ':' ∈ value then PyText.splitChars ':' value
  else PyText.splitChars ';' value

def added (world : World) (key entry : Text) (atEnd : Bool) : Text → Option (List Text) :=
  Function.update world.lists key (some (enter entry atEnd ((world.lists key).getD [])))

def removed (world : World) (key entry : Text) : Text → Option (List Text) :=
  Function.update world.lists key ((world.lists key).map (·.erase entry))

variable (host : Host) {kinds : Kinds}

/-- The variables that a file has for a shell. -/
def loadedVars (file : Option Text) : Dict Text Text :=
  match file with
  | none => Dict.empty
  | some content => loadedEnv host content

/-- The lists that should be there behind an operation. -/
def listsAfter (world : World) : Action kinds → Text → Option (List Text)
  | .pathAdd path atEnd checkExists _ =>
      if checkExists ∧ host.pathExists path = false then world.lists
      else added world "PATH".toList (partOf (pathClean path)) atEnd
  | .pathDelete path => removed world "PATH".toList (partOf (pathClean path))
  | .envSetPart key value atEnd _ _ _ _ => added world key (partOf value) atEnd
  | .envDeletePart key value _ => removed world key (partOf value)
  | .envSet .. => world.lists
  | .reload =>
      if world.isLoaded then world.lists
      else fun key =>
        ((loadedVars host world.profile.file).get key).map
          (fun value => entriesOf (stripChar '"' value))

/-- The values of the other variables behind an operation. -/
def valuesAfter (world : World) : Action kinds → Text → Option Text
  | .envSet key value quote _ _ =>
      Function.update world.values key (some (if quote then quoted value else value))
  | .reload =>
      if world.isLoaded then world.values
      else (loadedVars host world.profile.file).get
  | _ => world.values

def perform : Action kinds → EStateM Exn Profile Unit
  | .pathAdd path atEnd checkExists isSaved =>
      pathAdd host (saving host isSaved) path atEnd checkExists
  | .pathDelete path => pathDelete host path
  | .envSetPart key value atEnd quote isSaved separator _ =>
      envSetPart (saving host isSaved) key value atEnd quote separator
  | .envDeletePart key value _ => envDeletePart host key value
  | .envSet key value quote isSaved _ => envSet (saving host isSaved) key value quote
  | .reload => load host

def step (world : World) (action : Action kinds) : World where
  profile := final (perform host action) world.profile
  lists := listsAfter host world action
  values := valuesAfter host world action
  isLoaded := true

/-- A profile of a file that is not loaded yet. -/
def unloaded (file : Option Text) : World where
  profile := ⟨Dict.empty, [], file⟩
  lists _ := none
  values _ := none
  isLoaded := false

/-- The parts of every list are its entries, each once and in order, a part exists when it is
an entry, and the other variables have their values. -/
structure Represents (kinds : Kinds) (world : World) : Prop where
  parts : ∀ key, kinds.listed key = true →
    envGetParts world.profile key = (world.lists key).getD []
  once : ∀ key entries, kinds.listed key = true → world.lists key = some entries →
    entries.Nodup
  exist : ∀ key value, kinds.listed key = true →
    (envExistsPart world.profile key value = true ↔
      strip value ∈ (world.lists key).getD [])
  values : ∀ key, kinds.listed key = false → world.profile.env.get key = world.values key

def AsClaimed (world : World) (action : Action kinds) : Prop :=
  Represents kinds (step host world action)

/-! ## The condition -/

/-- An entry that no separator, quote or blank changes. -/
structure Clean (entry : Text) : Prop where
  bare : bare entry = entry
  some : entry ≠ []
  colon : ':' ∉ entry
  semicolon : ';' ∉ entry

/-- The directories that are there and that a save puts at the end of the path. -/
def systemEntries : List Text :=
  (systemPaths.filter host.pathExists).map (fun path => partOf (pathClean path))

/-- A save leaves the path as it is: the system directories are its last entries. -/
def Settled (lists : Text → Option (List Text)) : Prop :=
  ∀ entries, lists "PATH".toList = some entries →
    (systemEntries host).foldl (fun entries entry => enter entry true entries) entries = entries

/-- A value that a list takes as an entry. -/
structure Takes (profile : Profile) (key value : Text) (quote : Bool) (separator : Separator) :
    Prop where
  text : isNone value = false
  clean : Clean (partOf value)
  unquoted : quote = true → ' ' ∈ partOf value → profile.env.get key = none
  alone : ∀ line, profile.env.get key = some line → separator.other.char ∉ line

/-- An entry that can be deleted, or is not there. -/
structure Drops (world : World) (key value : Text) : Prop where
  text : isNone value = false
  colons : ∀ line, world.profile.env.get key = some line → ';' ∉ line ∨ ';' ∉ partOf value
  present : partOf value ∈ (world.lists key).getD [] →
    2 ≤ ((world.lists key).getD []).length ∧
      (∀ line, world.profile.env.get key = some line → ';' ∉ line) ∧
        Settled host (removed world key (partOf value))

/-- Entries have no separators, quotes or blanks at their ends, the only entry of a list is not
deleted, a saved path ends with the system directories, and no list is loaded. -/
def Sound (world : World) : Action kinds → Prop
  | .pathAdd path atEnd checkExists isSaved =>
      checkExists = true ∧ host.pathExists path = false ∨
        Takes world.profile "PATH".toList (pathClean path) true .colon ∧
          (isSaved = true →
            Settled host (added world "PATH".toList (partOf (pathClean path)) atEnd))
  | .pathDelete path => Drops host world "PATH".toList (pathClean path)
  | .envSetPart key value atEnd quote isSaved separator _ =>
      Takes world.profile key value quote separator ∧
        (isSaved = true → Settled host (added world key (partOf value) atEnd))
  | .envDeletePart key value _ => Drops host world key value
  | .envSet _ _ _ isSaved _ => isSaved = true → Settled host world.lists
  | .reload =>
      if world.isLoaded then
        world.profile.file = some (world.profile.text host) ∧
          Plain world.profile.env (world.profile.includes.filter host.executorExists) ∧
            ∀ key value, world.profile.env.get key = some value →
              kinds.listed key = false ∧ quoted (stripChar '"' value) = value
      else
        ∀ key, kinds.listed key = true → (loadedVars host world.profile.file).get key = none

/-! ## Texts that stay -/

variable {host}

section

variable {drop : Char → Bool} {text : Text}

theorem strip_sublist : (StringType.strip drop text).Sublist text := by
  have front := List.dropWhile_sublist drop (l := text)
  have back := List.dropWhile_sublist drop (l := (text.dropWhile drop).reverse)
  rw [StringType.strip]
  exact (List.reverse_sublist.mp (by rwa [List.reverse_reverse])).trans front

/-- The first and the last character of a text. -/
def Ends (drop : Char → Bool) (text : Text) : Prop :=
  (∀ char, text.head? = some char → drop char = false) ∧
    ∀ char, text.getLast? = some char → drop char = false

theorem strip_eq_self_iff : StringType.strip drop text = text ↔ Ends drop text := by
  constructor
  · intro same
    constructor
    · intro char first
      by_contra dropped
      have shorter := Scalars.length_strip_lt first (by simpa using dropped)
      rw [same] at shorter
      exact lt_irrefl _ shorter
    · intro char last
      rw [← same, StringType.strip, List.getLast?_reverse] at last
      have stops := List.head?_dropWhile_not drop (text.dropWhile drop).reverse
      rw [last] at stops
      simpa using stops
  · intro ends
    cases text with
    | nil => rfl
    | cons first rest => exact PyText.strip_eq_self (ends.1 first rfl) ends.2

/-- The characters that the ends of an entry may not be. -/
def isTrimmed (char : Char) : Bool :=
  HostFile.isspace char || char = '\'' || char = '"'

theorem bare_eq_self_iff : bare text = text ↔ Ends isTrimmed text := by
  constructor
  · intro same
    have outer := @strip_sublist HostFile.isspace text
    have single := @strip_sublist (· = '\'') (strip text)
    have double := @strip_sublist (· = '"') (stripChar '\'' (strip text))
    have inner := @strip_sublist HostFile.isspace (stripChar '"' (stripChar '\'' (strip text)))
    have length := congrArg List.length same
    have first : strip text = text := by
      apply outer.eq_of_length_le
      rw [← length]
      exact ((inner.trans double).trans single).length_le
    have second : stripChar '\'' text = text := by
      rw [first] at single double inner
      apply single.eq_of_length_le
      rw [← length]
      rw [bare, first]
      exact (inner.trans double).length_le
    have third : stripChar '"' text = text := by
      rw [first, second] at double inner
      apply double.eq_of_length_le
      rw [← length]
      rw [bare, first, second]
      exact inner.length_le
    have spaces := strip_eq_self_iff.mp first
    have singles := strip_eq_self_iff.mp second
    have doubles := strip_eq_self_iff.mp third
    constructor
    · intro char isFirst
      simp [isTrimmed, spaces.1 char isFirst, by simpa using singles.1 char isFirst,
        by simpa using doubles.1 char isFirst]
    · intro char isLast
      simp [isTrimmed, spaces.2 char isLast, by simpa using singles.2 char isLast,
        by simpa using doubles.2 char isLast]
  · intro ends
    have apart : ∀ char, isTrimmed char = false →
        HostFile.isspace char = false ∧ char ≠ '\'' ∧ char ≠ '"' := by
      intro char kept
      simpa [isTrimmed, and_assoc] using kept
    have spaces : strip text = text := by
      apply strip_eq_self_iff.mpr
      constructor
      · intro char first
        exact (apart char (ends.1 char first)).1
      · intro char last
        exact (apart char (ends.2 char last)).1
    have singles : stripChar '\'' text = text := by
      apply strip_eq_self_iff.mpr
      constructor
      · intro char first
        simpa using (apart char (ends.1 char first)).2.1
      · intro char last
        simpa using (apart char (ends.2 char last)).2.1
    have doubles : stripChar '"' text = text := by
      apply strip_eq_self_iff.mpr
      constructor
      · intro char first
        simpa using (apart char (ends.1 char first)).2.2
      · intro char last
        simpa using (apart char (ends.2 char last)).2.2
    rw [bare, spaces, singles, doubles, spaces]

theorem strip_of_bare (same : bare text = text) : strip text = text := by
  have ends := bare_eq_self_iff.mp same
  apply strip_eq_self_iff.mpr
  constructor
  · intro char first
    have kept := ends.1 char first
    simp only [isTrimmed, Bool.or_eq_false_iff] at kept
    exact kept.1.1
  · intro char last
    have kept := ends.2 char last
    simp only [isTrimmed, Bool.or_eq_false_iff] at kept
    exact kept.1.1

end

/-! ## Lines of entries -/

section

variable {separator : Separator} {entries : List Text} {entry : Text}

/-- The line of a list. -/
def line (separator : Separator) (entries : List Text) : Text :=
  Separated.join separator.char entries

theorem Clean.absent (clean : Clean entry) (separator : Separator) :
    separator.char ∉ entry := by
  cases separator with
  | colon => exact clean.colon
  | semicolon => exact clean.semicolon

/-- The ends of a line are the ends of its entries. -/
theorem ends_line {drop : Char → Bool}
    (kept : ∀ entry ∈ entries, entry ≠ [] ∧ Ends drop entry) :
    Ends drop (line separator entries) := by
  induction entries with
  | nil => exact ⟨by simp [line, Separated.join], by simp [line, Separated.join]⟩
  | cons entry entries induction =>
      obtain ⟨⟨some, ends⟩, others⟩ := List.forall_mem_cons.mp kept
      by_cases alone : entries = []
      case pos =>
        rw [alone, line, Separated.join_singleton]
        exact ends
      case neg =>
        have rest := induction others
        have filled : line separator entries ≠ [] := by
          obtain ⟨next, later, shape⟩ := List.exists_cons_of_ne_nil alone
          have nextSome := (others next (by rw [shape]; exact List.mem_cons_self)).1
          rw [shape, line]
          by_cases last : later = []
          · rw [last, Separated.join_singleton]
            exact nextSome
          · rw [Separated.join_cons next last]
            simp
        rw [line, Separated.join_cons entry alone]
        constructor
        · intro char first
          rw [List.head?_append_of_ne_nil _ some] at first
          exact ends.1 char first
        · intro char last
          have behind :
              (entry ++ separator.char :: Separated.join separator.char entries).getLast? =
                (line separator entries).getLast? := by
            rw [List.getLast?_append, List.getLast?_cons, line]
            cases isLast : (Separated.join separator.char entries).getLast? with
            | none => exact absurd (List.getLast?_eq_none_iff.mp isLast) filled
            | some char => rfl
          rw [behind] at last
          exact rest.2 char last

theorem bare_line (clean : ∀ entry ∈ entries, Clean entry) :
    bare (line separator entries) = line separator entries := by
  apply bare_eq_self_iff.mpr
  apply ends_line
  intro entry member
  exact ⟨(clean entry member).some, bare_eq_self_iff.mp (clean entry member).bare⟩

theorem stripChar_line (clean : ∀ entry ∈ entries, Clean entry) :
    stripChar separator.char (line separator entries) = line separator entries := by
  apply strip_eq_self_iff.mpr
  apply ends_line
  intro entry member
  have absent := (clean entry member).absent separator
  refine ⟨(clean entry member).some, ?_, ?_⟩
  · intro char first
    have inside := List.mem_of_mem_head? first
    simp only [decide_eq_false_iff_not]
    rintro rfl
    exact absent inside
  · intro char last
    have inside := List.mem_of_getLast? last
    simp only [decide_eq_false_iff_not]
    rintro rfl
    exact absent inside

theorem split_line (clean : ∀ entry ∈ entries, Clean entry) (some : entries ≠ []) :
    PyText.splitChars separator.char (line separator entries) = entries := by
  rw [TextTools.splitChars_eq_splitOn, line, Separated.join]
  apply List.splitOn_intercalate _ _ some
  intro entry member
  exact (clean entry member).absent separator

/-- A line has the separator of its list only. -/
theorem mem_line_iff (clean : ∀ entry ∈ entries, Clean entry) (other : Separator) :
    other.char ∈ line separator entries ↔ other = separator ∧ 2 ≤ entries.length := by
  induction entries with
  | nil => simp [line, Separated.join]
  | cons entry entries induction =>
      obtain ⟨first, others⟩ := List.forall_mem_cons.mp clean
      have absent := first.absent other
      by_cases alone : entries = []
      case pos =>
        rw [alone, line, Separated.join_singleton]
        simp [absent]
      case neg =>
        have filled := List.length_pos_iff.mpr alone
        have inductive' := induction others
        rw [line, Separated.join_cons entry alone, List.mem_append, List.mem_cons,
          or_iff_right absent, List.length_cons]
        rw [line] at inductive'
        rw [inductive']
        have sameChar : other.char = separator.char ↔ other = separator := by
          cases other <;> cases separator <;> decide
        rw [sameChar]
        constructor
        · rintro (same | ⟨same, -⟩)
          · exact ⟨same, by omega⟩
          · exact ⟨same, by omega⟩
        · rintro ⟨same, -⟩
          exact .inl same

/-- A line without the other separator is the line of this one. -/
theorem line_eq_of_absent {current : Separator} (clean : ∀ entry ∈ entries, Clean entry)
    (absent : separator.other.char ∉ line current entries) :
    line current entries = line separator entries := by
  by_cases few : entries.length < 2
  case pos =>
    match entries, few with
    | [], _ => rfl
    | [entry], _ => simp [line]
  case neg =>
    have same : separator = current := by
      rw [mem_line_iff clean, not_and] at absent
      cases separator with
      | colon =>
          cases current with
          | colon => rfl
          | semicolon => exact absurd (by omega) (absent rfl)
      | semicolon =>
          cases current with
          | colon => exact absurd (by omega) (absent rfl)
          | semicolon => rfl
    rw [same]

theorem distinct_of_nodup (nodup : entries.Nodup) : distinct entries = entries := by
  have general : ∀ (rest items : List Text), (items ++ rest).Nodup →
      rest.foldl (fun items item => if item ∈ items then items else items ++ [item]) items =
        items ++ rest := by
    intro rest
    induction rest with
    | nil => simp
    | cons item rest induction =>
        intro items nodup
        have fresh : item ∉ items := by
          intro member
          exact (List.nodup_append.mp nodup).2.2 item member item List.mem_cons_self rfl
        rw [List.foldl_cons, if_neg fresh, induction _ (by simpa using nodup)]
        simp
  exact general entries [] nodup

theorem map_bare (clean : ∀ entry ∈ entries, Clean entry) : entries.map bare = entries := by
  calc
    entries.map bare = entries.map id := by
      apply List.map_congr_left
      intro entry member
      exact (clean entry member).bare
    _ = entries := List.map_id entries

theorem mem_enter {other : Text} {atEnd : Bool} (member : other ∈ enter entry atEnd entries) :
    other = entry ∨ other ∈ entries := by
  rw [enter] at member
  split at member
  case isTrue =>
    rcases List.mem_append.mp member with before' | last
    · exact .inr (List.mem_of_mem_erase before')
    · exact .inl (List.mem_singleton.mp last)
  case isFalse =>
    rcases List.mem_cons.mp member with first | behind
    · exact .inl first
    · exact .inr (List.mem_of_mem_erase behind)

theorem nodup_enter (nodup : entries.Nodup) (atEnd : Bool) :
    (enter entry atEnd entries).Nodup := by
  have absent : entry ∉ entries.erase entry := nodup.not_mem_erase
  have erased := nodup.erase entry
  rw [enter]
  split
  case isTrue =>
    rw [List.nodup_append]
    refine ⟨erased, List.nodup_singleton entry, ?_⟩
    intro other member last isLast same
    rw [List.mem_singleton.mp isLast] at same
    exact absent (same ▸ member)
  case isFalse => exact List.nodup_cons.mpr ⟨absent, erased⟩

theorem enter_ne_nil (entry : Text) (atEnd : Bool) (entries : List Text) :
    enter entry atEnd entries ≠ [] := by
  rw [enter]
  split
  case isTrue => simp
  case isFalse => simp

theorem clean_enter (clean : ∀ entry ∈ entries, Clean entry) (entryClean : Clean entry)
    (atEnd : Bool) : ∀ other ∈ enter entry atEnd entries, Clean other := by
  intro other member
  rcases mem_enter member with same | inside
  · rw [same]
    exact entryClean
  · exact clean other inside

/-- A part is put at one end of its list. -/
theorem putPart_line {quote : Bool} {atEnd : Bool} (clean : ∀ entry ∈ entries, Clean entry)
    (nodup : entries.Nodup) (some : entries ≠ []) (entryClean : Clean entry)
    (unquoted : quote = true → ' ' ∉ entry) :
    putPart separator (line separator entries) entry atEnd quote =
      .ok (line separator (enter entry atEnd entries)) := by
  have alone : separator.other.char ∉ line separator entries := by
    rw [mem_line_iff clean]
    cases separator <;> simp [Separator.other]
  have noQuotes : ¬ (quote = true ∧ ' ' ∈ entry) := by
    rintro ⟨isQuote, blank⟩
    exact unquoted isQuote blank
  have stripped : strip entry = entry := strip_of_bare entryClean.bare
  have joined : (if atEnd = true then entries.erase entry ++ [entry]
      else entry :: entries.erase entry) = enter entry atEnd entries := rfl
  rw [putPart, bare_line clean, if_neg alone, split_line clean some, map_bare clean,
    distinct_of_nodup nodup]
  simp only [if_neg noQuotes, stripped]
  rw [joined]
  have whole := @stripChar_line separator _ (clean_enter clean entryClean atEnd)
  rw [line, Separated.join] at whole
  rw [whole, line, Separated.join]

theorem map_strip (clean : ∀ entry ∈ entries, Clean entry) : entries.map strip = entries := by
  calc
    entries.map strip = entries.map id := by
      apply List.map_congr_left
      intro entry member
      exact strip_of_bare (clean entry member).bare
    _ = entries := List.map_id entries

/-- The parts of a line are the entries of its list. -/
theorem envGetParts_line {profile : Profile} {key : Text}
    (held : profile.env.get key = .some (line separator entries))
    (clean : ∀ entry ∈ entries, Clean entry) (some : entries ≠ []) :
    envGetParts profile key = entries := by
  have colons : ':' ∈ line separator entries ↔ .colon = separator ∧ 2 ≤ entries.length :=
    mem_line_iff clean .colon
  have semicolons : ';' ∈ line separator entries ↔
      .semicolon = separator ∧ 2 ≤ entries.length :=
    mem_line_iff clean .semicolon
  have parted := @split_line separator entries clean some
  rw [envGetParts, held]
  dsimp only
  by_cases many : 2 ≤ entries.length
  case pos =>
    cases separator with
    | colon =>
        rw [if_pos (colons.mpr ⟨rfl, many⟩)]
        rw [Separator.char] at parted
        rw [parted, map_strip clean]
    | semicolon =>
        have noColon : ':' ∉ line .semicolon entries := by
          intro member
          exact nomatch (colons.mp member).1
        rw [if_neg noColon, if_pos (semicolons.mpr ⟨rfl, many⟩)]
        rw [Separator.char] at parted
        rw [parted, map_strip clean]
  case neg =>
    have noColon : ':' ∉ line separator entries := by
      intro member
      exact many (colons.mp member).2
    have noSemicolon : ';' ∉ line separator entries := by
      intro member
      exact many (semicolons.mp member).2
    rw [if_neg noColon, if_neg noSemicolon]
    match entries, some, many with
    | [entry], _, _ =>
        rw [line, Separated.join_singleton]
        rw [strip_of_bare (clean entry List.mem_cons_self).bare]
    | first :: second :: rest, _, many => exact absurd (by simp) many

end

end JumpscaleX.Profiles
