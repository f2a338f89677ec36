import Mathlib.Order.Bounds.Basic
import JumpscaleX.ArgsReplace
import JumpscaleX.ScalarTexts

/-!
# Dedenting

`text_strip` without replacements: the least indentation of some lines is cut from
all of them.
-/

namespace JumpscaleX.TextTools

open PyText

abbrev Line := List Char

def isBlank (line : Line) : Bool :=
  (StringType.strip HostFile.isspace line).isEmpty

/-- A line that starts with a hash mark, the first line of a script apart. -/
def isComment (line : Line) : Bool :=
  let stripped := StringType.strip HostFile.isspace line
  ['#'].isPrefixOf stripped && !(['#', '!'].isPrefixOf stripped)

/-- The line is one of those that the minimum is taken of. -/
def counts (ignorecomments : Bool) (line : Line) : Bool :=
  !isBlank line && !(ignorecomments && isComment line)

/-- `prechars`. -/
def prechars (line : Line) : Nat :=
  (line.takeWhile HostFile.isspace).length

/-- One line of the loop over `minchars`. -/
def leastStep (ignorecomments : Bool) (minchars : Nat) (line : Line) : Nat :=
  if counts ignorecomments line then min minchars (prechars line) else minchars

/-- `minchars`. -/
def leastChars (ignorecomments : Bool) (lines : List Line) : Nat :=
  lines.foldl (leastStep ignorecomments) 9999

/-- The lines without a first one that is empty. -/
def dropLeading : List Line → List Line
  | first :: lines => if isBlank first then lines else first :: lines
  | [] => []

/-- The lines of the result. -/
def stripLines (ignorecomments : Bool) (lines : List Line) : List Line :=
  let minchars := leastChars ignorecomments lines
  if 0 < minchars then (dropLeading lines).map (List.drop minchars) else lines

/-- `text_strip` with `replace` and `colors` unset. -/
def textStripWith (ignorecomments : Bool) (content : List Char) : List Char :=
  ['\n'].intercalate (stripLines ignorecomments (splitChars '\n' content))

/-! ## Lines -/

theorem splitChars_eq_splitOn (separator : Char) (chars : List Char) :
    splitChars separator chars = chars.splitOn separator := by
  induction chars with
  | nil => rfl
  | cons char chars induction =>
      rw [splitChars, List.splitOn, List.splitOnP_cons_eq_if_modifyHead, induction]
      by_cases same : char = separator
      · simp [same, List.splitOn]
      · simp only [same, if_false, beq_iff_eq]
        cases parts : chars.splitOn separator with
        | nil => exact (List.splitOnP_ne_nil _ _ parts).elim
        | cons part parts' => rw [List.splitOn] at parts; simp [parts]

theorem join_split (content : List Char) :
    ['\n'].intercalate (splitChars '\n' content) = content := by
  rw [splitChars_eq_splitOn, List.intercalate_splitOn]

/-- No line has a line break in it. -/
theorem not_mem_of_mem_split {line : Line} {content : List Char}
    (member : line ∈ splitChars '\n' content) : '\n' ∉ line := by
  induction content generalizing line with
  | nil =>
      rw [List.mem_singleton.mp member]
      exact List.not_mem_nil
  | cons char content induction =>
      by_cases isBreak : char = '\n'
      · rw [splitChars, if_pos isBreak] at member
        rcases List.mem_cons.mp member with empty | later
        · rw [empty]
          exact List.not_mem_nil
        · exact induction later
      · rw [splitChars, if_neg isBreak] at member
        cases parts : splitChars '\n' content with
        | nil =>
            rw [parts] at member
            rw [List.mem_singleton.mp member, List.mem_singleton]
            exact Ne.symm isBreak
        | cons part parts' =>
            rw [parts] at member induction
            rcases List.mem_cons.mp member with first | later
            · rw [first, List.mem_cons, not_or]
              exact ⟨Ne.symm isBreak, induction List.mem_cons_self⟩
            · exact induction (List.mem_cons_of_mem _ later)

theorem split_join {lines : List Line} (clean : ∀ line ∈ lines, '\n' ∉ line)
    (some : lines ≠ []) : splitChars '\n' (['\n'].intercalate lines) = lines := by
  rw [splitChars_eq_splitOn, List.splitOn_intercalate '\n' clean some]

/-! ## Blanks in front of a line -/

theorem isBlank_iff (line : Line) :
    isBlank line = true ↔ ∀ char ∈ line, HostFile.isspace char = true := by
  rw [isBlank, List.isEmpty_iff]
  constructor
  · exact Scalars.space_of_strip
  · intro blank
    have front : line.dropWhile HostFile.isspace = [] := List.dropWhile_eq_nil_iff.mpr blank
    simp [StringType.strip, front]

theorem prechars_cons (char : Char) (line : Line) :
    prechars (char :: line) = if HostFile.isspace char then prechars line + 1 else 0 := by
  rw [prechars, List.takeWhile_cons]
  split
  · rfl
  · rfl

/-- The first characters of a line that is not blank are blanks up to its first character. -/
theorem take_blank_iff {line : Line} (filled : isBlank line = false) (count : Nat) :
    (∀ char ∈ line.take count, HostFile.isspace char = true) ↔ count ≤ prechars line := by
  have other : ¬ ∀ char ∈ line, HostFile.isspace char = true := by
    intro blank
    rw [isBlank_iff line |>.mpr blank] at filled
    cases filled
  clear filled
  induction line generalizing count with
  | nil => exact (other (by simp)).elim
  | cons char line induction =>
      rw [prechars_cons]
      cases count with
      | zero => simp
      | succ count =>
          rw [List.take_succ_cons, List.forall_mem_cons]
          by_cases space : HostFile.isspace char = true
          · have later : ¬ ∀ char ∈ line, HostFile.isspace char = true := by
              intro blank
              exact other (List.forall_mem_cons.mpr ⟨space, blank⟩)
            have step := induction count later
            rw [if_pos space, Nat.add_le_add_iff_right]
            exact (and_iff_right space).trans step
          · simp [space]

/-- Cutting blanks from the front keeps the rest. -/
theorem strip_drop {line : Line} {count : Nat}
    (blank : ∀ char ∈ line.take count, HostFile.isspace char = true) :
    StringType.strip HostFile.isspace (line.drop count) =
      StringType.strip HostFile.isspace line := by
  have front : line.dropWhile HostFile.isspace =
      (line.drop count).dropWhile HostFile.isspace := by
    have whole := @List.dropWhile_append_of_pos _ _ _ (line.drop count) blank
    rwa [List.take_append_drop] at whole
  rw [StringType.strip, StringType.strip, front]

theorem counts_drop {ignorecomments : Bool} {line : Line} {count : Nat}
    (blank : ∀ char ∈ line.take count, HostFile.isspace char = true) :
    counts ignorecomments (line.drop count) = counts ignorecomments line := by
  simp only [counts, isBlank, isComment, strip_drop blank]

theorem prechars_drop {line : Line} {count : Nat} (inside : count ≤ prechars line) :
    prechars (line.drop count) + count = prechars line := by
  induction count generalizing line with
  | zero => rfl
  | succ count induction =>
      cases line with
      | nil => exact (Nat.not_succ_le_zero _ inside).elim
      | cons char line =>
          rw [prechars_cons] at inside ⊢
          split at inside
          case isTrue space =>
            have later := induction (Nat.le_of_succ_le_succ inside)
            rw [List.drop_succ_cons, if_pos space]
            omega
          case isFalse => exact (Nat.not_succ_le_zero _ inside).elim

/-! ## The least indentation -/

section

variable {ignorecomments : Bool} {lines : List Line}

theorem foldl_le_start (start : Nat) : lines.foldl (leastStep ignorecomments) start ≤ start := by
  induction lines generalizing start with
  | nil => exact Nat.le_refl start
  | cons line lines induction =>
      apply (induction (leastStep ignorecomments start line)).trans
      rw [leastStep]
      split
      · exact Nat.min_le_left _ _
      · exact Nat.le_refl start

theorem foldl_le_of_mem {line : Line} (member : line ∈ lines)
    (counted : counts ignorecomments line = true) (start : Nat) :
    lines.foldl (leastStep ignorecomments) start ≤ prechars line := by
  induction lines generalizing start with
  | nil => cases member
  | cons first lines induction =>
      rcases List.mem_cons.mp member with same | later
      · apply (foldl_le_start (leastStep ignorecomments start first)).trans
        rw [leastStep, ← same, if_pos counted]
        exact Nat.min_le_right _ _
      · exact induction later _

/-- The minimum starts high, or is the indentation of a line that counts. -/
theorem foldl_eq_or_exists (start : Nat) :
    lines.foldl (leastStep ignorecomments) start = start ∨
      ∃ line ∈ lines, counts ignorecomments line = true ∧
        lines.foldl (leastStep ignorecomments) start = prechars line := by
  induction lines generalizing start with
  | nil => exact Or.inl rfl
  | cons first lines induction =>
      rw [List.foldl_cons]
      rcases induction (leastStep ignorecomments start first) with same | ⟨line, member, found⟩
      · by_cases counted : counts ignorecomments first = true
        · rw [leastStep, if_pos counted] at same
          rcases Nat.le_total start (prechars first) with low | high
          · left
            rw [leastStep, if_pos counted, same, Nat.min_eq_left low]
          · right
            refine ⟨first, List.mem_cons_self, counted, ?_⟩
            rw [leastStep, if_pos counted, same, Nat.min_eq_right high]
        · left
          rw [same, leastStep, if_neg counted]
      · exact Or.inr ⟨line, List.mem_cons_of_mem _ member, found⟩

theorem leastChars_le : leastChars ignorecomments lines ≤ 9999 :=
  foldl_le_start 9999

/-- Where no line counts the cut stays as it started. -/
theorem leastChars_of_none (none : ∀ line ∈ lines, counts ignorecomments line = false) :
    leastChars ignorecomments lines = 9999 := by
  rcases @foldl_eq_or_exists ignorecomments lines 9999 with
    same | ⟨line, member, counted, -⟩
  · exact same
  · rw [none line member] at counted
    cases counted

theorem leastChars_of_least {line : Line} (member : line ∈ lines)
    (counted : counts ignorecomments line = true) (low : prechars line ≤ 9999)
    (least : ∀ other ∈ lines, counts ignorecomments other = true →
      prechars line ≤ prechars other) :
    leastChars ignorecomments lines = prechars line := by
  apply Nat.le_antisymm (foldl_le_of_mem member counted 9999)
  rcases @foldl_eq_or_exists ignorecomments lines 9999 with
    same | ⟨other, isOther, countsOther, found⟩
  · exact low.trans_eq same.symm
  · exact (least other isOther countsOther).trans_eq found.symm

end

/-! ## The claim and the condition -/

/-- Dedenting keeps the text: the same number of blanks is cut from all lines, the least
indentation of those that count, beside at most one blank line in front. -/
structure KeepsText (ignorecomments : Bool) (content : List Char) : Prop where
  cut : ∃ kept, (splitChars '\n' content = kept ∨
      ∃ blank, isBlank blank = true ∧ splitChars '\n' content = blank :: kept) ∧
    textStripWith ignorecomments content = ['\n'].intercalate
      (kept.map (List.drop (leastChars ignorecomments (splitChars '\n' content))))
  blanks : ∀ line ∈ splitChars '\n' content,
    ∀ char ∈ line.take (leastChars ignorecomments (splitChars '\n' content)),
      HostFile.isspace char = true
  minimal : (∃ line ∈ splitChars '\n' content, counts ignorecomments line = true) →
    IsLeast {indent | ∃ line ∈ splitChars '\n' content,
        counts ignorecomments line = true ∧ prechars line = indent}
      (leastChars ignorecomments (splitChars '\n' content))
  relative : ∀ line ∈ splitChars '\n' content, isBlank line = false →
    prechars (line.drop (leastChars ignorecomments (splitChars '\n' content))) +
      leastChars ignorecomments (splitChars '\n' content) = prechars line
  again : textStripWith ignorecomments (textStripWith ignorecomments content) =
      textStripWith ignorecomments content ∨
    ∃ blank kept, isBlank blank = true ∧
      splitChars '\n' (textStripWith ignorecomments content) = blank :: kept ∧
      textStripWith ignorecomments (textStripWith ignorecomments content) =
        ['\n'].intercalate kept

/-- The text has no line but blank ones of up to 9999 characters behind the second, or a line
that counts is indented by at most 9999 blanks and no other line that is not blank by less. -/
def Dedents (ignorecomments : Bool) (content : List Char) : Prop :=
  ((∀ line ∈ splitChars '\n' content, isBlank line = true) ∧
    ∀ line ∈ (splitChars '\n' content).drop 2, line.length ≤ 9999) ∨
  ∃ line ∈ splitChars '\n' content, counts ignorecomments line = true ∧
    prechars line ≤ 9999 ∧
    ∀ other ∈ splitChars '\n' content, isBlank other = true ∨ prechars line ≤ prechars other

/-! ## The lines of the result -/

section

variable {ignorecomments : Bool} {content : List Char}

theorem splitChars_ne_nil (content : List Char) : splitChars '\n' content ≠ [] := by
  rw [splitChars_eq_splitOn]
  exact List.splitOn_ne_nil '\n' content

theorem dropLeading_subset {lines : List Line} {line : Line} (member : line ∈ dropLeading lines) :
    line ∈ lines := by
  cases lines with
  | nil => exact member
  | cons first lines =>
      rw [dropLeading] at member
      split at member
      · exact List.mem_cons_of_mem _ member
      · exact member

/-- A line that is not blank stays. -/
theorem mem_dropLeading {lines : List Line} {line : Line} (member : line ∈ lines)
    (filled : isBlank line = false) : line ∈ dropLeading lines := by
  cases lines with
  | nil => exact member
  | cons first lines =>
      rw [dropLeading]
      split
      · rename_i blank
        rcases List.mem_cons.mp member with same | later
        · rw [same, blank] at filled
          cases filled
        · exact later
      · exact member

theorem not_mem_stripLines {line : Line}
    (member : line ∈ stripLines ignorecomments (splitChars '\n' content)) : '\n' ∉ line := by
  rw [stripLines] at member
  split at member
  · obtain ⟨whole, isWhole, rfl⟩ := List.mem_map.mp member
    intro inside
    exact not_mem_of_mem_split (dropLeading_subset isWhole) (List.mem_of_mem_drop inside)
  · exact not_mem_of_mem_split member

/-- The lines of the result are the ones that were cut. -/
theorem split_textStripWith
    (some : stripLines ignorecomments (splitChars '\n' content) ≠ []) :
    splitChars '\n' (textStripWith ignorecomments content) =
      stripLines ignorecomments (splitChars '\n' content) :=
  split_join (fun _ member => not_mem_stripLines member) some

theorem keepsText_cut : ∃ kept, (splitChars '\n' content = kept ∨
      ∃ blank, isBlank blank = true ∧ splitChars '\n' content = blank :: kept) ∧
    textStripWith ignorecomments content = ['\n'].intercalate
      (kept.map (List.drop (leastChars ignorecomments (splitChars '\n' content)))) := by
  rw [textStripWith, stripLines]
  split
  case isTrue =>
    refine ⟨dropLeading (splitChars '\n' content), ?_, rfl⟩
    cases splitChars '\n' content with
    | nil => exact Or.inl rfl
    | cons first lines =>
        rw [dropLeading]
        split
        case isTrue blank => exact Or.inr ⟨first, blank, rfl⟩
        case isFalse => exact Or.inl rfl
  case isFalse zero =>
    have none : leastChars ignorecomments (splitChars '\n' content) = 0 := by omega
    refine ⟨_, Or.inl rfl, ?_⟩
    have same : (List.drop 0 : Line → Line) = id := rfl
    rw [none, same, List.map_id]

/-- A text of blank lines loses a line at a time. -/
theorem keepsText_of_blank
    (blank : ∀ line ∈ splitChars '\n' content, isBlank line = true)
    (short : ∀ line ∈ (splitChars '\n' content).drop 2, line.length ≤ 9999) :
    KeepsText ignorecomments content := by
  have uncounted {lines : List Line} (allBlank : ∀ line ∈ lines, isBlank line = true) :
      ∀ line ∈ lines, counts ignorecomments line = false := by
    intro line member
    simp [counts, allBlank line member]
  have least := leastChars_of_none (uncounted blank)
  constructor
  case cut => exact keepsText_cut
  case blanks =>
    intro line member char inside
    exact (isBlank_iff line).mp (blank line member) char (List.mem_of_mem_take inside)
  case minimal =>
    rintro ⟨line, member, counted⟩
    rw [uncounted blank line member] at counted
    cases counted
  case relative =>
    intro line member filled
    rw [blank line member] at filled
    cases filled
  case again =>
    right
    have cutBlank {first : Line} {lines : List Line} (isFirst : isBlank first = true) :
        dropLeading (first :: lines) = lines := by rw [dropLeading, if_pos isFirst]
    cases isLines : splitChars '\n' content with
    | nil => exact (splitChars_ne_nil content isLines).elim
    | cons first rest =>
        rw [isLines] at blank least short
        have isFirst : isBlank first = true := blank first List.mem_cons_self
        have result : textStripWith ignorecomments content =
            ['\n'].intercalate (rest.map (List.drop 9999)) := by
          rw [textStripWith, stripLines, isLines, least, cutBlank isFirst]
          rfl
        cases rest with
        | nil =>
            have empty : textStripWith ignorecomments content = [] := result
            have noLine : leastChars ignorecomments [[]] = 9999 :=
              leastChars_of_none (uncounted (by simp [isBlank_iff]))
            refine ⟨[], [], rfl, by rw [empty]; rfl, ?_⟩
            rw [empty, textStripWith, stripLines]
            show ['\n'].intercalate (if 0 < leastChars ignorecomments [[]] then _ else _) = _
            rw [noLine]
            rfl
        | cons second others =>
            have cutLines : stripLines ignorecomments (splitChars '\n' content) =
                (second :: others).map (List.drop 9999) := by
              rw [stripLines, isLines, least, cutBlank isFirst]
              rfl
            have isSplit : splitChars '\n' (textStripWith ignorecomments content) =
                (second :: others).map (List.drop 9999) := by
              rw [split_textStripWith (by rw [cutLines]; simp), cutLines]
            have stillBlank : ∀ line ∈ (second :: others).map (List.drop 9999),
                isBlank line = true := by
              intro line member
              obtain ⟨whole, isWhole, rfl⟩ := List.mem_map.mp member
              rw [isBlank_iff]
              intro char inside
              exact (isBlank_iff whole).mp (blank whole (List.mem_cons_of_mem _ isWhole)) char
                (List.mem_of_mem_drop inside)
            have kept : (others.map (List.drop 9999)).map (List.drop 9999) =
                others.map (List.drop 9999) := by
              rw [List.map_map]
              apply List.map_congr_left
              intro line member
              have nothing : line.drop 9999 = [] := List.drop_eq_nil_of_le (short line member)
              rw [Function.comp_apply, nothing, List.drop_nil]
            refine ⟨second.drop 9999, others.map (List.drop 9999),
              stillBlank _ List.mem_cons_self, isSplit, ?_⟩
            have secondBlank : isBlank (second.drop 9999) = true :=
              stillBlank _ List.mem_cons_self
            rw [textStripWith, isSplit, stripLines, leastChars_of_none (uncounted stillBlank),
              List.map_cons, cutBlank secondBlank, if_pos (by decide), kept]

/-- Where a line that counts has the least indentation, nothing is left to cut. -/
theorem keepsText_of_counted {line : Line} (member : line ∈ splitChars '\n' content)
    (counted : counts ignorecomments line = true) (low : prechars line ≤ 9999)
    (least : ∀ other ∈ splitChars '\n' content,
      isBlank other = true ∨ prechars line ≤ prechars other) :
    KeepsText ignorecomments content := by
  have filled {other : Line} (isCounted : counts ignorecomments other = true) :
      isBlank other = false := by
    simp only [counts, Bool.and_eq_true, Bool.not_eq_true'] at isCounted
    exact isCounted.1
  have atLeast : ∀ other ∈ splitChars '\n' content, isBlank other = false →
      prechars line ≤ prechars other := by
    intro other isOther isFilled
    rcases least other isOther with blank | high
    · rw [isFilled] at blank
      cases blank
    · exact high
  have isLeast : leastChars ignorecomments (splitChars '\n' content) = prechars line :=
    leastChars_of_least member counted low
      (fun other isOther countsOther => atLeast other isOther (filled countsOther))
  have blanks : ∀ other ∈ splitChars '\n' content,
      ∀ char ∈ other.take (prechars line), HostFile.isspace char = true := by
    intro other isOther
    by_cases blank : isBlank other = true
    · intro char inside
      exact (isBlank_iff other).mp blank char (List.mem_of_mem_take inside)
    · have isFilled : isBlank other = false := by simpa using blank
      exact (take_blank_iff isFilled _).mpr (atLeast other isOther isFilled)
  constructor
  case cut => exact keepsText_cut
  case blanks =>
    rw [isLeast]
    exact blanks
  case minimal =>
    intro _
    rw [isLeast]
    refine ⟨⟨line, member, counted, rfl⟩, ?_⟩
    rintro indent ⟨other, isOther, countsOther, rfl⟩
    exact atLeast other isOther (filled countsOther)
  case relative =>
    rw [isLeast]
    intro other isOther isFilled
    exact prechars_drop (atLeast other isOther isFilled)
  case again =>
    left
    have cutMember : line.drop (prechars line) ∈
        stripLines ignorecomments (splitChars '\n' content) := by
      rw [stripLines, isLeast]
      split
      · exact List.mem_map_of_mem (mem_dropLeading member (filled counted))
      · rename_i zero
        have none : prechars line = 0 := by omega
        rw [none]
        exact member
    have isSplit := split_textStripWith (List.ne_nil_of_mem cutMember)
    have noIndent : prechars (line.drop (prechars line)) = 0 := by
      have whole := prechars_drop (Nat.le_refl (prechars line))
      omega
    have leastCut : leastChars ignorecomments
        (stripLines ignorecomments (splitChars '\n' content)) = 0 := by
      rw [← noIndent]
      apply leastChars_of_least cutMember
      · rw [counts_drop (blanks line member), counted]
      · omega
      · intro other _ _
        omega
    have unchanged : stripLines ignorecomments
        (splitChars '\n' (textStripWith ignorecomments content)) =
        splitChars '\n' (textStripWith ignorecomments content) := by
      rw [isSplit, stripLines, leastCut]
      rfl
    rw [textStripWith, unchanged, join_split]

theorem eq_nil_of_drop_eq {line : Line} (same : line.drop 9999 = line) : line = [] := by
  have lengths := congrArg List.length same
  rw [List.length_drop] at lengths
  exact List.eq_nil_of_length_eq_zero (by omega)

/-- A line that is not blank is changed by each cut where no line counts. -/
theorem blank_of_keepsText (keeps : KeepsText ignorecomments content)
    (none : ∀ line ∈ splitChars '\n' content, counts ignorecomments line = false) :
    (∀ line ∈ splitChars '\n' content, isBlank line = true) ∧
      ∀ line ∈ (splitChars '\n' content).drop 2, line.length ≤ 9999 := by
  have least := leastChars_of_none none
  have blanks := keeps.blanks
  rw [least] at blanks
  have cutLines : stripLines ignorecomments (splitChars '\n' content) =
      (dropLeading (splitChars '\n' content)).map (List.drop 9999) := by
    rw [stripLines, least]
    rfl
  by_cases lost : dropLeading (splitChars '\n' content) = []
  · cases isLines : splitChars '\n' content with
    | nil => exact (splitChars_ne_nil content isLines).elim
    | cons first rest =>
        rw [isLines, dropLeading] at lost
        split at lost
        case isTrue blank =>
          rw [lost]
          exact ⟨by simpa using blank, by simp⟩
        case isFalse => cases lost
  · have isSplit := @split_textStripWith ignorecomments content
      (by rw [cutLines]; simpa using lost)
    rw [cutLines] at isSplit
    -- No line counts behind the first cut either.
    have noneCut : ∀ line ∈ (dropLeading (splitChars '\n' content)).map (List.drop 9999),
        counts ignorecomments line = false := by
      intro line member
      obtain ⟨whole, isWhole, rfl⟩ := List.mem_map.mp member
      rw [counts_drop (blanks whole (dropLeading_subset isWhole))]
      exact none whole (dropLeading_subset isWhole)
    have second : textStripWith ignorecomments (textStripWith ignorecomments content) =
        ['\n'].intercalate ((dropLeading ((dropLeading (splitChars '\n' content)).map
          (List.drop 9999))).map (List.drop 9999)) := by
      rw [textStripWith, isSplit, stripLines, leastChars_of_none noneCut, if_pos (by decide)]
    have result : textStripWith ignorecomments content =
        ['\n'].intercalate ((dropLeading (splitChars '\n' content)).map (List.drop 9999)) := by
      rw [textStripWith, cutLines]
    have clean : ∀ line ∈ (dropLeading (splitChars '\n' content)).map (List.drop 9999),
        '\n' ∉ line := by
      intro line member
      exact not_mem_stripLines (cutLines ▸ member)
    have cleanCut {lines : List Line} (inside : ∀ line ∈ lines, '\n' ∉ line) :
        ∀ line ∈ lines.map (List.drop 9999), '\n' ∉ line := by
      intro line member
      obtain ⟨whole, isWhole, rfl⟩ := List.mem_map.mp member
      intro isBreak
      exact inside whole isWhole (List.mem_of_mem_drop isBreak)
    have again := keeps.again
    rw [second, result, split_join clean (by simpa using lost)] at again
    cases isCut : dropLeading (splitChars '\n' content) with
    | nil => exact (lost isCut).elim
    | cons first others =>
        rw [isCut, List.map_cons] at again clean
        by_cases blank : isBlank (first.drop 9999) = true
        · rw [dropLeading, if_pos blank] at again
          have empty : ∀ line ∈ others.map (List.drop 9999), line = [] := by
            cases others with
            | nil => simp
            | cons next others =>
                have cleanOthers := List.forall_mem_cons.mp clean |>.2
                have fixed : ((next :: others).map (List.drop 9999)).map (List.drop 9999) =
                    (next :: others).map (List.drop 9999) := by
                  rcases again with same | ⟨front, kept, -, isKept, same⟩
                  · have lines := congrArg (splitChars '\n') same
                    rw [split_join (cleanCut cleanOthers) (by simp),
                      split_join clean (by simp)] at lines
                    have lengths := congrArg List.length lines
                    simp at lengths
                  · cases isKept
                    have lines := congrArg (splitChars '\n') same
                    rwa [split_join (cleanCut cleanOthers) (by simp),
                      split_join cleanOthers (by simp)] at lines
                intro line member
                apply eq_nil_of_drop_eq
                have each := List.map_inj_left.mp (fixed.trans (List.map_id _).symm)
                exact each line member
          have short : ∀ line ∈ others, line.length ≤ 9999 := by
            intro line member
            exact List.drop_eq_nil_iff.mp (empty _ (List.mem_map_of_mem member))
          have inLines : ∀ line ∈ first :: others, line ∈ splitChars '\n' content := by
            intro line member
            exact dropLeading_subset (isCut ▸ member)
          have cutBlank : ∀ line ∈ first :: others, isBlank line = true := by
            intro line member
            have isBlankCut : isBlank (line.drop 9999) = true := by
              rcases List.mem_cons.mp member with same | later
              · rw [same]
                exact blank
              · rw [empty _ (List.mem_map_of_mem later)]
                rfl
            rwa [isBlank, strip_drop (blanks line (inLines line member))] at isBlankCut
          constructor
          · intro line member
            by_contra filled
            have stays := mem_dropLeading member (by simpa using filled)
            rw [isCut] at stays
            exact filled (cutBlank line stays)
          · intro line member
            apply short
            cases isLines : splitChars '\n' content with
            | nil => exact (splitChars_ne_nil content isLines).elim
            | cons head rest =>
                rw [isLines, dropLeading] at isCut
                rw [isLines, List.drop_succ_cons] at member
                split at isCut
                · rw [isCut] at member
                  exact member
                · cases isCut
                  exact List.mem_of_mem_drop member
        · rw [dropLeading, if_neg blank] at again
          have fixed : first.drop 9999 = [] := by
            rcases again with same | ⟨front, kept, isFront, isKept, -⟩
            · have lines := congrArg (splitChars '\n') same
              rw [split_join (cleanCut clean) (by simp), split_join clean (by simp)] at lines
              exact eq_nil_of_drop_eq (List.cons.inj lines).1
            · cases isKept
              exact absurd isFront blank
          rw [fixed] at blank
          exact absurd rfl blank

/-- Dedenting keeps a text exactly when `Dedents` says so. -/
theorem dedent_keeps_iff (ignorecomments : Bool) (content : List Char) :
    KeepsText ignorecomments content ↔ Dedents ignorecomments content := by
  constructor
  · intro keeps
    by_cases counted : ∃ line ∈ splitChars '\n' content, counts ignorecomments line = true
    · right
      obtain ⟨line, member, countsLine, isLeast⟩ := (keeps.minimal counted).1
      refine ⟨line, member, countsLine, isLeast.trans_le leastChars_le, ?_⟩
      intro other isOther
      by_cases blank : isBlank other = true
      · exact Or.inl blank
      · right
        rw [isLeast]
        exact (take_blank_iff (by simpa using blank) _).mp (keeps.blanks other isOther)
    · left
      apply blank_of_keepsText keeps
      intro line member
      by_contra countsLine
      exact counted ⟨line, member, by simpa using countsLine⟩
  · intro dedents
    rcases dedents with ⟨blank, short⟩ | ⟨line, member, counted, low, least⟩
    · exact keepsText_of_blank blank short
    · exact keepsText_of_counted member counted low least

end

/-- A comment at the margin loses its first characters. -/
theorem comment_is_cut : ¬ ∀ (ignorecomments : Bool) (content : List Char),
    KeepsText ignorecomments content := by
  intro all
  have blanks := (all true "    a = 1\n# note".toList).blanks "# note".toList (by decide) '#'
    (by decide)
  exact absurd blanks (by decide)

end JumpscaleX.TextTools
