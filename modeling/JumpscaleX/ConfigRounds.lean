import JumpscaleX.ConfigFiles
import JumpscaleX.ProfileLists

/-!
# Configurations that are saved and loaded

What a written value is read as, and the configurations that come back from any number of
saves and loads.
-/

namespace JumpscaleX.ConfigFiles

open Fallible PyText Profiles
open Letters (toNat_toUpper)

/-! ## Stripped texts -/

section

variable {drop : Char → Bool} {text : Text}

theorem strip_cons {first : Char} (dropped : drop first = true) :
    StringType.strip drop (first :: text) = StringType.strip drop text := by
  rw [StringType.strip, StringType.strip, List.dropWhile_cons_of_pos dropped]

theorem strip_concat {last : Char} (dropped : drop last = true) :
    StringType.strip drop (text ++ [last]) = StringType.strip drop text := by
  rw [StringType.strip, StringType.strip, List.dropWhile_append]
  split
  case isTrue empty =>
    rw [List.isEmpty_iff.mp empty, List.dropWhile_cons_of_pos dropped]
    rfl
  case isFalse => rw [List.reverse_concat, List.dropWhile_cons_of_pos dropped]

/-- A text that stripping makes of a part of it was that part, and is not stripped. -/
theorem eq_of_strip {inner : Text} (part : inner.Sublist text)
    (same : StringType.strip drop inner = text) :
    inner = text ∧ StringType.strip drop text = text := by
  have short : (StringType.strip drop inner).Sublist inner := strip_sublist
  rw [same] at short
  have isText : inner = text := part.eq_of_length_le short.length_le
  rw [isText] at same
  exact ⟨isText, same⟩

theorem not_mem_strip {char : Char} (absent : char ∉ text) :
    char ∉ StringType.strip drop text :=
  fun member => absent (strip_sublist.subset member)

end

/-! ## Quotes -/

theorem ends_isTrimmed_iff {text : Text} :
    Ends isTrimmed text ↔ strip text = text ∧ stripChar '\'' text = text ∧
      stripChar '"' text = text := by
  have spaces : strip text = text ↔ Ends HostFile.isspace text := strip_eq_self_iff
  have singles : stripChar '\'' text = text ↔ Ends (· = '\'') text := strip_eq_self_iff
  have doubles : stripChar '"' text = text ↔ Ends (· = '"') text := strip_eq_self_iff
  rw [spaces, singles, doubles]
  simp only [Ends, isTrimmed, Bool.or_eq_false_iff]
  constructor
  · rintro ⟨first, last⟩
    exact ⟨⟨fun char here => (first char here).1.1, fun char here => (last char here).1.1⟩,
      ⟨fun char here => (first char here).1.2, fun char here => (last char here).1.2⟩,
      ⟨fun char here => (first char here).2, fun char here => (last char here).2⟩⟩
  · rintro ⟨⟨space, spaceLast⟩, ⟨single, singleLast⟩, double, doubleLast⟩
    exact ⟨fun char here => ⟨⟨space char here, single char here⟩, double char here⟩,
      fun char here => ⟨⟨spaceLast char here, singleLast char here⟩, doubleLast char here⟩⟩

theorem unquoted_of_ends {text : Text} (ends : Ends isTrimmed text) : unquoted text = text := by
  obtain ⟨spaces, singles, doubles⟩ := ends_isTrimmed_iff.mp ends
  rw [unquoted, spaces, singles, spaces, doubles, spaces]

/-- What is left of a quoted text. -/
def core (text : Text) : Text :=
  strip (stripChar '"' (strip (stripChar '\'' text)))

theorem unquoted_quoted (text : Text) : unquoted (quoted text) = core text := by
  have kept : strip (quoted text) = quoted text := by
    apply strip_eq_self_iff.mpr
    constructor
    · intro char first
      cases first
      rfl
    · intro char last
      rw [quoted, ← List.cons_append, List.getLast?_concat] at last
      cases last
      rfl
  have inner : stripChar '\'' (quoted text) = stripChar '\'' text :=
    (strip_cons rfl).trans (strip_concat rfl)
  rw [unquoted, kept, inner, core]

theorem core_eq_self_iff {text : Text} : core text = text ↔ Ends isTrimmed text := by
  constructor
  · intro same
    have single : (stripChar '\'' text).Sublist text := strip_sublist
    have middle : (strip (stripChar '\'' text)).Sublist text := strip_sublist.trans single
    have double : (stripChar '"' (strip (stripChar '\'' text))).Sublist text :=
      strip_sublist.trans middle
    obtain ⟨isDouble, spaces⟩ := eq_of_strip double same
    obtain ⟨isMiddle, doubles⟩ := eq_of_strip middle isDouble
    obtain ⟨isSingle, -⟩ := eq_of_strip single isMiddle
    exact ends_isTrimmed_iff.mpr ⟨spaces, isSingle, doubles⟩
  · intro ends
    obtain ⟨spaces, singles, doubles⟩ := ends_isTrimmed_iff.mp ends
    rw [core, singles, spaces, doubles, spaces]

theorem unquoted_blank (text : Text) : unquoted (' ' :: text) = unquoted text := by
  have inner : strip (' ' :: text) = strip text := strip_cons rfl
  rw [unquoted, unquoted, inner]

theorem not_mem_unquoted {char : Char} {text : Text} (absent : char ∉ text) :
    char ∉ unquoted text :=
  not_mem_strip (not_mem_strip (not_mem_strip (not_mem_strip (not_mem_strip absent))))

/-! ## Comments -/

theorem not_mem_uncommented (text : Text) : '#' ∉ uncommented text := by
  intro member
  have kept := List.mem_takeWhile_imp member
  simp at kept

theorem uncommented_of_not_mem {text : Text} (absent : '#' ∉ text) : uncommented text = text := by
  apply List.takeWhile_eq_self_iff.mpr
  intro char member
  rw [decide_eq_true_iff]
  rintro rfl
  exact absent member

/-! ## Texts that are read back -/

section

variable {numbers : Numbers} {text : Text}

theorem valueOf_eq_text_iff {val : Text} :
    valueOf numbers val = .text text ↔ val = text ∧
      val.map Char.toLower ∉ falseWords ++ trueWords ∧ '[' ∉ val ∧ numbers.int val = none := by
  rw [List.mem_append, not_or, valueOf]
  split
  case isTrue word => simp [word]
  case isFalse noFalse =>
    split
    case isTrue word => simp [word]
    case isFalse noTrue =>
      split
      case isTrue list => simp [list]
      case isFalse noList =>
        cases isNumber : numbers.int val with
        | some number => simp
        | none => simp [noFalse, noTrue, noList]

/-- A text that is written, and nothing else, is read as it stands. -/
structure PlainText (numbers : Numbers) (text : Text) : Prop where
  noComment : '#' ∉ text
  ends : Ends isTrimmed text
  noWord : text.map Char.toLower ∉ falseWords ++ trueWords
  noList : '[' ∉ text
  noNumber : numbers.int text = none

theorem readValue_quoted (noComment : '#' ∉ text) :
    readValue numbers (' ' :: quoted text) = valueOf numbers (core text) := by
  have whole : uncommented (' ' :: quoted text) = ' ' :: quoted text :=
    uncommented_of_not_mem (by simp [quoted, noComment])
  rw [readValue, whole, unquoted_blank, unquoted_quoted]

theorem readValue_text_iff :
    readValue numbers (' ' :: writeValue (.text text)) = .text text ↔
      PlainText numbers text := by
  rw [writeValue]
  constructor
  · intro same
    obtain ⟨isText, -⟩ := valueOf_eq_text_iff.mp same
    have noComment : '#' ∉ text := by
      rw [← isText]
      exact not_mem_unquoted (not_mem_uncommented _)
    rw [readValue_quoted noComment] at same
    obtain ⟨isCore, noWord, noList, noNumber⟩ := valueOf_eq_text_iff.mp same
    rw [isCore] at noWord noList noNumber
    exact ⟨noComment, core_eq_self_iff.mp isCore, noWord, noList, noNumber⟩
  · intro plain
    have isCore := core_eq_self_iff.mpr plain.ends
    rw [readValue_quoted plain.noComment, isCore]
    exact valueOf_eq_text_iff.mpr ⟨rfl, plain.noWord, plain.noList, plain.noNumber⟩

end

/-! ## Lists that are read back -/

section

variable {numbers : Numbers} {items : List Text}

/-- An item that is written, and nothing else, is read as it stands. -/
structure PlainItem (item : Text) : Prop where
  noComment : '#' ∉ item
  noComma : ',' ∉ item
  ends : Ends isTrimmed item

theorem valueOf_eq_list {val : Text} (isList : valueOf numbers val = .list items) :
    items = readItems val := by
  rw [valueOf] at isList
  split at isList
  case isTrue => cases isList
  case isFalse =>
    split at isList
    case isTrue => cases isList
    case isFalse =>
      split at isList
      case isTrue => exact (Value.list.inj isList).symm
      case isFalse =>
        split at isList
        all_goals cases isList

theorem not_mem_of_mem_splitChars {separator char : Char} {text part : Text}
    (member : part ∈ splitChars separator text) (absent : char ∉ text) : char ∉ part := by
  rw [TextTools.splitChars_eq_splitOn] at member
  exact fun inside => absent (Separated.mem_of_mem_splitOn member inside)

theorem not_mem_of_mem_readItems {char : Char} {val item : Text} (member : item ∈ readItems val)
    (absent : char ∉ val) : char ∉ item := by
  obtain ⟨part, isPart, rfl⟩ := List.mem_map.mp member
  exact not_mem_unquoted (not_mem_of_mem_splitChars (List.mem_of_mem_filter isPart)
    (not_mem_strip (not_mem_strip absent)))

theorem comma_not_mem_of_mem_readItems {val item : Text} (member : item ∈ readItems val) :
    ',' ∉ item := by
  obtain ⟨part, isPart, rfl⟩ := List.mem_map.mp member
  apply not_mem_unquoted
  have isSplit := List.mem_of_mem_filter isPart
  rw [TextTools.splitChars_eq_splitOn] at isSplit
  exact Separated.not_mem_of_mem_splitOn isSplit

/-- The items between the brackets. -/
def inner (items : List Text) : Text :=
  [','].intercalate (items.map quoted)

theorem quoted_ends (text : Text) :
    (quoted text).head? = some '\'' ∧ (quoted text).getLast? = some '\'' := by
  refine ⟨rfl, ?_⟩
  rw [quoted, ← List.cons_append, List.getLast?_concat]

theorem inner_cons (item : Text) {items : List Text} (some : items ≠ []) :
    inner (item :: items) = quoted item ++ ',' :: inner items := by
  have others : items.map quoted ≠ [] := by simpa using some
  exact Separated.join_cons (quoted item) others

/-- The items start and end with a quote. -/
theorem inner_ends {items : List Text} (some : items ≠ []) :
    (inner items).head? = Option.some '\'' ∧ (inner items).getLast? = Option.some '\'' := by
  induction items with
  | nil => exact absurd rfl some
  | cons item items induction =>
      cases items with
      | nil =>
          have whole : inner [item] = quoted item := Separated.join_singleton (quoted item)
          rw [whole]
          exact quoted_ends item
      | cons next items =>
          obtain ⟨-, last⟩ := induction (List.cons_ne_nil _ _)
          rw [inner_cons item (List.cons_ne_nil _ _)]
          refine ⟨rfl, ?_⟩
          rw [List.getLast?_append, List.getLast?_cons, last]
          rfl

theorem stripChar_inner (items : List Text) {char : Char} (other : char ≠ '\'') :
    stripChar char (inner items) = inner items := by
  apply strip_eq_self_iff.mpr
  cases items with
  | nil =>
      constructor
      · intro first isFirst
        cases isFirst
      · intro last isLast
        cases isLast
  | cons item items =>
      obtain ⟨head, final⟩ := inner_ends (List.cons_ne_nil item items)
      constructor
      · intro first isFirst
        rw [head] at isFirst
        cases isFirst
        simpa using Ne.symm other
      · intro last isLast
        rw [final] at isLast
        cases isLast
        simpa using Ne.symm other

theorem flatMap_quoted {items : List Text} (some : items ≠ []) :
    items.flatMap (fun item => quoted item ++ [',']) = inner items ++ [','] := by
  induction items with
  | nil => exact absurd rfl some
  | cons item items induction =>
      cases items with
      | nil =>
          have whole : inner [item] = quoted item := Separated.join_singleton (quoted item)
          simp [whole]
      | cons next items =>
          rw [List.flatMap_cons, induction (List.cons_ne_nil _ _),
            inner_cons item (List.cons_ne_nil _ _)]
          simp

theorem rstripChar_concat {char : Char} {text : Text} (last : text.getLast? ≠ some char) :
    rstripChar char (text ++ [char]) = text := by
  have stops : text.reverse.dropWhile (· = char) = text.reverse := by
    cases isReversed : text.reverse with
    | nil => rfl
    | cons final others =>
        rw [List.dropWhile_cons_of_neg]
        intro same
        apply last
        rw [← List.head?_reverse, isReversed, List.head?_cons]
        simpa using same
  rw [rstripChar, List.reverse_concat, List.dropWhile_cons_of_pos (by simp), stops,
    List.reverse_reverse]

theorem writeValue_list (items : List Text) :
    writeValue (.list items) = '[' :: (inner items ++ [']']) := by
  cases items with
  | nil => rfl
  | cons item items =>
      have some : item :: items ≠ [] := List.cons_ne_nil _ _
      have last : ('[' :: inner (item :: items)).getLast? ≠ Option.some ',' := by
        rw [List.getLast?_cons, (inner_ends some).2]
        decide
      rw [writeValue, flatMap_quoted some, ← List.cons_append, rstripChar_concat last,
        List.cons_append]

theorem strip_quoted (text : Text) : strip (quoted text) = quoted text := by
  obtain ⟨head, final⟩ := quoted_ends text
  apply strip_eq_self_iff.mpr
  constructor
  · intro first isFirst
    rw [head] at isFirst
    cases isFirst
    rfl
  · intro last isLast
    rw [final] at isLast
    cases isLast
    rfl

theorem readItems_list {items : List Text} (noComma : ∀ item ∈ items, ',' ∉ item) :
    readItems ('[' :: (inner items ++ [']'])) = items.map core := by
  have opened : stripChar '[' ('[' :: (inner items ++ [']'])) = inner items ++ [']'] := by
    have first : stripChar '[' ('[' :: (inner items ++ [']'])) =
        stripChar '[' (inner items ++ [']']) := strip_cons rfl
    rw [first]
    apply strip_eq_self_iff.mpr
    constructor
    · intro char isFirst
      cases items with
      | nil =>
          cases isFirst
          rfl
      | cons item items =>
          rw [List.head?_append, (inner_ends (List.cons_ne_nil item items)).1] at isFirst
          cases isFirst
          rfl
    · intro char isLast
      rw [List.getLast?_concat] at isLast
      cases isLast
      rfl
  have closed : stripChar ']' (inner items ++ [']']) = inner items := by
    have last : stripChar ']' (inner items ++ [']']) = stripChar ']' (inner items) :=
      strip_concat rfl
    rw [last, stripChar_inner items (by decide)]
  rw [readItems, opened, closed]
  cases items with
  | nil =>
      have isSplit : splitChars ',' (inner []) = [[]] := rfl
      have nothing : strip [] = [] := rfl
      rw [isSplit]
      simp [nothing]
  | cons item items =>
      have clean : ∀ part ∈ (item :: items).map quoted, ',' ∉ part := by
        intro part member
        obtain ⟨item, isItem, rfl⟩ := List.mem_map.mp member
        simp [quoted, noComma item isItem]
      have isSplit : splitChars ',' (inner (item :: items)) = (item :: items).map quoted := by
        rw [TextTools.splitChars_eq_splitOn, inner,
          List.splitOn_intercalate ',' clean (by simp)]
      have kept : ((item :: items).map quoted).filter (fun part => strip part ≠ []) =
          (item :: items).map quoted := by
        apply List.filter_eq_self.mpr
        intro part member
        obtain ⟨item, -, rfl⟩ := List.mem_map.mp member
        rw [strip_quoted]
        rfl
      rw [isSplit, kept, List.map_map]
      apply List.map_congr_left
      intro item _
      rw [Function.comp_apply, unquoted_quoted]

theorem valueOf_list (rest : Text) :
    valueOf numbers ('[' :: rest) = .list (readItems ('[' :: rest)) := by
  have lowered : ('[' :: rest).map Char.toLower = '[' :: rest.map Char.toLower := rfl
  have noFalse : '[' :: rest.map Char.toLower ∉ falseWords := by simp [falseWords]
  have noTrue : '[' :: rest.map Char.toLower ∉ trueWords := by simp [trueWords]
  rw [valueOf, lowered, if_neg noFalse, if_neg noTrue, if_pos List.mem_cons_self]

theorem not_mem_inner {char : Char} (absent : ∀ item ∈ items, char ∉ item)
    (noQuote : char ≠ '\'') (noComma : char ≠ ',') : char ∉ inner items := by
  induction items with
  | nil => exact List.not_mem_nil
  | cons item items induction =>
      obtain ⟨first, others⟩ := List.forall_mem_cons.mp absent
      have here : char ∉ quoted item := by simp [quoted, first, noQuote]
      cases items with
      | nil =>
          have whole : inner [item] = quoted item := Separated.join_singleton (quoted item)
          rw [whole]
          exact here
      | cons next items =>
          rw [inner_cons item (List.cons_ne_nil _ _)]
          simp [here, noComma, induction others]

theorem readValue_list (noComment : ∀ item ∈ items, '#' ∉ item)
    (noComma : ∀ item ∈ items, ',' ∉ item) :
    readValue numbers (' ' :: writeValue (.list items)) = .list (items.map core) := by
  have noInner : '#' ∉ inner items := not_mem_inner noComment (by decide) (by decide)
  have whole : uncommented (' ' :: '[' :: (inner items ++ [']'])) =
      ' ' :: '[' :: (inner items ++ [']']) :=
    uncommented_of_not_mem (by simp [noInner])
  have ends : Ends isTrimmed ('[' :: (inner items ++ [']'])) := by
    constructor
    · intro char first
      cases first
      rfl
    · intro char last
      rw [← List.cons_append, List.getLast?_concat] at last
      cases last
      rfl
  rw [readValue, writeValue_list, whole, unquoted_blank, unquoted_of_ends ends, valueOf_list,
    readItems_list noComma]

theorem readValue_list_iff :
    readValue numbers (' ' :: writeValue (.list items)) = .list items ↔
      ∀ item ∈ items, PlainItem item := by
  constructor
  · intro same
    have isRead := valueOf_eq_list same
    have noComment : ∀ item ∈ items, '#' ∉ item := by
      intro item member
      rw [isRead] at member
      exact not_mem_of_mem_readItems member (not_mem_unquoted (not_mem_uncommented _))
    have noComma : ∀ item ∈ items, ',' ∉ item := by
      intro item member
      rw [isRead] at member
      exact comma_not_mem_of_mem_readItems member
    rw [readValue_list noComment noComma] at same
    have cores : items.map core = items.map id := by
      rw [List.map_id]
      exact Value.list.inj same
    intro item member
    exact ⟨noComment item member, noComma item member,
      core_eq_self_iff.mp (List.map_inj_left.mp cores item member)⟩
  · intro plain
    rw [readValue_list (fun item member => (plain item member).noComment)
      (fun item member => (plain item member).noComma)]
    have cores : items.map core = items.map id :=
      List.map_inj_left.mpr (fun item member => core_eq_self_iff.mpr (plain item member).ends)
    rw [cores, List.map_id]

end

/-! ## Numbers and truth values -/

section

variable {numbers : Numbers}

theorem code_of_mem_str {number : Int} {char : Char} (member : char ∈ VFS.str number) :
    char.toNat = 45 ∨ (48 ≤ char.toNat ∧ char.toNat ≤ 57) := by
  rcases VFS.of_mem_str member with rfl | digit
  · exact Or.inl rfl
  · simp only [Char.isDigit, Bool.and_eq_true, decide_eq_true_eq, ge_iff_le,
      UInt32.le_iff_toNat_le] at digit
    exact Or.inr digit

theorem str_ne_nil (number : Int) : VFS.str number ≠ [] := by
  intro empty
  have isNumber := VFS.pyInt_str number
  rw [empty] at isNumber
  cases isNumber

/-- A value whose text starts with no letter and has no bracket is no word and no list. -/
theorem valueOf_number {number : Int} {text : Text} (isNumber : numbers.int text = some number)
    (codes : ∀ char ∈ text, char.toNat = 45 ∨ (48 ≤ char.toNat ∧ char.toNat ≤ 57))
    (some : text ≠ []) : valueOf numbers text = .int number := by
  have noList : '[' ∉ text := by
    intro member
    have code := codes '[' member
    simp at code
  have noLetter : ∀ words : List Text,
      (∀ word ∈ words, ∀ char, word.head? = Option.some char → 97 ≤ char.toNat) →
        text.map Char.toLower ∉ words := by
    intro words letters member
    cases isText : text with
    | nil => exact some isText
    | cons char rest =>
        rw [isText] at member codes
        have letter := letters _ member char.toLower rfl
        have code := codes char List.mem_cons_self
        rw [Letters.toNat_toLower] at letter
        split at letter
        all_goals omega
  have noFalse : text.map Char.toLower ∉ falseWords := noLetter falseWords (by simp [falseWords])
  have noTrue : text.map Char.toLower ∉ trueWords := noLetter trueWords (by simp [trueWords])
  rw [valueOf, if_neg noFalse, if_neg noTrue, if_neg noList, isNumber]

theorem readValue_int (number : Int) :
    readValue numbers (' ' :: writeValue (.int number)) = .int number := by
  have noComment : '#' ∉ ' ' :: VFS.str number := by
    intro member
    rcases List.mem_cons.mp member with blank | inNumber
    · cases blank
    · have code := code_of_mem_str inNumber
      simp at code
  have trimmed : ∀ char ∈ VFS.str number, isTrimmed char = false := by
    intro char member
    have code := code_of_mem_str member
    rw [Bool.eq_false_iff]
    intro blank
    simp only [isTrimmed, HostFile.isspace, Bool.or_eq_true, Bool.and_eq_true, decide_eq_true_eq,
      beq_iff_eq] at blank
    rcases blank with (space | rfl) | rfl
    · omega
    · simp at code
    · simp at code
  have ends : Ends isTrimmed (VFS.str number) :=
    ⟨fun char first => trimmed char (List.mem_of_mem_head? first),
      fun char last => trimmed char (List.mem_of_getLast? last)⟩
  rw [readValue, writeValue, uncommented_of_not_mem noComment, unquoted_blank,
    unquoted_of_ends ends]
  exact valueOf_number (numbers.int_str number) (fun char => code_of_mem_str) (str_ne_nil number)

theorem readValue_bool (flag : Bool) :
    readValue numbers (' ' :: writeValue (.bool flag)) = .bool flag := by
  cases flag with
  | false => rfl
  | true => rfl

end

/-! ## Lines -/

/-- A value that a line can hold. -/
def Value.OneLine : Value → Prop
  | .text read => '\n' ∉ read ∧ '\r' ∉ read
  | .int _ => True
  | .bool _ => True
  | .list items => ∀ item ∈ items, '\n' ∉ item ∧ '\r' ∉ item

/-- A value that is written, and nothing else, is read as it stands. -/
def Value.Plain (numbers : Numbers) : Value → Prop
  | .text read => PlainText numbers read
  | .int _ => True
  | .bool _ => True
  | .list items => ∀ item ∈ items, PlainItem item

theorem readValue_iff (numbers : Numbers) (value : Value) :
    readValue numbers (' ' :: writeValue value) = value ↔ value.Plain numbers := by
  cases value with
  | text text => exact readValue_text_iff
  | int number => exact iff_of_true (readValue_int number) trivial
  | bool flag => exact iff_of_true (readValue_bool flag) trivial
  | list items => exact readValue_list_iff

theorem not_mem_writeValue {value : Value} {char : Char} (isBreak : char = '\n' ∨ char = '\r')
    (oneLine : value.OneLine) : char ∉ writeValue value := by
  cases value with
  | text text =>
      have absent : char ∉ text := by
        rcases isBreak with rfl | rfl
        · exact oneLine.1
        · exact oneLine.2
      have noQuote : char ≠ '\'' := by
        rintro rfl
        simp at isBreak
      simp [writeValue, quoted, absent, noQuote]
  | int number =>
      intro member
      have code := code_of_mem_str member
      rcases isBreak with rfl | rfl
      · simp at code
      · simp at code
  | bool flag =>
      rcases isBreak with rfl | rfl
      · cases flag with
        | false => decide
        | true => decide
      · cases flag with
        | false => decide
        | true => decide
  | list items =>
      have absent : ∀ item ∈ items, char ∉ item := by
        intro item member
        rcases isBreak with rfl | rfl
        · exact (oneLine item member).1
        · exact (oneLine item member).2
      have other : ∀ mark : Char, mark ≠ '\n' → mark ≠ '\r' → char ≠ mark := by
        rintro mark noLine noReturn rfl
        exact isBreak.elim noLine noReturn
      have noInner := not_mem_inner absent (other '\'' (by decide) (by decide))
        (other ',' (by decide) (by decide))
      simp [writeValue_list, noInner, other '[' (by decide) (by decide),
        other ']' (by decide) (by decide)]

/-! ## Keys -/

/-- A character of an identifier whose letters are all large, or all small. -/
def isKeyChar (lower : Bool) (char : Char) : Bool :=
  (if lower then char.isLower else char.isUpper) || char.isDigit || char = '_'

structure IsKey (lower : Bool) (key : Text) : Prop where
  notEmpty : key ≠ []
  plain : ∀ char ∈ key, isKeyChar lower char = true

theorem isKeyChar_iff (lower : Bool) (char : Char) : isKeyChar lower char = true ↔
    (if lower then 97 ≤ char.toNat ∧ char.toNat ≤ 122 else 65 ≤ char.toNat ∧ char.toNat ≤ 90) ∨
      (48 ≤ char.toNat ∧ char.toNat ≤ 57) ∨ char.toNat = 95 := by
  have line : char = '_' ↔ char.toNat = 95 := Char.toNat_inj.symm
  cases lower with
  | false =>
      simp only [isKeyChar, Bool.or_eq_true, Letters.isUpper_iff, Letters.isDigit_iff,
        decide_eq_true_eq, line, or_assoc, Bool.false_eq_true, if_false]
  | true =>
      simp only [isKeyChar, Bool.or_eq_true, Letters.isLower_iff, Letters.isDigit_iff,
        decide_eq_true_eq, line, or_assoc, if_true]

section

variable {lower : Bool} {key : Text} (isKey : IsKey lower key)

include isKey

/-- A key as it is written. -/
theorem IsKey.upper : IsKey false (key.map Char.toUpper) := by
  refine ⟨by simpa using isKey.notEmpty, ?_⟩
  intro char member
  obtain ⟨other, isOther, rfl⟩ := List.mem_map.mp member
  have code := (isKeyChar_iff lower other).mp (isKey.plain other isOther)
  apply (isKeyChar_iff false _).mpr
  rw [toNat_toUpper]
  cases lower with
  | false =>
      simp only [Bool.false_eq_true, if_false] at code ⊢
      split
      all_goals omega
  | true =>
      simp only [if_true, Bool.false_eq_true, if_false] at code ⊢
      split
      all_goals omega

/-- A key as it is read again. -/
theorem IsKey.read_again :
    (if lower then ((key.map Char.toUpper).map Char.toUpper).map Char.toLower
      else (key.map Char.toUpper).map Char.toUpper) = key := by
  have back : ∀ char ∈ key,
      (if lower then char.toUpper.toUpper.toLower else char.toUpper.toUpper) = char := by
    intro char member
    have code := (isKeyChar_iff lower char).mp (isKey.plain char member)
    have once := toNat_toUpper char
    have twice := toNat_toUpper char.toUpper
    apply Char.toNat_inj.mp
    cases lower with
    | false =>
        simp only [Bool.false_eq_true, if_false] at code ⊢
        rw [if_neg (by omega)] at once
        rw [twice, once, if_neg (by omega)]
    | true =>
        have lowered := Letters.toNat_toLower char.toUpper.toUpper
        simp only [if_true] at code ⊢
        split at once
        all_goals
          rw [if_neg (by omega)] at twice
          rw [twice] at lowered
          split at lowered
          all_goals omega
  cases lower with
  | false =>
      rw [if_neg Bool.false_ne_true, List.map_map]
      exact (List.map_congr_left back).trans (List.map_id key)
  | true =>
      rw [if_pos rfl, List.map_map, List.map_map]
      exact (List.map_congr_left back).trans (List.map_id key)

theorem IsKey.solid : ∀ char ∈ key, HostFile.isspace char = false := by
  intro char member
  have code := (isKeyChar_iff lower char).mp (isKey.plain char member)
  rw [Bool.eq_false_iff]
  intro space
  simp only [HostFile.isspace, Bool.or_eq_true, Bool.and_eq_true, decide_eq_true_eq,
    beq_iff_eq] at space
  cases lower with
  | false =>
      simp only [Bool.false_eq_true, if_false] at code
      omega
  | true =>
      simp only [if_true] at code
      omega

theorem IsKey.not_mem {char : Char} (other : isKeyChar lower char = false) : char ∉ key := by
  intro member
  rw [isKey.plain char member] at other
  cases other

end

/-! ## Lines -/

section

variable {numbers : Numbers} {lower : Bool} {key : Text} {value : Value}

/-- A line that is written sets its key to what its value is read as. -/
theorem loadLine_write (isKey : IsKey lower key) (res : Dict Text Value) :
    loadLine numbers lower res (writeLine true key value) =
      .ok (res.put key (readValue numbers (' ' :: writeValue value))) := by
  have upper := isKey.upper
  have noEq : ∀ char ∈ key.map Char.toUpper ++ [' '], decide (char ≠ '=') = true := by
    intro char member
    rw [decide_eq_true_iff]
    rintro rfl
    rcases List.mem_append.mp member with inKey | blank
    · exact upper.not_mem rfl inKey
    · simp at blank
  have whole : writeLine true key value =
      (key.map Char.toUpper ++ [' ']) ++ '=' :: ' ' :: writeValue value := by
    simp [writeLine]
  have taken : (writeLine true key value).takeWhile (· ≠ '=') =
      key.map Char.toUpper ++ [' '] := by
    rw [whole, List.takeWhile_append_of_pos noEq]
    simp
  have left : ((writeLine true key value).dropWhile (· ≠ '=')).drop 1 =
      ' ' :: writeValue value := by
    rw [whole, List.dropWhile_append_of_pos noEq]
    rfl
  have isKeyText : strip (key.map Char.toUpper ++ [' ']) = key.map Char.toUpper :=
    (strip_concat rfl).trans (VFS.strip_of_forall_not upper.solid)
  have someLine : strip (writeLine true key value) ≠ [] := by
    intro blank
    have blanks := Scalars.space_of_strip blank
    have equals : '=' ∈ writeLine true key value := by simp [writeLine]
    exact absurd (blanks '=' equals) (by decide)
  have noComment : (writeLine true key value).head? ≠ some '#' := by
    intro first
    rw [whole, List.append_assoc, List.head?_append_of_ne_nil _ upper.notEmpty] at first
    exact upper.not_mem rfl (List.mem_of_mem_head? first)
  have equals : '=' ∈ writeLine true key value := by simp [writeLine]
  have again := isKey.read_again
  rw [loadLine, if_neg someLine, if_neg noComment, if_pos equals, taken, left, isKeyText]
  dsimp only
  rw [again]

theorem not_mem_writeLine (isKey : IsKey lower key) (oneLine : value.OneLine) {char : Char}
    (isBreak : char = '\n' ∨ char = '\r') : char ∉ writeLine true key value := by
  have noKey : char ∉ key.map Char.toUpper := by
    rcases isBreak with rfl | rfl
    · exact isKey.upper.not_mem rfl
    · exact isKey.upper.not_mem rfl
  have noValue := not_mem_writeValue isBreak oneLine
  have noMark : char ≠ ' ' ∧ char ≠ '=' := by
    rcases isBreak with rfl | rfl
    · decide
    · decide
  rw [writeLine, if_pos rfl]
  simp [noKey, noMark, noValue]

end

/-! ## Configurations -/

/-- A configuration with its keys in large letters, or in small letters where they are loaded
so. -/
structure Config (keysLower : Bool) where
  data : Dict Text Value
  keys : ∀ entry ∈ data.entries, IsKey keysLower entry.1
  oneLine : ∀ entry ∈ data.entries, entry.2.OneLine

section

variable {numbers : Numbers} {keysLower : Bool}

/-- The line of an entry. -/
def lineOf (entry : Text × Value) : Text :=
  writeLine true entry.1 entry.2

/-- What an entry is read as. -/
def readEntry (numbers : Numbers) (entry : Text × Value) : Text × Value :=
  (entry.1, readValue numbers (' ' :: writeValue entry.2))

theorem readEntry_eq_iff (entry : Text × Value) :
    readEntry numbers entry = entry ↔ entry.2.Plain numbers := by
  obtain ⟨key, value⟩ := entry
  rw [readEntry, Prod.mk.injEq, and_iff_right rfl]
  exact readValue_iff numbers value

theorem load_lines {entries : List (Text × Value)} (res : Dict Text Value)
    (keys : ∀ entry ∈ entries, IsKey keysLower entry.1)
    (distinct : ((res.entries ++ entries).map Prod.fst).Nodup) :
    ∃ loaded, (entries.map lineOf ++ [[]]).foldlM (loadLine numbers keysLower) res =
        Except.ok loaded ∧
      loaded.entries = res.entries ++ entries.map (readEntry numbers) := by
  induction entries generalizing res with
  | nil => exact ⟨res, rfl, by simp⟩
  | cons entry entries induction =>
      obtain ⟨isKey, others⟩ := List.forall_mem_cons.mp keys
      have absent : entry.1 ∉ res.entries.map Prod.fst := by
        intro member
        rw [List.map_append, List.map_cons] at distinct
        exact (List.nodup_append.mp distinct).2.2 _ member _ List.mem_cons_self rfl
      have isRead : readEntry numbers entry =
          (entry.1, readValue numbers (' ' :: writeValue entry.2)) := rfl
      rw [List.map_cons, List.map_cons, List.cons_append, List.foldlM_cons, lineOf,
        loadLine_write isKey, isRead]
      generalize readValue numbers (' ' :: writeValue entry.2) = value
      have put : (res.put entry.1 value).entries = res.entries ++ [(entry.1, value)] :=
        Dict.putEntries_of_not_mem absent
      have keysKept : (((res.put entry.1 value).entries ++ entries).map Prod.fst).Nodup := by
        rw [put]
        simpa using distinct
      obtain ⟨loaded, isLoaded, isEntries⟩ := induction _ others keysKept
      exact ⟨loaded, isLoaded, by rw [isEntries, put]; simp⟩

theorem fileTextRead_eq {text : Text} (noReturn : '\r' ∉ text) : fileTextRead text = text := by
  induction text with
  | nil => rfl
  | cons char text induction =>
      rw [List.mem_cons, not_or] at noReturn
      rw [fileTextRead, induction noReturn.2]
      · rintro text same -
        exact noReturn.1 same.symm
      · rintro same
        exact noReturn.1 same.symm

variable (config : Config keysLower)

theorem configSave_eq (data : Dict Text Value) :
    configSave data true = Lines.text '\n' (data.entries.map lineOf) [] := by
  simp [configSave, Lines.text, List.flatMap_map, lineOf]

/-- What is loaded of a configuration that was saved. -/
theorem reload_entries : ∃ loaded, reload numbers keysLower config.data = .ok loaded ∧
    loaded.entries = config.data.entries.map (readEntry numbers) := by
  have clean : ∀ char : Char, char = '\n' ∨ char = '\r' →
      ∀ line ∈ config.data.entries.map lineOf, char ∉ line := by
    intro char isBreak line member
    obtain ⟨entry, isEntry, rfl⟩ := List.mem_map.mp member
    exact not_mem_writeLine (config.keys entry isEntry) (config.oneLine entry isEntry) isBreak
  have noReturn : '\r' ∉ configSave config.data true := by
    rw [configSave_eq, Lines.mem_text_iff (by decide)]
    rintro (⟨line, member, inside⟩ | inside)
    · exact clean '\r' (Or.inr rfl) line member inside
    · cases inside
  have isSplit : splitChars '\n' (configSave config.data true) =
      config.data.entries.map lineOf ++ [[]] := by
    rw [TextTools.splitChars_eq_splitOn, configSave_eq,
      Lines.splitOn_text (clean '\n' (Or.inl rfl)) List.not_mem_nil]
  obtain ⟨loaded, isLoaded, isEntries⟩ :=
    @load_lines numbers keysLower config.data.entries Dict.empty config.keys config.data.nodup
  refine ⟨loaded, ?_, isEntries⟩
  rw [reload, configLoad, fileTextRead_eq noReturn, isSplit]
  exact isLoaded

theorem reload_iff : reload numbers keysLower config.data = .ok config.data ↔
    ∀ entry ∈ config.data.entries, entry.2.Plain numbers := by
  obtain ⟨loaded, isLoaded, isEntries⟩ := @reload_entries numbers keysLower config
  have same : loaded = config.data ↔
      config.data.entries.map (readEntry numbers) = config.data.entries.map id := by
    rw [List.map_id, ← isEntries]
    constructor
    · intro equal
      rw [equal]
    · intro equal
      obtain ⟨entries, nodup⟩ := loaded
      cases config with
      | mk data keys oneLine =>
          obtain ⟨others, _⟩ := data
          cases equal
          rfl
  rw [isLoaded, Except.ok.injEq, same, List.map_inj_left]
  exact forall₂_congr (fun entry _ => readEntry_eq_iff entry)

end

/-- The configuration comes back from any number of saves and loads. -/
def AsClaimed (numbers : Numbers) {keysLower : Bool} (config : Config keysLower) : Prop :=
  ∀ rounds, reloads numbers keysLower rounds config.data = .ok config.data

def asciiNumbers : Numbers where
  int := fun text => (PyText.int (String.ofList text)).toOption
  int_str := by
    intro number
    rw [VFS.pyInt_str]
    rfl

/-- `{"NAME": "yes"}` -/
def yesConfig : Config false where
  data := ⟨[("NAME".toList, .text "yes".toList)], by simp⟩
  keys := by
    intro entry member
    rw [List.mem_singleton.mp member]
    exact ⟨by simp, List.all_eq_true.mp rfl⟩
  oneLine := by
    intro entry member
    rw [List.mem_singleton.mp member]
    exact ⟨by decide, by decide⟩

end JumpscaleX.ConfigFiles
