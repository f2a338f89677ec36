import JumpscaleX.MacroArgs
import JumpscaleX.GitUrlForms

/-!
# Pieces of a call

What each written argument of a macro adds to the positional arguments and to the keywords
that are read.
-/

namespace JumpscaleX.MacroArgs

open Fallible Profiles
open ConfigFiles (strip_cons strip_concat eq_of_strip)
open PyText (splitChars)

/-! ## Stripped texts -/

section

variable {drop : Char → Bool}

theorem strip_append_left {blanks : Text} (dropped : ∀ blank ∈ blanks, drop blank = true)
    (text : Text) : StringType.strip drop (blanks ++ text) = StringType.strip drop text := by
  induction blanks with
  | nil => rfl
  | cons blank blanks induction =>
      rw [List.cons_append, strip_cons (dropped blank List.mem_cons_self)]
      exact induction (fun other member => dropped other (List.mem_cons_of_mem _ member))

theorem strip_append_right {blanks : Text} (dropped : ∀ blank ∈ blanks, drop blank = true)
    (text : Text) : StringType.strip drop (text ++ blanks) = StringType.strip drop text := by
  induction blanks using List.reverseRecOn with
  | nil => rw [List.append_nil]
  | append_singleton blanks blank induction =>
      rw [← List.append_assoc, strip_concat (dropped blank (by simp))]
      exact induction (fun other member => dropped other (List.mem_append_left _ member))

theorem rdropWhile_append {back : Text} (some : ∃ char ∈ back, drop char = false)
    (front : Text) : (front ++ back).rdropWhile drop = front ++ back.rdropWhile drop := by
  induction back using List.reverseRecOn with
  | nil =>
      obtain ⟨char, member, _⟩ := some
      cases member
  | append_singleton back last induction =>
      rw [← List.append_assoc]
      by_cases dropped : drop last = true
      · rw [List.rdropWhile_concat_pos _ _ _ dropped, List.rdropWhile_concat_pos _ _ _ dropped]
        apply induction
        obtain ⟨char, member, kept⟩ := some
        rcases List.mem_append.mp member with inBack | isLast
        · exact ⟨char, inBack, kept⟩
        · rw [List.mem_singleton.mp isLast, dropped] at kept
          cases kept
      · rw [List.rdropWhile_concat_neg _ _ _ dropped, List.rdropWhile_concat_neg _ _ _ dropped,
          List.append_assoc]

theorem rdropWhile_decomposed (drop : Char → Bool) (text : Text) :
    ∃ dropped, text = text.rdropWhile drop ++ dropped ∧ ∀ char ∈ dropped, drop char = true := by
  refine ⟨text.rtakeWhile drop, List.rdropWhile_append_rtakeWhile.symm, ?_⟩
  intro char member
  exact List.mem_rtakeWhile_imp member

/-- A text that starts with a character that stays is stripped at its end only. -/
theorem strip_of_head {first : Char} (kept : drop first = false) (rest : Text) :
    StringType.strip drop (first :: rest) = (first :: rest).rdropWhile drop := by
  rw [StringType.strip, List.dropWhile_cons_of_neg (by simp [kept]), List.rdropWhile]

end

theorem rdropWhile_of_last {drop : Char → Bool} {text : Text}
    (kept : ∀ char, text.getLast? = some char → drop char = false) :
    text.rdropWhile drop = text := by
  apply List.rdropWhile_eq_self_iff.mpr
  intro filled
  have last := kept _ (List.getLast?_eq_some_getLast filled)
  simp [last]

/-! ## Cut at commas -/

/-- Either there is no comma or the first piece ends at one. -/
theorem splitChars_cases (text : Text) :
    (',' ∉ text ∧ splitChars ',' text = [text]) ∨
      ∃ front back, text = front ++ ',' :: back ∧ ',' ∉ front ∧
        splitChars ',' text = front :: splitChars ',' back := by
  by_cases absent : ',' ∈ text
  · obtain ⟨front, back, isText, noComma⟩ := List.eq_append_cons_of_mem absent
    refine Or.inr ⟨front, back, isText, noComma, ?_⟩
    rw [isText, VFS.splitChars_append back noComma]
  · exact Or.inl ⟨absent, VFS.splitChars_of_not_mem absent⟩

theorem not_comma_of_mem {piece text : Text} (member : piece ∈ splitChars ',' text) :
    ',' ∉ piece := by
  rw [TextTools.splitChars_eq_splitOn] at member
  exact Separated.not_mem_of_mem_splitOn member

/-- The arguments with the blanks behind the commas. -/
def spaced (blanks : Text) : List Text → List Text
  | [] => []
  | item :: items => item :: items.map (blanks ++ ·)

theorem intercalate_cons (separator item : Text) (items : List Text) :
    separator.intercalate (item :: items) = item ++ items.flatMap (separator ++ ·) := by
  induction items generalizing item with
  | nil => simp
  | cons next items induction =>
      rw [List.intercalate_cons_cons, induction, List.flatMap_cons]
      simp

theorem intercalate_blanks (blanks : Text) (items : List Text) :
    (',' :: blanks).intercalate items = [','].intercalate (spaced blanks items) := by
  cases items with
  | nil => rfl
  | cons item items =>
      rw [spaced, intercalate_cons, intercalate_cons, List.flatMap_map]
      rfl

theorem splitChars_comma (text rest : Text) :
    splitChars ',' (text ++ ',' :: rest) = splitChars ',' text ++ splitChars ',' rest := by
  induction text with
  | nil => rfl
  | cons char text induction =>
      rw [List.cons_append, splitChars, splitChars, induction]
      split
      · rfl
      · cases pieces : splitChars ',' text with
        | nil =>
            rw [TextTools.splitChars_eq_splitOn] at pieces
            exact absurd pieces (List.splitOn_ne_nil _ _)
        | cons piece pieces => rfl

theorem splitChars_intercalate (item : Text) (items : List Text) :
    splitChars ',' ([','].intercalate (item :: items)) =
      (item :: items).flatMap (splitChars ',') := by
  induction items generalizing item with
  | nil => simp
  | cons next items induction =>
      rw [List.intercalate_cons_cons, List.append_assoc, List.singleton_append, splitChars_comma,
        induction, List.flatMap_cons (x := item)]

/-! ## What an item adds -/

/-- The positional arguments that the pieces of an item add. -/
def argsOf (item : Text) : List Text :=
  ((splitChars ',' item).filter (fun piece => decide ('=' ∉ piece))).map unquoted

/-- The pieces of an item that add a keyword. -/
def kwargsOf (item : Text) : List Text :=
  ((splitChars ',' item).filter (fun piece => decide ('=' ∈ piece))).map strip

theorem isspace_ne {blank : Char} (isBlank : HostFile.isspace blank = true) {other : Char}
    (sign : HostFile.isspace other = false) : blank ≠ other := by
  rintro rfl
  rw [isBlank] at sign
  cases sign

section

variable {blanks : Text} (areBlanks : ∀ blank ∈ blanks, HostFile.isspace blank = true)
include areBlanks

theorem not_mem_blanks {char : Char} (sign : HostFile.isspace char = false) : char ∉ blanks :=
  fun member => isspace_ne (areBlanks char member) sign rfl

theorem strip_blanks (text : Text) : strip (blanks ++ text) = strip text :=
  strip_append_left areBlanks text

theorem unquoted_blanks (text : Text) : unquoted (blanks ++ text) = unquoted text := by
  rw [unquoted, strip_blanks areBlanks, unquoted]

/-- Blanks in front of an item are in its first piece. -/
theorem splitChars_blanks (item : Text) : ∃ piece pieces,
    splitChars ',' item = piece :: pieces ∧
      splitChars ',' (blanks ++ item) = (blanks ++ piece) :: pieces := by
  have noComma : ',' ∉ blanks := not_mem_blanks areBlanks rfl
  rcases splitChars_cases item with ⟨absent, whole⟩ | ⟨front, back, isItem, absent, split⟩
  · have absent' : ',' ∉ blanks ++ item := by
      rw [List.mem_append, not_or]
      exact ⟨noComma, absent⟩
    exact ⟨item, [], whole, VFS.splitChars_of_not_mem absent'⟩
  · have absent' : ',' ∉ blanks ++ front := by
      rw [List.mem_append, not_or]
      exact ⟨noComma, absent⟩
    refine ⟨front, splitChars ',' back, split, ?_⟩
    rw [isItem, ← List.append_assoc, VFS.splitChars_append back absent']

theorem mem_equal_blanks {text : Text} : '=' ∈ blanks ++ text ↔ '=' ∈ text := by
  rw [List.mem_append, or_iff_right (not_mem_blanks areBlanks rfl)]

theorem argsOf_blanks (item : Text) : argsOf (blanks ++ item) = argsOf item := by
  obtain ⟨piece, pieces, split, split'⟩ := splitChars_blanks areBlanks item
  have same : decide ('=' ∉ blanks ++ piece) = decide ('=' ∉ piece) := by
    rw [decide_eq_decide, mem_equal_blanks areBlanks]
  rw [argsOf, argsOf, split, split', List.filter_cons, List.filter_cons, same]
  split
  · rw [List.map_cons, List.map_cons, unquoted_blanks areBlanks]
  · rfl

theorem kwargsOf_blanks (item : Text) : kwargsOf (blanks ++ item) = kwargsOf item := by
  obtain ⟨piece, pieces, split, split'⟩ := splitChars_blanks areBlanks item
  have same : decide ('=' ∈ blanks ++ piece) = decide ('=' ∈ piece) := by
    rw [decide_eq_decide, mem_equal_blanks areBlanks]
  rw [kwargsOf, kwargsOf, split, split', List.filter_cons, List.filter_cons, same]
  split
  · rw [List.map_cons, List.map_cons, strip_blanks areBlanks]
  · rfl

/-- The items are read one by one, whatever blanks are behind the commas. -/
theorem flatMap_spaced {read : Text → List Text}
    (same : ∀ item, read (blanks ++ item) = read item) (items : List Text) :
    (spaced blanks items).flatMap read = items.flatMap read := by
  cases items with
  | nil => rfl
  | cons item items =>
      rw [spaced, List.flatMap_cons, List.flatMap_map, List.flatMap_cons]
      congr 1
      exact List.flatMap_congr (fun item _ => same item)

end

theorem argsOf_eq_nil {item : Text} (equal : '=' ∈ item) (noComma : ',' ∉ item) :
    argsOf item = [] := by
  rw [argsOf, VFS.splitChars_of_not_mem noComma]
  simp [equal]

theorem argsOf_eq_single {item : Text} (noEqual : '=' ∉ item) (noComma : ',' ∉ item) :
    argsOf item = [unquoted item] := by
  rw [argsOf, VFS.splitChars_of_not_mem noComma]
  simp [noEqual]

theorem kwargsOf_eq_nil {item : Text} (noEqual : '=' ∉ item) (noComma : ',' ∉ item) :
    kwargsOf item = [] := by
  rw [kwargsOf, VFS.splitChars_of_not_mem noComma]
  simp [noEqual]

theorem kwargsOf_eq_single {item : Text} (equal : '=' ∈ item) (noComma : ',' ∉ item) :
    kwargsOf item = [strip item] := by
  rw [kwargsOf, VFS.splitChars_of_not_mem noComma]
  simp [equal]

theorem not_mem_unquoted {char : Char} {text : Text} (absent : char ∉ text) :
    char ∉ unquoted text :=
  ConfigFiles.not_mem_strip (ConfigFiles.not_mem_strip (ConfigFiles.not_mem_strip
    (ConfigFiles.not_mem_strip absent)))

/-- No positional argument that is read has a comma or an equal sign in it. -/
theorem of_mem_argsOf {item content : Text} (member : content ∈ argsOf item) :
    ',' ∉ content ∧ '=' ∉ content := by
  obtain ⟨piece, isPiece, isContent⟩ := List.mem_map.mp member
  obtain ⟨inItem, noEqual⟩ := List.mem_filter.mp isPiece
  rw [← isContent]
  exact ⟨not_mem_unquoted (not_comma_of_mem inItem), not_mem_unquoted (of_decide_eq_true noEqual)⟩

/-! ## Positional arguments -/

/-- The ends of the content of a string literal that stay. -/
def EndsKept (quote : Quote) (content : Text) : Prop :=
  ∀ char, content.head? = some char ∨ content.getLast? = some char →
    HostFile.isspace char = false ∧ char ≠ '\'' ∧ (quote = .double → char ≠ '"')

theorem endsKept_iff {quote : Quote} {content : Text} :
    EndsKept quote content ↔ strip content = content ∧ stripChar '\'' content = content ∧
      (quote = .double → stripChar '"' content = content) := by
  have spaces : strip content = content ↔ Ends HostFile.isspace content := strip_eq_self_iff
  have singles : stripChar '\'' content = content ↔ Ends (· = '\'') content := strip_eq_self_iff
  have doubles : stripChar '"' content = content ↔ Ends (· = '"') content := strip_eq_self_iff
  rw [spaces, singles, doubles]
  simp only [EndsKept, Ends, decide_eq_false_iff_not]
  constructor
  · intro kept
    exact ⟨⟨fun char here => (kept char (.inl here)).1, fun char here => (kept char (.inr here)).1⟩,
      ⟨fun char here => (kept char (.inl here)).2.1, fun char here => (kept char (.inr here)).2.1⟩,
      fun isDouble => ⟨fun char here => (kept char (.inl here)).2.2 isDouble,
        fun char here => (kept char (.inr here)).2.2 isDouble⟩⟩
  · rintro ⟨⟨space, spaceLast⟩, ⟨single, singleLast⟩, double⟩ char (here | here)
    · exact ⟨space char here, single char here, fun isDouble => (double isDouble).1 char here⟩
    · exact ⟨spaceLast char here, singleLast char here,
        fun isDouble => (double isDouble).2 char here⟩

theorem mem_marks {quote : Quote} {triple : Bool} {char : Char}
    (member : char ∈ Positional.marks quote triple) : char = quote.char :=
  List.eq_of_mem_replicate member

theorem marks_cons (quote : Quote) (triple : Bool) :
    ∃ others, Positional.marks quote triple = quote.char :: others ∧
      Positional.marks quote triple = others ++ [quote.char] := by
  cases triple with
  | true => exact ⟨[quote.char, quote.char], rfl, rfl⟩
  | false => exact ⟨[], rfl, rfl⟩

/-- What is not a quote of the literal stays at its ends. -/
theorem strip_quoted {drop : Char → Bool} {quote : Quote} (kept : drop quote.char = false)
    (triple : Bool) (content : Text) :
    StringType.strip drop (Positional.text (.quoted quote triple content)) =
      Positional.text (.quoted quote triple content) := by
  obtain ⟨others, front, back⟩ := marks_cons quote triple
  apply strip_eq_self_iff.mpr
  constructor
  · intro char first
    rw [Positional.text, front] at first
    cases first
    exact kept
  · intro char last
    have ends : Positional.text (.quoted quote triple content) =
        (Positional.marks quote triple ++ content ++ others) ++ [quote.char] := by
      rw [Positional.text]
      conv_lhs => rw [back]
      rw [back, List.append_assoc _ others]
    rw [ends, List.getLast?_concat] at last
    cases last
    exact kept

theorem strip_marks {drop : Char → Bool} {quote : Quote} (dropped : drop quote.char = true)
    (triple : Bool) (content : Text) :
    StringType.strip drop (Positional.text (.quoted quote triple content)) =
      StringType.strip drop content := by
  have all : ∀ char ∈ Positional.marks quote triple, drop char = true := by
    intro char member
    rw [mem_marks member]
    exact dropped
  rw [Positional.text, strip_append_right all, strip_append_left all]

theorem unquoted_single (triple : Bool) (content : Text) :
    unquoted (Positional.text (.quoted .single triple content)) =
      strip (stripChar '\'' content) := by
  have spaces : strip (Positional.text (.quoted .single triple content)) =
      Positional.text (.quoted .single triple content) := strip_quoted rfl triple content
  have doubles : stripChar '"' (Positional.text (.quoted .single triple content)) =
      Positional.text (.quoted .single triple content) := strip_quoted rfl triple content
  have singles : stripChar '\'' (Positional.text (.quoted .single triple content)) =
      stripChar '\'' content := strip_marks rfl triple content
  rw [unquoted, spaces, doubles, singles]

theorem unquoted_double (triple : Bool) (content : Text) :
    unquoted (Positional.text (.quoted .double triple content)) =
      strip (stripChar '\'' (stripChar '"' content)) := by
  have spaces : strip (Positional.text (.quoted .double triple content)) =
      Positional.text (.quoted .double triple content) := strip_quoted rfl triple content
  have doubles : stripChar '"' (Positional.text (.quoted .double triple content)) =
      stripChar '"' content := strip_marks rfl triple content
  rw [unquoted, spaces, doubles]

theorem unquoted_quoted_iff (quote : Quote) (triple : Bool) (content : Text) :
    unquoted (Positional.text (.quoted quote triple content)) = content ↔
      EndsKept quote content := by
  rw [endsKept_iff]
  cases quote with
  | single =>
      rw [unquoted_single]
      constructor
      · intro same
        obtain ⟨inner, spaces⟩ := eq_of_strip strip_sublist same
        exact ⟨spaces, inner, fun impossible => by cases impossible⟩
      · rintro ⟨spaces, singles, -⟩
        rw [singles, spaces]
  | double =>
      rw [unquoted_double]
      constructor
      · intro same
        have inside : (stripChar '"' content).Sublist content := strip_sublist
        obtain ⟨isSingle, spaces⟩ := eq_of_strip (strip_sublist.trans inside) same
        obtain ⟨isDouble, singles⟩ := eq_of_strip inside isSingle
        exact ⟨spaces, singles, fun _ => isDouble⟩
      · rintro ⟨spaces, singles, doubles⟩
        rw [doubles rfl, singles, spaces]

theorem IsWord.unquoted {text : Text} (isWord : IsWord text) : unquoted text = text := by
  have kept : ∀ drop : Char → Bool, (∀ char ∈ text, drop char = false) →
      StringType.strip drop text = text := fun drop stays => VFS.strip_of_forall_not stays
  have spaces : strip text = text := kept _ (fun char member => (isWord.2 char member).1)
  have singles : stripChar '\'' text = text := by
    apply kept
    intro char member
    have others := (isWord.2 char member).2
    simp only [List.mem_cons, not_or] at others
    simp [others.1]
  have doubles : stripChar '"' text = text := by
    apply kept
    intro char member
    have others := (isWord.2 char member).2
    simp only [List.mem_cons, not_or] at others
    simp [others.2.1]
  rw [MacroArgs.unquoted, spaces, doubles, singles, spaces]

theorem IsWord.not_mem {text : Text} (isWord : IsWord text) {char : Char}
    (sign : char ∈ ['\'', '"', ',', '=', '(', ')']) : char ∉ text :=
  fun member => (isWord.2 char member).2 sign

theorem mem_text_iff {arg : Positional} {char : Char} (noQuote : char ≠ '\'' ∧ char ≠ '"') :
    char ∈ arg.text ↔ char ∈ arg.content := by
  cases arg with
  | word text isWord => rfl
  | quoted quote triple content =>
      have noMark : char ∉ Positional.marks quote triple := by
        intro member
        have isQuote := mem_marks member
        cases quote with
        | single => exact noQuote.1 isQuote
        | double => exact noQuote.2 isQuote
      simp [Positional.text, Positional.content, noMark]

/-- An argument comes out as it is given where it is neither cut nor stripped. -/
theorem Positional.plain_iff (arg : Positional) :
    arg.Plain ↔ (',' ∉ arg.content ∧ '=' ∉ arg.content) ∧ unquoted arg.text = arg.content := by
  cases arg with
  | word text isWord =>
      constructor
      · intro _
        exact ⟨⟨isWord.not_mem (by decide), isWord.not_mem (by decide)⟩, isWord.unquoted⟩
      · intro _
        trivial
  | quoted quote triple content =>
      exact and_congr_right (fun _ => (unquoted_quoted_iff quote triple content).symm)

/-- An argument has a character that is not cut off at the end of the call. -/
theorem Positional.rstrip_text (arg : Positional) : rstrip arg.text = arg.text := by
  apply rdropWhile_of_last
  intro char last
  cases arg with
  | word text isWord =>
      obtain ⟨noSpace, noSign⟩ := isWord.2 char (List.mem_of_getLast? last)
      simp only [List.mem_cons, not_or] at noSign
      have noBlank : char ≠ ' ' := by
        rintro rfl
        cases noSpace
      simp [noSign.2.2.1, noBlank, noSign.2.2.2.2.2.1]
  | quoted quote triple content =>
      obtain ⟨others, front, back⟩ := marks_cons quote triple
      have isMark : char ∈ Positional.marks quote triple := by
        rw [Positional.text, back, ← List.append_assoc, List.getLast?_concat] at last
        rw [back, ← Option.some.inj last]
        simp
      rw [mem_marks isMark]
      cases quote with
      | single => rfl
      | double => rfl

/-! ## The end of a call -/

theorem rdropWhile_cons {drop : Char → Bool} {first : Char} (kept : drop first = false)
    (rest : Text) : (first :: rest).rdropWhile drop = first :: rest.rdropWhile drop := by
  induction rest using List.reverseRecOn with
  | nil => simp [List.rdropWhile_singleton, kept]
  | append_singleton rest last induction =>
      rw [← List.cons_append]
      by_cases dropped : drop last = true
      · rw [List.rdropWhile_concat_pos _ _ _ dropped, List.rdropWhile_concat_pos _ _ _ dropped,
          induction]
      · rw [List.rdropWhile_concat_neg _ _ _ dropped, List.rdropWhile_concat_neg _ _ _ dropped,
          List.cons_append]

theorem rstrip_keyword (key literal : Text) :
    rstrip (key ++ '=' :: literal) = key ++ '=' :: rstrip literal := by
  rw [rstrip, rdropWhile_append ⟨'=', List.mem_cons_self, by decide⟩,
    rdropWhile_cons (by decide), rstrip]

theorem intercalate_concat (separator : Text) (front : List Text) :
    ∃ before_, ∀ last, separator.intercalate (front ++ [last]) = before_ ++ last := by
  cases front with
  | nil => exact ⟨[], fun last => by simp⟩
  | cons item items =>
      refine ⟨item ++ items.flatMap (separator ++ ·) ++ separator, fun last => ?_⟩
      rw [List.cons_append, intercalate_cons, List.flatMap_append]
      simp

/-- Only the last item loses characters at the end of the call. -/
theorem rstrip_intercalate (separator : Text) (front : List Text) {last : Text}
    (some : ∃ char ∈ last, char ∉ [',', ' ', ')']) :
    rstrip (separator.intercalate (front ++ [last])) =
      separator.intercalate (front ++ [rstrip last]) := by
  obtain ⟨before_, joined⟩ := intercalate_concat separator front
  obtain ⟨char, member, kept⟩ := some
  rw [joined, joined, rstrip, rdropWhile_append ⟨char, member, decide_eq_false kept⟩, rstrip]

theorem Positional.exists_kept (arg : Positional) : ∃ char ∈ arg.text, char ∉ [',', ' ', ')'] := by
  have same := arg.rstrip_text
  cases isLast : arg.text.getLast? with
  | none =>
      have empty := List.getLast?_eq_none_iff.mp isLast
      cases arg with
      | word text isWord => exact absurd empty isWord.1
      | quoted quote triple content =>
          obtain ⟨others, front, -⟩ := marks_cons quote triple
          rw [Positional.text, front] at empty
          cases empty
  | some last =>
      refine ⟨last, List.mem_of_getLast? isLast, ?_⟩
      intro dropped
      obtain ⟨front, isText⟩ := List.getLast?_eq_some_iff.mp isLast
      let drop (char : Char) : Bool := decide (char ∈ [',', ' ', ')'])
      have isDropped : drop last = true := decide_eq_true dropped
      rw [isText] at same
      have same : (front ++ [last]).rdropWhile drop = front ++ [last] := same
      rw [List.rdropWhile_concat_pos _ _ _ isDropped] at same
      have short := (List.rdropWhile_prefix drop (l := front)).length_le
      have count := congrArg List.length same
      rw [List.length_append, List.length_singleton] at count
      omega

section

variable {ε V : Type} {python : Python ε V}

/-- The keywords as they are written, the last one without its end. -/
def cutLast : List (Keyword python) → List Text
  | [] => []
  | [keyword] => [keyword.key ++ '=' :: rstrip keyword.literal]
  | keyword :: next :: keywords => keyword.text :: cutLast (next :: keywords)

theorem cutLast_concat (front : List (Keyword python)) (last : Keyword python) :
    cutLast (front ++ [last]) =
      front.map Keyword.text ++ [last.key ++ '=' :: rstrip last.literal] := by
  induction front with
  | nil => rfl
  | cons keyword front induction =>
      cases front with
      | nil => rfl
      | cons next front =>
          rw [List.cons_append, List.cons_append, cutLast, ← List.cons_append, induction]
          rfl

theorem exists_mem_cutLast {keywords : List (Keyword python)} {keyword : Keyword python}
    (member : keyword ∈ keywords) : ∃ cut, keyword.key ++ '=' :: cut ∈ cutLast keywords ∧
      (cut = keyword.literal ∨ cut = rstrip keyword.literal) := by
  rcases List.eq_nil_or_concat' keywords with empty | ⟨front, last, isConcat⟩
  · rw [empty] at member
    cases member
  · rw [isConcat, cutLast_concat]
    rw [isConcat] at member
    rcases List.mem_append.mp member with inFront | isLast
    · exact ⟨keyword.literal, List.mem_append_left _ (List.mem_map_of_mem inFront), .inl rfl⟩
    · rw [List.mem_singleton.mp isLast]
      exact ⟨_, List.mem_append_right _ (List.mem_singleton_self _), .inr rfl⟩

/-- What is between the parentheses, without the end that is cut off. -/
theorem inside_methodcode (call : Call python) : inside call.methodcode =
    (',' :: call.blanks).intercalate (call.args.map Positional.text ++ cutLast call.kwargs) := by
  have behind : (call.methodcode.dropWhile (· ≠ '(')).drop 1 =
      (',' :: call.blanks).intercalate call.items ++ [')'] := by
    have noOpen : ∀ char ∈ call.name, decide (char ≠ '(') = true := by
      intro char member
      rw [decide_eq_true_iff]
      rintro rfl
      exact call.isName member
    rw [Call.methodcode, List.append_assoc, List.dropWhile_append_of_pos noOpen]
    rfl
  rw [inside, behind, rstrip, List.rdropWhile_concat_pos _ _ _ (by decide), ← rstrip, Call.items]
  rcases List.eq_nil_or_concat' call.kwargs with empty | ⟨front, last, isConcat⟩
  · rw [empty, List.map_nil, cutLast, List.append_nil]
    rcases List.eq_nil_or_concat' call.args with none | ⟨args, arg, isArgs⟩
    · rw [none]
      rfl
    · rw [isArgs, List.map_append, List.map_singleton,
        rstrip_intercalate _ _ arg.exists_kept, arg.rstrip_text]
  · rw [isConcat, cutLast_concat, List.map_append, List.map_singleton, ← List.append_assoc,
      ← List.append_assoc, rstrip_intercalate, Keyword.text, rstrip_keyword]
    exact ⟨'=', by simp [Keyword.text], by decide⟩

theorem open_mem_methodcode (call : Call python) : '(' ∈ call.methodcode := by
  simp [Call.methodcode]

/-- The pieces of a call that has an argument are those of its items. -/
theorem splitChars_inside (call : Call python) (filled : call.args ≠ [] ∨ call.kwargs ≠ []) :
    splitChars ',' (inside call.methodcode) =
      (spaced call.blanks (call.args.map Positional.text ++ cutLast call.kwargs)).flatMap
        (splitChars ',') := by
  have some : call.args.map Positional.text ++ cutLast call.kwargs ≠ [] := by
    intro nothing
    obtain ⟨noArgs, noKwargs⟩ := List.append_eq_nil_iff.mp nothing
    rcases filled with args | kwargs
    · exact args (List.map_eq_nil_iff.mp noArgs)
    · rcases List.eq_nil_or_concat' call.kwargs with empty | ⟨front, last, isConcat⟩
      · exact kwargs empty
      · rw [isConcat, cutLast_concat] at noKwargs
        exact List.append_ne_nil_of_right_ne_nil _ (List.cons_ne_nil _ _) noKwargs
  obtain ⟨item, items, isItems⟩ := List.exists_cons_of_ne_nil some
  rw [inside_methodcode, isItems, intercalate_blanks, spaced, splitChars_intercalate]

theorem argsGet_methodcode (call : Call python) (filled : call.args ≠ [] ∨ call.kwargs ≠ []) :
    argsGet call.methodcode =
      (call.args.map Positional.text ++ cutLast call.kwargs).flatMap argsOf := by
  rw [argsGet, if_pos (open_mem_methodcode call), splitChars_inside call filled,
    ← flatMap_spaced call.areBlanks (argsOf_blanks call.areBlanks), List.filter_flatMap,
    List.map_flatMap]
  rfl

theorem kwargsGet_methodcode (call : Call python) (filled : call.args ≠ [] ∨ call.kwargs ≠ []) :
    kwargsGet python.eval call.methodcode =
      ((call.args.map Positional.text ++ cutLast call.kwargs).flatMap kwargsOf).foldlM
        (putKwarg python.eval) .empty := by
  rw [kwargsGet, if_pos (open_mem_methodcode call), splitChars_inside call filled,
    ← flatMap_spaced call.areBlanks (kwargsOf_blanks call.areBlanks), List.filter_flatMap,
    List.map_flatMap]
  rfl

end

end JumpscaleX.MacroArgs
