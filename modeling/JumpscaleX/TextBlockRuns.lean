import JumpscaleX.TextBlocks

/-!
# When the blocks of a text are found

The loop over the line numbers as a walk along the lines, and the texts for which the
walk collects the blocks that they have.
-/

namespace JumpscaleX.TextBlocks

open PyText Fallible

section

variable {P : Type} [DecidableEq P] (found : P → Text → Bool) (patterns : Patterns P)

/-! ## The walk -/

/-- The block that is opened with a line, where another line decides whether it is added. -/
def opened (deciding line : Text) : Text :=
  if patterns.includeMatchingLine && addLine found patterns deciding then line ++ ['\n'] else []

def kept (line : Text) : Text :=
  if addLine found patterns line then line ++ ['\n'] else []

/-- The results that the loop adds along some lines, with the block that is open. -/
def collected : Option Text → List Text → List Text
  | _, [] => []
  | none, line :: rest =>
      if begins found patterns line then collected (some (opened found patterns line line)) rest
      else collected none rest
  | some block, [_] => [block]
  | some block, line :: next :: rest =>
      if closes found patterns line then
        block ::
          (if patterns.blockStartPatterns = patterns.blockStopPatterns then
            if begins found patterns next then
              collected (some (opened found patterns line next)) (next :: rest)
            else collected none (next :: rest)
          else if begins found patterns line then
            collected (some (opened found patterns line line)) (next :: rest)
          else collected none (next :: rest))
      else collected (some (block ++ kept found patterns line)) (next :: rest)

/-- A scanner with or without an open block. -/
def scannerOf (result : List Text) : Option Text → Text → Scanner
  | none, block => { state := .scan, block := block, result := result }
  | some block, _ => { state := .foundblock, block := block, result := result }

theorem lineAt_of_some {lines : List Text} {t : Nat} {line : Text}
    (here : lines[t]? = some line) : lineAt lines t = .ok line := by
  rw [lineAt, here]

section

variable {lines : List Text} {t : Nat} {line : Text} (here : lines[t]? = some line)
include here

theorem turn_scan (block : Text) (result : List Text) :
    turn found patterns lines { state := .scan, block := block, result := result } t =
      .ok (if begins found patterns line then
        { state := .foundblock, block := opened found patterns line line, result := result }
      else { state := .scan, block := block, result := result }) := by
  rw [turn, lineAt_of_some here]
  by_cases isStart : begins found patterns line = true
  · simp [bind, Except.bind, closing, isStart, opened, pure, Except.pure]
  · simp [bind, Except.bind, closing, isStart, pure, Except.pure]

theorem turn_inside (block : Text) (result : List Text) (notLast : t ≠ lines.length - 1)
    (stays : closes found patterns line = false) :
    turn found patterns lines { state := .foundblock, block := block, result := result } t =
      .ok { state := .foundblock, block := block ++ kept found patterns line, result := result } := by
  rw [turn, lineAt_of_some here]
  by_cases added : addLine found patterns line = true
  · simp [bind, Except.bind, closing, notLast, stays, kept, added, pure, Except.pure]
  · simp [bind, Except.bind, closing, notLast, stays, kept, added, pure, Except.pure]

theorem turn_last (block : Text) (result : List Text) (isLast : t = lines.length - 1) :
    ∃ last, turn found patterns lines
      { state := .foundblock, block := block, result := result } t =
        .ok { state := .endoffile, block := last, result := result ++ [block] } := by
  refine ⟨if addLine found patterns line then block ++ line ++ ['\n'] else block, ?_⟩
  rw [turn, lineAt_of_some here]
  simp [bind, Except.bind, closing, ← isLast, pure, Except.pure]

/-- The line that closes a block opens the next one, or the line behind it does. -/
theorem turn_closes (block : Text) (result : List Text) (notLast : t ≠ lines.length - 1)
    (isEnd : closes found patterns line = true) {candidate : Text}
    (behind : lineBehind patterns lines t line = .ok candidate) :
    turn found patterns lines { state := .foundblock, block := block, result := result } t =
      .ok (if begins found patterns candidate then
        { state := .foundblock, block := opened found patterns line candidate,
          result := result ++ [block] }
      else { state := .scan, block := block, result := result ++ [block] }) := by
  rw [turn, lineAt_of_some here]
  by_cases isStart : begins found patterns candidate = true
  · simp [bind, Except.bind, closing, notLast, isEnd, behind, isStart, opened, Except.map, pure,
      Except.pure]
  · simp [bind, Except.bind, closing, notLast, isEnd, behind, isStart, Except.map, pure,
      Except.pure]

end

theorem getElem?_of_drop {lines rest : List Text} {t : Nat} {line : Text}
    (dropped : lines.drop t = line :: rest) :
    lines[t]? = some line ∧ lines.drop (t + 1) = rest ∧ lines.length = t + rest.length + 1 := by
  have inside : t < lines.length := by
    by_contra outside
    rw [List.drop_eq_nil_of_le (by omega)] at dropped
    cases dropped
  have first : lines[t]? = some line := by
    have head := congrArg List.head? dropped
    rwa [List.head?_drop] at head
  have others : lines.drop (t + 1) = rest := by
    have tail := congrArg List.tail dropped
    rwa [List.tail_drop] at tail
  have count := congrArg List.length dropped
  rw [List.length_drop, List.length_cons] at count
  exact ⟨first, others, by omega⟩

/-- The loop from a line on adds what the walk collects from there. -/
theorem foldlM_turn {lines : List Text} (rest : List Text) :
    ∀ (t : Nat) (openBlock : Option Text) (block : Text) (result : List Text),
      lines.drop t = rest →
      ∃ reached, (List.range' t rest.length).foldlM (turn found patterns lines)
          (scannerOf result openBlock block) = .ok reached ∧
        reached.result = result ++ collected found patterns openBlock rest := by
  induction rest with
  | nil =>
      intro t openBlock block result _
      refine ⟨scannerOf result openBlock block, rfl, ?_⟩
      cases openBlock with
      | none => simp [scannerOf, collected]
      | some block => simp [scannerOf, collected]
  | cons line rest induction =>
      intro t openBlock block result dropped
      obtain ⟨here, others, count⟩ := getElem?_of_drop dropped
      -- One turn, and the loop from the next line on with what is open then.
      have later : ∀ (openBlock' : Option Text) (block' : Text) (added : List Text),
          turn found patterns lines (scannerOf result openBlock block) t =
            .ok (scannerOf (result ++ added) openBlock' block') →
          collected found patterns openBlock (line :: rest) =
            added ++ collected found patterns openBlock' rest →
          ∃ reached, (List.range' t (line :: rest).length).foldlM (turn found patterns lines)
              (scannerOf result openBlock block) = .ok reached ∧
            reached.result = result ++ collected found patterns openBlock (line :: rest) := by
        intro openBlock' block' added turned collects
        obtain ⟨reached, walked, results⟩ :=
          induction (t + 1) openBlock' block' (result ++ added) others
        refine ⟨reached, ?_, ?_⟩
        · rw [List.length_cons, List.range'_succ, List.foldlM_cons, turned]
          exact walked
        · rw [results, collects, List.append_assoc]
      cases openBlock with
      | none =>
          have turned := turn_scan found patterns here block result
          by_cases isStart : begins found patterns line = true
          · rw [if_pos isStart] at turned
            apply later (some (opened found patterns line line)) block []
            · rw [List.append_nil]
              exact turned
            · simp [collected, isStart]
          · rw [if_neg isStart] at turned
            apply later none block []
            · rw [List.append_nil]
              exact turned
            · simp [collected, isStart]
      | some current =>
          cases rest with
          | nil =>
              have isLast : t = lines.length - 1 := by
                rw [List.length_nil] at count
                omega
              obtain ⟨last, turned⟩ := turn_last found patterns here current result isLast
              refine ⟨{ state := .endoffile, block := last, result := result ++ [current] }, ?_, ?_⟩
              · rw [List.length_singleton, List.range'_one, List.foldlM_cons, scannerOf, turned]
                rfl
              · rw [collected]
          | cons next rest =>
              have notLast : t ≠ lines.length - 1 := by
                rw [List.length_cons] at count
                omega
              obtain ⟨nextHere, -, -⟩ := getElem?_of_drop others
              by_cases isEnd : closes found patterns line = true
              · by_cases alike : patterns.blockStartPatterns = patterns.blockStopPatterns
                · have inside : t < lines.length := by omega
                  have behind : lineBehind patterns lines t line = .ok next := by
                    rw [lineBehind, if_pos alike, if_pos inside, lineAt_of_some nextHere]
                  have turned := turn_closes found patterns here current result notLast isEnd behind
                  by_cases isStart : begins found patterns next = true
                  · rw [if_pos isStart] at turned
                    apply later (some (opened found patterns line next)) current [current]
                    · exact turned
                    · simp [collected, isEnd, alike, isStart]
                  · rw [if_neg isStart] at turned
                    apply later none current [current]
                    · exact turned
                    · simp [collected, isEnd, alike, isStart]
                · have behind : lineBehind patterns lines t line = .ok line := by
                    rw [lineBehind, if_neg alike]
                  have turned := turn_closes found patterns here current result notLast isEnd behind
                  by_cases isStart : begins found patterns line = true
                  · rw [if_pos isStart] at turned
                    apply later (some (opened found patterns line line)) current [current]
                    · exact turned
                    · simp [collected, isEnd, alike, isStart]
                  · rw [if_neg isStart] at turned
                    apply later none current [current]
                    · exact turned
                    · simp [collected, isEnd, alike, isStart]
              · have stays : closes found patterns line = false := by simpa using isEnd
                apply later (some (current ++ kept found patterns line)) current []
                · rw [List.append_nil]
                  exact turn_inside found patterns here current result notLast stays
                · simp [collected, stays]

/-- The loop ends without an error, with what the walk along the lines collects. -/
theorem extractBlocks_eq (text : Text) : extractBlocks found patterns text =
    .ok (collected found patterns none (splitChars '\n' text)) := by
  obtain ⟨reached, walked, results⟩ := @foldlM_turn P _ found patterns (splitChars '\n' text)
    (splitChars '\n' text) 0 none [] [] rfl
  rw [extractBlocks]
  simp only [List.range_eq_range', scannerOf] at walked ⊢
  rw [walked]
  simpa [bind, Except.bind, pure, Except.pure] using results

/-! ## Lines and pieces -/

@[simp] theorem linesOf_nil : linesOf [] = [] := rfl

theorem linesOf_singleton (line : Text) : linesOf [line] = if line = [] then [] else [line] := by
  simp [linesOf]

@[simp] theorem linesOf_cons (line next : Text) (rest : List Text) :
    linesOf (line :: next :: rest) = line :: linesOf (next :: rest) := by
  rw [linesOf, linesOf, List.getLast?_cons_cons, List.dropLast_cons_cons]
  split
  · rfl
  · rfl

theorem linesOf_sublist (pieces : List Text) : (linesOf pieces).Sublist pieces := by
  rw [linesOf]
  split
  · exact List.dropLast_sublist _
  · exact List.Sublist.refl _

@[simp] theorem begins_nil : begins found patterns [] = false := by
  simp [begins, matchMultiple]

/-- An empty piece at the end begins no block. -/
theorem blocks_linesOf_cons (line : Text) (rest : List Text) :
    blocks found patterns (linesOf (line :: rest)) =
      if begins found patterns line then
        blockLines found patterns line (linesOf rest) :: blocks found patterns (linesOf rest)
      else blocks found patterns (linesOf rest) := by
  cases rest with
  | nil =>
      by_cases empty : line = []
      · simp [linesOf_singleton, empty, blocks]
      · simp [linesOf_singleton, empty, blocks]
  | cons next rest => rw [linesOf_cons, blocks]

theorem length_blocks (pieces : List Text) :
    (blocks found patterns (linesOf pieces)).length = pieces.countP (begins found patterns) := by
  induction pieces with
  | nil => rfl
  | cons line rest induction =>
      rw [blocks_linesOf_cons, List.countP_cons]
      split
      · rw [List.length_cons, induction]
      · rw [induction, Nat.add_zero]

theorem following_cons (line : Text) (rest : List Text) :
    following found patterns (line :: rest) =
      if ends found patterns line then []
      else [line].filter (addLine found patterns) ++ following found patterns rest := by
  rw [following, following]
  by_cases isEnd : ends found patterns line = true
  · simp [isEnd]
  · by_cases added : addLine found patterns line = true
    · simp [isEnd, added]
    · simp [isEnd, added]

theorem ends_of_begins {line : Text} (isStart : begins found patterns line = true) :
    ends found patterns line = true := by
  simp [ends, isStart]

theorem closes_of_ends {line : Text} (isEnd : ends found patterns line = true) :
    closes found patterns line = true := by
  rw [ends] at isEnd
  simp [closes, isEnd]

/-! ## Blocks as texts -/

@[simp] theorem render_nil : render [] = [] := rfl

@[simp] theorem render_append (first second : List Text) :
    render (first ++ second) = render first ++ render second :=
  List.flatMap_append

theorem render_eq_nil_iff {lines : List Text} : render lines = [] ↔ lines = [] := by
  cases lines with
  | nil => simp
  | cons line lines => simp [render]

theorem render_filter (line : Text) :
    render ([line].filter (addLine found patterns)) = kept found patterns line := by
  rw [kept]
  by_cases added : addLine found patterns line = true
  · simp [added, render]
  · simp [added]

theorem render_blockLines (first : Text) (rest : List Text) :
    render (blockLines found patterns first rest) =
      opened found patterns first first ++ render (following found patterns rest) := by
  rw [blockLines, render_append, opened]
  congr 1
  by_cases included : patterns.includeMatchingLine = true
  · simp only [included, if_true, Bool.true_and]
    exact render_filter found patterns first
  · simp [included]

/-- A line of its own is the text of that line only. -/
theorem eq_of_render {lines : List Text} {line : Text} (clean : ∀ other ∈ lines, '\n' ∉ other)
    (lineClean : '\n' ∉ line) (equal : render lines = line ++ ['\n']) : line ∈ lines := by
  cases lines with
  | nil =>
      have empty := congrArg List.length equal
      simp at empty
  | cons first lines =>
      have texts : first ++ '\n' :: render lines = line ++ '\n' :: [] := by
        simpa [render] using equal
      have same := congrArg (List.takeWhile (· ≠ '\n')) texts
      have noBreak : ∀ {text : Text}, '\n' ∉ text → ∀ char ∈ text, decide (char ≠ '\n') = true := by
        intro text absent char member
        rw [decide_eq_true_iff]
        rintro rfl
        exact absent member
      rw [List.takeWhile_append_of_pos (noBreak (clean first List.mem_cons_self)),
        List.takeWhile_append_of_pos (noBreak lineClean)] at same
      have isFirst : first = line := by simpa using same
      rw [← isFirst]
      exact List.mem_cons_self

/-- The line before the first one of a block decides as the line itself does. -/
theorem opened_eq_iff {line next : Text} {rest : List Text}
    (clean : ∀ other ∈ rest, '\n' ∉ other) (nextClean : '\n' ∉ next) :
    opened found patterns line next =
        opened found patterns next next ++ render (following found patterns rest) ↔
      (patterns.includeMatchingLine = true →
        addLine found patterns line = addLine found patterns next) ∧
      following found patterns rest = [] := by
  have added : ∀ other ∈ following found patterns rest,
      '\n' ∉ other ∧ addLine found patterns other = true := by
    intro other member
    obtain ⟨taken, isAdded⟩ := List.mem_filter.mp member
    exact ⟨clean other ((List.takeWhile_sublist _).subset taken), isAdded⟩
  rw [opened, opened]
  by_cases included : patterns.includeMatchingLine = true
  · cases before_ : addLine found patterns line with
    | false =>
        cases here : addLine found patterns next with
        | false => simp [render_eq_nil_iff]
        | true => simp [included]
    | true =>
        cases here : addLine found patterns next with
        | true => simp [included, render_eq_nil_iff]
        | false =>
            simp only [included, Bool.and_true, Bool.and_false, Bool.false_eq_true, if_true,
              if_false, List.nil_append, forall_const, false_and, iff_false, reduceCtorEq]
            intro equal
            have inside := eq_of_render (fun other member => (added other member).1) nextClean
              equal.symm
            have impossible := (added next inside).2
            rw [here] at impossible
            cases impossible
  · simp [included, render_eq_nil_iff]

/-! ## When the walk collects the blocks -/

/-- No block is open, or one is, or a line has just closed one so that the next block is
looked for in the line behind it. -/
inductive Mode where
  | closed
  | inside
  | behind (line : Text)

def modeAt (isOpen : Bool) : Mode :=
  if isOpen then .inside else .closed

/-- The pieces of a text from which on the walk collects the blocks that there are:
no block begins at the last piece, and none is open there that has the last piece as a line;
where the walk closes a block, no line is left in it; and where the start patterns are the
stop patterns, the line that closes a block begins none, and a block that begins behind it
has its first line only. -/
def Whole : Mode → List Text → Prop
  | .closed, [] => True
  | .inside, [] => False
  | .behind _, [] => True
  | .closed, line :: rest => Whole (modeAt (begins found patterns line)) rest
  | .inside, [line] =>
      begins found patterns line = false ∧ following found patterns (linesOf [line]) = []
  | .inside, line :: next :: rest =>
      if closes found patterns line then
        following found patterns (linesOf (line :: next :: rest)) = [] ∧
          if patterns.blockStartPatterns = patterns.blockStopPatterns then
            begins found patterns line = false ∧ Whole (.behind line) (next :: rest)
          else Whole (modeAt (begins found patterns line)) (next :: rest)
      else Whole .inside (next :: rest)
  | .behind line, next :: rest =>
      if begins found patterns next then
        ((patterns.includeMatchingLine = true →
            addLine found patterns line = addLine found patterns next) ∧
          following found patterns (linesOf rest) = []) ∧ Whole (.behind next) rest
      else Whole .closed rest

/-- What is collected behind a line that has closed a block, where the start patterns are
the stop patterns. -/
def collectedBehind (line : Text) : List Text → List Text
  | [] => []
  | next :: rest =>
      if begins found patterns next then
        collected found patterns (some (opened found patterns line next)) (next :: rest)
      else collected found patterns none (next :: rest)

section

variable (alike : patterns.blockStartPatterns = patterns.blockStopPatterns)
include alike

theorem collected_alike {line : Text} (block : Text) (rest : List Text)
    (isEnd : closes found patterns line = true) :
    collected found patterns (some block) (line :: rest) =
      block :: collectedBehind found patterns line rest := by
  cases rest with
  | nil => rfl
  | cons next rest => simp [collected, isEnd, alike, collectedBehind]

theorem closes_of_begins {line : Text} (isStart : begins found patterns line = true) :
    closes found patterns line = true :=
  closes_of_ends found patterns (ends_of_begins found patterns isStart)

end

theorem collected_start {line : Text} (rest : List Text)
    (isStart : begins found patterns line = true) :
    collected found patterns none (line :: rest) =
      collected found patterns (some (opened found patterns line line)) rest := by
  rw [collected, if_pos isStart]

theorem collected_skip {line : Text} (rest : List Text)
    (noStart : ¬ begins found patterns line = true) :
    collected found patterns none (line :: rest) = collected found patterns none rest := by
  rw [collected, if_neg noStart]

theorem collected_stays {line : Text} (block next : Text) (rest : List Text)
    (stays : ¬ closes found patterns line = true) :
    collected found patterns (some block) (line :: next :: rest) =
      collected found patterns (some (block ++ kept found patterns line)) (next :: rest) := by
  rw [collected, if_neg stays]

section

variable (apart : patterns.blockStartPatterns ≠ patterns.blockStopPatterns)
include apart

/-- The line that closes a block is looked at as any other is. -/
theorem collected_apart {line : Text} (block next : Text) (rest : List Text)
    (isEnd : closes found patterns line = true) :
    collected found patterns (some block) (line :: next :: rest) =
      block :: (if begins found patterns line then
        collected found patterns (some (opened found patterns line line)) (next :: rest)
      else collected found patterns none (next :: rest)) := by
  conv_lhs => rw [collected]
  rw [if_pos isEnd, if_neg apart]

end

/-- There are at most as many blocks as lines that begin one, besides an open one. -/
theorem length_collected (pieces : List Text) :
    (collected found patterns none pieces).length ≤ pieces.countP (begins found patterns) ∧
    (∀ block, (collected found patterns (some block) pieces).length ≤
      pieces.countP (begins found patterns) + 1) ∧
    (patterns.blockStartPatterns = patterns.blockStopPatterns → ∀ line,
      (collectedBehind found patterns line pieces).length ≤
        pieces.countP (begins found patterns)) := by
  induction pieces with
  | nil => simp [collected, collectedBehind]
  | cons line rest induction =>
      obtain ⟨closed, isOpen, behind⟩ := induction
      have outside : (collected found patterns none (line :: rest)).length ≤
          (line :: rest).countP (begins found patterns) := by
        by_cases isStart : begins found patterns line = true
        · rw [collected_start found patterns rest isStart, List.countP_cons, if_pos isStart]
          exact isOpen (opened found patterns line line)
        · rw [collected_skip found patterns rest isStart, List.countP_cons, if_neg isStart]
          exact closed
      refine ⟨outside, ?_, ?_⟩
      · intro block
        cases rest with
        | nil => simp [collected]
        | cons next rest =>
            have more : (next :: rest).countP (begins found patterns) ≤
                (line :: next :: rest).countP (begins found patterns) :=
              List.Sublist.countP_le (List.sublist_cons_self line _)
            by_cases isEnd : closes found patterns line = true
            · by_cases alike : patterns.blockStartPatterns = patterns.blockStopPatterns
              · have later := behind alike line
                rw [collected_alike found patterns alike block _ isEnd, List.length_cons]
                omega
              · by_cases isStart : begins found patterns line = true
                · have later := isOpen (opened found patterns line line)
                  rw [collected_apart found patterns alike block next rest isEnd, if_pos isStart,
                    List.countP_cons, if_pos isStart, List.length_cons]
                  omega
                · rw [collected_apart found patterns alike block next rest isEnd, if_neg isStart,
                    List.length_cons]
                  omega
            · have later := isOpen (block ++ kept found patterns line)
              rw [collected_stays found patterns block next rest isEnd]
              omega
      · intro alike before_
        by_cases isStart : begins found patterns line = true
        · have later := behind alike line
          have isEnd := closes_of_begins found patterns alike isStart
          rw [collectedBehind, if_pos isStart, collected_alike found patterns alike _ _ isEnd,
            List.countP_cons, if_pos isStart, List.length_cons]
          omega
        · rw [collectedBehind, if_neg isStart]
          exact outside

/-- The blocks of some pieces as texts. -/
def blockTexts (pieces : List Text) : List Text :=
  (blocks found patterns (linesOf pieces)).map render

theorem blockTexts_start {line : Text} (rest : List Text)
    (isStart : begins found patterns line = true) :
    blockTexts found patterns (line :: rest) =
      (opened found patterns line line ++ render (following found patterns (linesOf rest))) ::
        blockTexts found patterns rest := by
  rw [blockTexts, blocks_linesOf_cons, if_pos isStart, List.map_cons, render_blockLines, blockTexts]

theorem blockTexts_skip {line : Text} (rest : List Text)
    (noStart : ¬ begins found patterns line = true) :
    blockTexts found patterns (line :: rest) = blockTexts found patterns rest := by
  rw [blockTexts, blocks_linesOf_cons, if_neg noStart, blockTexts]

theorem append_eq_self_iff {block rest : Text} : block = block ++ rest ↔ rest = [] := by
  constructor
  · intro equal
    exact List.append_cancel_left (equal.symm.trans (List.append_nil block).symm)
  · intro empty
    rw [empty, List.append_nil]

/-- What the walk collects from some pieces on is what they have just where `Whole` holds. -/
theorem collected_eq_iff (pieces : List Text) (clean : ∀ piece ∈ pieces, '\n' ∉ piece) :
    (collected found patterns none pieces = blockTexts found patterns pieces ↔
      Whole found patterns .closed pieces) ∧
    (∀ block, collected found patterns (some block) pieces =
        (block ++ render (following found patterns (linesOf pieces))) ::
          blockTexts found patterns pieces ↔
      Whole found patterns .inside pieces) ∧
    (patterns.blockStartPatterns = patterns.blockStopPatterns → ∀ line,
      (collectedBehind found patterns line pieces = blockTexts found patterns pieces ↔
        Whole found patterns (.behind line) pieces)) := by
  induction pieces with
  | nil => simp [collected, collectedBehind, Whole, blockTexts, blocks]
  | cons line rest induction =>
      have restClean : ∀ piece ∈ rest, '\n' ∉ piece := fun piece member =>
        clean piece (List.mem_cons_of_mem _ member)
      have lineClean : '\n' ∉ line := clean line List.mem_cons_self
      obtain ⟨closed, isOpen, behind⟩ := induction restClean
      have outside : collected found patterns none (line :: rest) =
          blockTexts found patterns (line :: rest) ↔ Whole found patterns .closed (line :: rest) := by
        by_cases isStart : begins found patterns line = true
        · rw [collected_start found patterns rest isStart,
            blockTexts_start found patterns rest isStart, Whole, modeAt, if_pos isStart]
          exact isOpen (opened found patterns line line)
        · rw [collected_skip found patterns rest isStart,
            blockTexts_skip found patterns rest isStart, Whole, modeAt, if_neg isStart]
          exact closed
      refine ⟨outside, ?_, ?_⟩
      case refine_2 =>
        intro alike before_
        by_cases isStart : begins found patterns line = true
        · have isEnd := closes_of_begins found patterns alike isStart
          have linesClean : ∀ other ∈ linesOf rest, '\n' ∉ other := fun other member =>
            restClean other ((linesOf_sublist rest).subset member)
          rw [collectedBehind, if_pos isStart, collected_alike found patterns alike _ _ isEnd,
            blockTexts_start found patterns rest isStart, List.cons.injEq, Whole, if_pos isStart,
            opened_eq_iff found patterns linesClean lineClean, behind alike line]
        · rw [collectedBehind, if_neg isStart, outside, Whole, Whole, if_neg isStart, modeAt,
            if_neg isStart]
      case refine_1 =>
        intro block
        cases rest with
        | nil =>
            rw [Whole]
            by_cases isStart : begins found patterns line = true
            · simp [collected, blockTexts_start found patterns [] isStart, isStart]
            · rw [blockTexts_skip found patterns [] isStart]
              simp [collected, blockTexts, blocks, isStart, render_eq_nil_iff]
        | cons next rest =>
            rw [Whole]
            by_cases isEnd : closes found patterns line = true
            · rw [if_pos isEnd]
              by_cases alike : patterns.blockStartPatterns = patterns.blockStopPatterns
              · rw [if_pos alike, collected_alike found patterns alike block _ isEnd,
                  List.cons.injEq, append_eq_self_iff, render_eq_nil_iff]
                apply and_congr_right
                intro _
                by_cases isStart : begins found patterns line = true
                · -- The line begins a block that is never collected.
                  have short := (length_collected found patterns (next :: rest)).2.2 alike line
                  rw [blockTexts_start found patterns _ isStart]
                  constructor
                  · intro equal
                    have count := congrArg List.length equal
                    rw [List.length_cons, blockTexts, List.length_map, length_blocks] at count
                    omega
                  · rintro ⟨noStart, _⟩
                    rw [isStart] at noStart
                    cases noStart
                · rw [blockTexts_skip found patterns _ isStart, behind alike line]
                  simp [isStart]
              · rw [if_neg alike, collected_apart found patterns alike block next rest isEnd,
                  List.cons.injEq, append_eq_self_iff, render_eq_nil_iff]
                apply and_congr_right
                intro _
                by_cases isStart : begins found patterns line = true
                · rw [if_pos isStart, blockTexts_start found patterns _ isStart, modeAt,
                    if_pos isStart]
                  exact isOpen (opened found patterns line line)
                · rw [if_neg isStart, blockTexts_skip found patterns _ isStart, modeAt,
                    if_neg isStart]
                  exact closed
            · have noEnd : ¬ ends found patterns line = true := fun isEnd' =>
                isEnd (closes_of_ends found patterns isEnd')
              have noStart : ¬ begins found patterns line = true := fun isStart =>
                noEnd (ends_of_begins found patterns isStart)
              have later := isOpen (block ++ kept found patterns line)
              rw [if_neg isEnd, collected_stays found patterns block next rest isEnd,
                blockTexts_skip found patterns _ noStart, linesOf_cons, following_cons,
                if_neg noEnd, render_append, render_filter, ← List.append_assoc]
              exact later

/-! ## The blocks that are returned -/

/-- The lines that follow the first one of a block come before those of later blocks. -/
theorem flatten_blocks_sublist (lines : List Text) :
    (blocks found patterns lines).flatten.Sublist lines ∧
      (following found patterns lines ++ (blocks found patterns lines).flatten).Sublist lines := by
  induction lines with
  | nil => simp [blocks, following]
  | cons line rest induction =>
      obtain ⟨later, behind⟩ := induction
      have first : (blocks found patterns (line :: rest)).flatten.Sublist (line :: rest) := by
        rw [blocks]
        split
        · rw [List.flatten_cons, blockLines, List.append_assoc]
          have first : (if patterns.includeMatchingLine then
              [line].filter (addLine found patterns) else []).Sublist [line] := by
            split
            · exact List.filter_sublist
            · exact List.nil_sublist _
          exact first.append behind
        · exact later.cons line
      refine ⟨first, ?_⟩
      rw [following_cons]
      by_cases isEnd : ends found patterns line = true
      · rw [if_pos isEnd]
        exact first
      · have noStart : ¬ begins found patterns line = true := fun isStart =>
          isEnd (ends_of_begins found patterns isStart)
        rw [if_neg isEnd, blocks, if_neg noStart, List.append_assoc]
        exact List.Sublist.append List.filter_sublist behind

/-- The blocks of the text are returned, and no line of it is in two of them. -/
def AsClaimed (text : Text) : Prop :=
  let lines := linesOf (splitChars '\n' text)
  extractBlocks found patterns text = .ok ((blocks found patterns lines).map render) ∧
    (blocks found patterns lines).flatten.Sublist lines

/-- Behind the last line break there is nothing, a stop line needs no negative pattern, and
what starts a block is not what stops it. -/
theorem whole_of_terminated (noNegative : patterns.blockStopPatternsNegative = [])
    (apart : patterns.blockStartPatterns ≠ patterns.blockStopPatterns) (pieces : List Text)
    (terminated : pieces.getLast? = some []) (isOpen : Bool) :
    Whole found patterns (modeAt isOpen) pieces := by
  induction pieces generalizing isOpen with
  | nil => cases terminated
  | cons line rest induction =>
      cases rest with
      | nil =>
          have empty : line = [] := by simpa using terminated
          rw [empty]
          cases isOpen with
          | true => simp [modeAt, Whole, linesOf_singleton, following]
          | false => simp [modeAt, Whole]
      | cons next rest =>
          rw [List.getLast?_cons_cons] at terminated
          cases isOpen with
          | false => exact induction terminated (begins found patterns line)
          | true =>
              rw [modeAt, if_pos rfl, Whole]
              split
              case isTrue closed =>
                have isEnd : ends found patterns line = true := by
                  simpa [closes, notNegative, noNegative, ends] using closed
                rw [linesOf_cons, following_cons, if_pos isEnd]
                exact ⟨rfl, induction terminated (begins found patterns line)⟩
              case isFalse => exact induction terminated true

theorem extractBlocks_eq_blocks_iff (text : Text) :
    AsClaimed found patterns text ↔ Whole found patterns .closed (splitChars '\n' text) := by
  have clean : ∀ piece ∈ splitChars '\n' text, '\n' ∉ piece := fun piece member =>
    TextTools.not_mem_of_mem_split member
  have walked := (collected_eq_iff found patterns (splitChars '\n' text) clean).1
  rw [AsClaimed, extractBlocks_eq, and_iff_left (flatten_blocks_sublist found patterns _).1,
    Except.ok.injEq]
  exact walked

end

/-- Blocks that begin with a `c`, as a text without a last line break has one. -/
def classPatterns : Patterns Char where
  blockStartPatterns := ['c']
  blockStartPatternsNegative := []
  blockStopPatterns := []
  blockStopPatternsNegative := []
  linesIncludePatterns := ['c', 'd']
  linesExcludePatterns := []
  includeMatchingLine := true

/-- The last line of the text is not in the block that it belongs to. -/
theorem last_line_is_lost :
    ¬ AsClaimed (fun char line => line.contains char) classPatterns ['c', '\n', 'd'] := by
  intro claimed
  have returned := claimed.1
  rw [extractBlocks_eq] at returned
  have texts := Except.ok.inj returned
  revert texts
  decide

end JumpscaleX.TextBlocks
