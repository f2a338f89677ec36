import JumpscaleX.FSPathParts

/-!
# Double dots, and paths that are not below a base

A path that is not below a base is left as it is when it is normalised and the base stands
nowhere in it.  In `processPathForDoubleDots` the empty text in front of the first slash is a
part like the others.
-/

namespace JumpscaleX.FSPaths

open Profiles (Text strip Ends)
open Separated (parts join)

variable {process : Process}

/-! ## Paths that are not below a base -/

/-- A path whose normalised text is neither a base nor below it. -/
structure Outside (process : Process) where
  base : Text
  path : Text
  found : Text
  normalised : Normalised process base
  there : pathNormalize process path = .ok found
  notBase : base ≠ pathClean found
  notBelow : ¬ pathDirClean base <+: pathClean found

/-- A normalised path is absolute, except that of blanks only. -/
theorem head?_pathNormalize {path found : Text} (there : pathNormalize process path = .ok found) :
    found.head? = some '/' ∨ (pathClean path = [] ∧ found = ['.']) := by
  have joined : ∀ base rest : Text, base.head? = some '/' →
      (joinPaths base rest).head? = some '/' := by
    intro base rest absolute
    rw [joinPaths]
    split
    · assumption
    · split
      · rw [List.head?_append, absolute, Option.some_or]
      · rw [List.head?_append, absolute, Option.some_or]
  rw [pathNormalize] at there
  split at there
  · rw [← Except.ok.inj there]
    exact .inl process.cwd_absolute
  · split at there
    · rename_i blank
      exact .inr ⟨blank, (Except.ok.inj there).symm⟩
    · left
      split at there
      · rename_i first rest _ slash
        rw [← Except.ok.inj there]
        apply head?_pathShorten
        rw [slash]
        rfl
      · split at there
        · split at there
          · exact absurd there (by simp)
          · rename_i home isHome
            rw [← Except.ok.inj there]
            exact head?_pathShorten (joined _ _ (process.home_absolute home isHome))
        · rw [← Except.ok.inj there]
          exact head?_pathShorten (joined _ _ process.cwd_absolute)

namespace Outside

variable (input : Outside process)

theorem pathRemoveDirPart_eq : pathRemoveDirPart process input.path input.base false =
    .ok (pathClean (Lines.replace (pathDirClean input.base) [] 0 (pathClean input.found))) := by
  rw [FSPaths.pathRemoveDirPart_eq input.normalised input.there, if_neg input.notBase]

/-- What is left of an absolute path is absolute. -/
theorem head?_left (absolute : input.found.head? = some '/') :
    (pathClean (Lines.replace (pathDirClean input.base) [] 0 (pathClean input.found))).head? =
      some '/' := by
  apply head?_pathClean
  obtain ⟨rest, split⟩ := List.head?_eq_some_iff.mp (head?_pathClean absolute)
  obtain ⟨tail, directory⟩ := exists_cons_pathDirClean input.normalised
  have notBelow := input.notBelow
  rw [split, directory] at notBelow
  rw [split, directory]
  rcases Lines.replace_cases '/' tail [] rest '/' with ⟨below, whole, _⟩ | ⟨_, kept⟩
  · exact absurd ⟨below, whole.symm⟩ notBelow
  · rw [kept]
    rfl

theorem absolute_of_kept
    (result : pathRemoveDirPart process input.path input.base false = .ok input.path) :
    input.path.head? = some '/' := by
  rw [input.pathRemoveDirPart_eq, Except.ok.injEq] at result
  rcases head?_pathNormalize input.there with absolute | ⟨blank, dot⟩
  · have first := input.head?_left absolute
    rwa [result] at first
  · -- a path of blanks only would be a dot
    obtain ⟨tail, directory⟩ := exists_cons_pathDirClean input.normalised
    have kept : Lines.replace (pathDirClean input.base) [] 0 (pathClean ['.']) = ['.'] := by
      rw [directory]
      exact Lines.replace_of_first_not_mem (by decide) tail
    rw [dot, kept] at result
    rw [← result] at blank
    exact absurd blank (by decide)

/-- A path that is not below a base is kept if and only if it is normalised and the directory
of the base stands nowhere in it. -/
theorem pathRemoveDirPart_iff :
    pathRemoveDirPart process input.path input.base false = .ok input.path ↔
      Normalised process input.path ∧ ¬ pathDirClean input.base <:+: input.path := by
  constructor
  · intro result
    have absolute := input.absolute_of_kept result
    have found : input.found = pathShorten (pathClean input.path) := by
      have there := input.there
      rw [pathNormalize_absolute absolute] at there
      exact (Except.ok.inj there).symm
    rw [input.pathRemoveDirPart_eq, Except.ok.injEq] at result
    have plainFound : '\\' ∉ input.found := by
      rw [found]
      intro member
      exact not_mem_pathClean ((pathShorten_sublist (head?_pathClean absolute)).subset member)
    -- no step makes the text longer, so that none makes it shorter
    have first := @pathClean_length_le input.path
    have second := (pathShorten_sublist (head?_pathClean absolute)).length_le
    have third := @pathClean_length_le input.found
    have fourth := length_replace_le input.normalised (pathClean input.found)
    have fifth := @pathClean_length_le
      (Lines.replace (pathDirClean input.base) [] 0 (pathClean input.found))
    rw [← found] at second
    rw [result] at fifth
    have clean : pathClean input.found = input.found :=
      pathClean_of_length plainFound (by omega)
    have absent : ¬ pathDirClean input.base <:+: input.found := by
      intro occurs
      rw [← clean] at occurs
      have shorter := length_replace_lt input.normalised occurs
      omega
    rw [clean, Lines.replace_of_absent absent, clean] at result
    refine ⟨⟨absolute, ?_⟩, ?_⟩
    · rw [input.there, result]
    · rwa [← result]
  · rintro ⟨normal, absent⟩
    have found : input.found = input.path := by
      have there := input.there
      rw [normal.unchanged] at there
      exact (Except.ok.inj there).symm
    rw [input.pathRemoveDirPart_eq, found, normal.clean, Lines.replace_of_absent absent,
      normal.clean]

end Outside

/-! ## Double dots -/

/-- The parts that are left when each `..` cancels the nearest part before it. -/
def cancel : List Text → List Text → Option (List Text)
  | left, [] => some left
  | left, item :: items =>
      if item = ['.', '.'] then
        if left = [] then none else cancel left.dropLast items
      else cancel (left ++ [item]) items

/-- How many of the items are `..`. -/
def dots (items : List Text) : Nat :=
  items.countP (fun item => decide (item = ['.', '.']))

/-- How many of the items are not `..`. -/
def others (items : List Text) : Nat :=
  items.countP (fun item => decide (item ≠ ['.', '.']))

/-- For each `..` there is another item before it. -/
def Covered (items : List Text) : Prop :=
  ∀ front, front <+: items → dots front ≤ others front

/-- The items cancel each other. -/
def Balanced (items : List Text) : Prop :=
  Covered items ∧ dots items = others items

section

variable {left result items : List Text}

theorem dots_cons (item : Text) (items : List Text) :
    dots (item :: items) = dots items + if item = ['.', '.'] then 1 else 0 := by
  simp [dots, List.countP_cons]

theorem others_cons (item : Text) (items : List Text) :
    others (item :: items) = others items + if item = ['.', '.'] then 0 else 1 := by
  by_cases same : item = ['.', '.']
  · simp [others, same]
  · simp [others, same]

theorem length_of_cancel (cancels : cancel left items = some result) :
    result.length + dots items = left.length + others items := by
  induction items generalizing left with
  | nil =>
      rw [cancel, Option.some.injEq] at cancels
      rw [cancels]
      rfl
  | cons item items induction =>
      rw [cancel] at cancels
      rw [dots_cons, others_cons]
      split at cancels
      · rename_i same
        split at cancels
        · exact absurd cancels (by simp)
        · rename_i filled
          have tail := induction cancels
          have positive := List.length_pos_of_ne_nil filled
          rw [List.length_dropLast] at tail
          rw [if_pos same, if_pos same]
          omega
      · rename_i differs
        have tail := induction cancels
        rw [List.length_append, List.length_singleton] at tail
        rw [if_neg differs, if_neg differs]
        omega

/-- Nothing is left to cancel where there are more `..` than parts. -/
theorem cancel_eq_none_iff : cancel left items = none ↔
    ∃ front, front <+: items ∧ left.length + others front < dots front := by
  induction items generalizing left with
  | nil =>
      rw [cancel]
      constructor
      · intro absurdity
        exact absurd absurdity (by simp)
      · rintro ⟨front, isPrefix, more⟩
        rw [List.prefix_nil.mp isPrefix] at more
        simp [dots] at more
  | cons item items induction =>
      have prefixes : ∀ P : List Text → Prop, (∃ front, front <+: item :: items ∧ P front) ↔
          P [] ∨ ∃ front, front <+: items ∧ P (item :: front) := by
        intro P
        constructor
        · rintro ⟨front, isPrefix, holds⟩
          cases front with
          | nil => exact .inl holds
          | cons first front =>
              obtain ⟨same, tail⟩ := List.cons_prefix_cons.mp isPrefix
              rw [same] at holds
              exact .inr ⟨front, tail, holds⟩
        · rintro (empty | ⟨front, isPrefix, holds⟩)
          · exact ⟨[], List.nil_prefix, empty⟩
          · exact ⟨item :: front, List.cons_prefix_cons.mpr ⟨rfl, isPrefix⟩, holds⟩
      rw [prefixes, cancel]
      have nothing : ¬ left.length + others [] < dots [] := by simp [dots]
      split
      · rename_i same
        split
        · rename_i empty
          constructor
          · intro _
            refine .inr ⟨[], List.nil_prefix, ?_⟩
            rw [empty, others_cons, dots_cons, if_pos same, if_pos same]
            simp [others, dots]
          · intro _
            rfl
        · rename_i filled
          have positive := List.length_pos_of_ne_nil filled
          rw [induction]
          constructor
          · rintro ⟨front, isPrefix, more⟩
            refine .inr ⟨front, isPrefix, ?_⟩
            rw [List.length_dropLast] at more
            rw [others_cons, dots_cons, if_pos same, if_pos same]
            omega
          · rintro (more | ⟨front, isPrefix, more⟩)
            · exact absurd more nothing
            · refine ⟨front, isPrefix, ?_⟩
              rw [others_cons, dots_cons, if_pos same, if_pos same] at more
              rw [List.length_dropLast]
              omega
      · rename_i differs
        rw [induction]
        constructor
        · rintro ⟨front, isPrefix, more⟩
          refine .inr ⟨front, isPrefix, ?_⟩
          rw [List.length_append, List.length_singleton] at more
          rw [others_cons, dots_cons, if_neg differs, if_neg differs]
          omega
        · rintro (more | ⟨front, isPrefix, more⟩)
          · exact absurd more nothing
          · refine ⟨front, isPrefix, ?_⟩
            rw [others_cons, dots_cons, if_neg differs, if_neg differs] at more
            rw [List.length_append, List.length_singleton]
            omega

theorem cancel_append (left first second : List Text) :
    cancel left (first ++ second) = (cancel left first).bind (fun rest => cancel rest second) := by
  induction first generalizing left with
  | nil => rfl
  | cons item first induction =>
      rw [List.cons_append, cancel, cancel]
      split
      · split
        · rfl
        · exact induction _
      · exact induction _

/-- What stands below the parts that cancel stays there. -/
theorem cancel_below (base : List Text) (cancels : cancel left items = some result) :
    cancel (base ++ left) items = some (base ++ result) := by
  induction items generalizing left with
  | nil =>
      rw [cancel, Option.some.injEq] at cancels
      rw [cancel, cancels]
  | cons item items induction =>
      rw [cancel] at cancels ⊢
      split at cancels
      · rename_i same
        split at cancels
        · exact absurd cancels (by simp)
        · rename_i filled
          rw [if_pos same, if_neg (by simp [filled]), List.dropLast_append_of_ne_nil filled]
          exact induction cancels
      · rename_i differs
        rw [if_neg differs, List.append_assoc]
        exact induction cancels

theorem mem_of_cancel (cancels : cancel left items = some result) {part : Text}
    (member : part ∈ result) : part ∈ left ∨ part ∈ items := by
  induction items generalizing left with
  | nil =>
      rw [cancel, Option.some.injEq] at cancels
      rw [cancels]
      exact .inl member
  | cons item items induction =>
      rw [cancel] at cancels
      split at cancels
      · split at cancels
        · exact absurd cancels (by simp)
        · rcases induction cancels with inLeft | later
          · exact .inl (List.dropLast_subset left inLeft)
          · exact .inr (List.mem_cons_of_mem _ later)
      · rcases induction cancels with inLeft | later
        · rcases List.mem_append.mp inLeft with former | added
          · exact .inl former
          · rw [List.mem_singleton.mp added]
            exact .inr List.mem_cons_self
        · exact .inr (List.mem_cons_of_mem _ later)

/-- Items that are not empty put no empty part in the second place. -/
theorem second_of_cancel (filled : [] ∉ items)
    (second : ∀ part, left[1]? = some part → part ≠ [])
    (cancels : cancel left items = some result) :
    ∀ part, result[1]? = some part → part ≠ [] := by
  induction items generalizing left with
  | nil =>
      rw [cancel, Option.some.injEq] at cancels
      rwa [← cancels]
  | cons item items induction =>
      rw [List.mem_cons, not_or] at filled
      rw [cancel] at cancels
      split at cancels
      · split at cancels
        · exact absurd cancels (by simp)
        · apply induction filled.2 ?_ cancels
          intro part isPart
          apply second part
          rw [List.getElem?_dropLast] at isPart
          split at isPart
          · exact isPart
          · exact absurd isPart (by simp)
      · apply induction filled.2 ?_ cancels
        intro part isPart
        rcases Nat.lt_or_ge 1 left.length with inside | short
        · rw [List.getElem?_append_left inside] at isPart
          exact second part isPart
        · rw [List.getElem?_append_right short] at isPart
          obtain ⟨_, same⟩ := List.getElem?_eq_some_iff.mp isPart
          rw [List.getElem_singleton] at same
          rw [← same]
          exact fun empty => filled.1 empty.symm

theorem covered_of_cancel (cancels : cancel [] items = some result) : Covered items := by
  intro front isPrefix
  by_contra more
  have none : cancel [] items = none := cancel_eq_none_iff.mpr
    ⟨front, isPrefix, by simpa using more⟩
  rw [none] at cancels
  exact absurd cancels (by simp)

theorem Covered.exists_cancel (covered : Covered items) :
    ∃ result, cancel [] items = some result := by
  cases result : cancel [] items with
  | some left => exact ⟨left, rfl⟩
  | none =>
      obtain ⟨front, isPrefix, more⟩ := cancel_eq_none_iff.mp result
      have fewer := covered front isPrefix
      simp at more
      omega

theorem balanced_iff : Balanced items ↔ cancel [] items = some [] := by
  constructor
  · rintro ⟨covered, same⟩
    obtain ⟨result, cancels⟩ := covered.exists_cancel
    have length := length_of_cancel cancels
    have empty : result = [] := by
      apply List.eq_nil_of_length_eq_zero
      simp at length
      omega
    rwa [empty] at cancels
  · intro cancels
    have length := length_of_cancel cancels
    exact ⟨covered_of_cancel cancels, by simpa using length⟩

/-- The items that are not empty. -/
def filled (items : List Text) : List Text :=
  items.filter (fun item => !item.isEmpty)

theorem dots_filled : dots (filled items) = dots items := by
  rw [dots, filled, List.countP_filter, dots]
  apply List.countP_congr
  intro item _
  by_cases same : item = ['.', '.']
  · simp [same]
  · simp [same]

theorem others_filled : others items = others (filled items) + items.count [] := by
  induction items with
  | nil => rfl
  | cons item items induction =>
      rw [others_cons, induction]
      by_cases empty : item = []
      · have left : filled (item :: items) = filled items := by simp [filled, empty]
        rw [left, empty, List.count_cons_self, if_neg (by decide)]
        omega
      · have kept : filled (item :: items) = item :: filled items := by simp [filled, empty]
        have counted : (item :: items).count [] = items.count [] :=
          List.count_cons_of_ne empty
        rw [kept, others_cons, counted]
        omega

theorem filled_eq_self (noEmpty : [] ∉ items) : filled items = items := by
  apply List.filter_eq_self.mpr
  intro item member
  have differs : item ≠ [] := by
    intro empty
    exact noEmpty (by rwa [← empty])
  simpa using differs

/-- Where the whole items with the part in front of them cancel too far, the filled ones
do. -/
theorem cancel_filled_eq_none (none : cancel [[]] items = none) :
    cancel [] (filled items) = .none := by
  obtain ⟨front, isPrefix, more⟩ := cancel_eq_none_iff.mp none
  apply cancel_eq_none_iff.mpr
  refine ⟨filled front, isPrefix.filter _, ?_⟩
  have fewer := @others_filled front
  rw [dots_filled]
  simp at more ⊢
  omega

theorem splitOn_join_of_clean (some : items ≠ []) (clean : ∀ item ∈ items, '/' ∉ item) :
    (join '/' items).splitOn '/' = items := by
  rw [Separated.splitOn_join some]
  have single : ∀ item ∈ items, item.splitOn '/' = [item] := fun item member =>
    List.splitOn_eq_singleton (clean item member)
  rw [List.flatMap_congr single]
  simp

end

/-! ## The loop -/

theorem foldlM_dotsStep (left items : List Text) :
    items.foldlM dotsStep left =
      match cancel left items with
      | some result => .ok result
      | none =>
          .error (.runtime "Cannot processPathForDoubleDots for paths with only ..") := by
  induction items generalizing left with
  | nil => rfl
  | cons item items induction =>
      rw [List.foldlM_cons, dotsStep, cancel]
      split
      · split
        · rfl
        · exact induction _
      · exact induction _

/-- The items behind the first slash of a path that is cleaned. -/
def itemsOf (path : Text) : List Text :=
  ((pathClean path).drop 1).splitOn '/'

theorem processPathForDoubleDots_eq {path : Text} (absolute : path.head? = some '/') :
    processPathForDoubleDots path =
      match cancel [[]] (itemsOf path) with
      | some result => .ok (join '/' result)
      | none =>
          .error (.runtime "Cannot processPathForDoubleDots for paths with only ..") := by
  obtain ⟨rest, split⟩ := List.head?_eq_some_iff.mp (head?_pathClean absolute)
  have items : (pathClean path).splitOn '/' = [] :: itemsOf path := by
    rw [itemsOf, split, List.splitOn_cons_eq_if_modifyHead]
    simp
  rw [processPathForDoubleDots, forwardSlashes_of_not_mem not_mem_pathClean, items,
    foldlM_dotsStep, cancel, if_neg (by decide), List.nil_append]
  cases cancel [[]] (itemsOf path) with
  | none => rfl
  | some result => rfl

theorem parts_pathClean {path : Text} (absolute : path.head? = some '/') :
    parts '/' (pathClean path) = filled (itemsOf path) := by
  obtain ⟨rest, split⟩ := List.head?_eq_some_iff.mp (head?_pathClean absolute)
  rw [itemsOf, split, Separated.parts_cons_separator]
  rfl

/-- The absolute path of the parts of a clean path that no `..` cancels. -/
def cancelled (path : Text) : Option Text :=
  (cancel [] (parts '/' (pathClean path))).map (fun left => '/' :: join '/' left)

/-- The result is the path that is left, or an error where nothing is left to cancel. -/
def DotsCancel (path : Text) : Prop :=
  match cancelled path with
  | some result => processPathForDoubleDots path = .ok result
  | none => ∃ error, processPathForDoubleDots path = .error error

/-- Either two more `..` than parts come together; or no item is empty and some part is left; or
one item is empty, and the parts before it and those behind it cancel each other. -/
def DotsFit (items : List Text) : Prop :=
  (∃ front, front <+: items ∧ others front + 2 ≤ dots front) ∨
    ([] ∉ items ∧ Covered items ∧ dots items < others items) ∨
    ∃ front back, items = front ++ [] :: back ∧ [] ∉ front ∧ [] ∉ back ∧
      Balanced front ∧ Balanced back

/-- Parts that fit leave some filled ones, when they do not run out. -/
theorem cancel_filled_of_fit {items : List Text} {result : List Text}
    (cancels : cancel [[]] items = some result) (fit : DotsFit items) :
    ∃ left, cancel [] (filled items) = some left ∧ join '/' result = '/' :: join '/' left := by
  rcases fit with ⟨front, isPrefix, more⟩ | ⟨noEmpty, covered, fewer⟩ |
    ⟨front, back, split, noFront, noBack, balancedFront, balancedBack⟩
  · have none : cancel [[]] items = none := cancel_eq_none_iff.mpr
      ⟨front, isPrefix, by simp; omega⟩
    rw [none] at cancels
    exact absurd cancels (by simp)
  · obtain ⟨left, isLeft⟩ := covered.exists_cancel
    have whole := cancel_below [[]] isLeft
    rw [List.append_nil, cancels, Option.some.injEq] at whole
    have length := length_of_cancel isLeft
    have someLeft : left ≠ [] := by
      intro empty
      rw [empty] at length
      simp at length
      omega
    refine ⟨left, by rw [filled_eq_self noEmpty]; exact isLeft, ?_⟩
    rw [whole, List.singleton_append, Separated.join_cons _ someLeft, List.nil_append]
  · have first := balanced_iff.mp balancedFront
    have second := balanced_iff.mp balancedBack
    refine ⟨[], ?_, ?_⟩
    · have isFilled : filled items = front ++ back := by
        rw [split, filled, List.filter_append, List.filter_cons, ← filled, ← filled,
          filled_eq_self noFront, filled_eq_self noBack]
        rfl
      rw [isFilled, cancel_append, first]
      exact second
    · have below := cancel_below [[]] first
      have above := cancel_below [[], []] second
      rw [List.append_nil] at below above
      rw [split, cancel_append, below, Option.bind_some, cancel, if_neg (by decide)] at cancels
      have same := above.symm.trans cancels
      rw [← Option.some.inj same]
      rfl

/-- Where the result is the path that is left, the items fit. -/
theorem fit_of_cancel {items result left : List Text} (clean : ∀ item ∈ items, '/' ∉ item)
    (cancels : cancel [[]] items = some result) (expected : cancel [] (filled items) = some left)
    (same : join '/' result = '/' :: join '/' left) : DotsFit items := by
  have leftClean : ∀ part ∈ left, part ≠ [] ∧ '/' ∉ part := by
    intro part member
    rcases mem_of_cancel expected member with absurdity | inside
    · simp at absurdity
    · obtain ⟨inItems, some⟩ := List.mem_filter.mp inside
      exact ⟨by simpa using some, clean part inItems⟩
  have resultClean : ∀ part ∈ result, '/' ∉ part := by
    intro part member
    rcases mem_of_cancel cancels member with first | inside
    · rw [List.mem_singleton.mp first]
      simp
    · exact clean part inside
  have someResult : result ≠ [] := by
    intro empty
    rw [empty] at same
    simp [join] at same
  have cut : (join '/' result).splitOn '/' = ('/' :: join '/' left).splitOn '/' := by
    rw [same]
  rw [splitOn_join_of_clean someResult resultClean, List.splitOn_cons_eq_if_modifyHead] at cut
  simp only [beq_self_eq_true, if_true] at cut
  have resultLength := length_of_cancel cancels
  have leftLength := length_of_cancel expected
  have counted := @others_filled items
  rw [dots_filled] at leftLength
  simp only [List.length_singleton, List.length_nil, Nat.zero_add] at resultLength leftLength
  by_cases someLeft : left = []
  · -- the root is left, which a second empty part behind the first one is
    rw [someLeft] at cut expected leftLength
    have isRoot : result = [[], []] := cut
    rw [isRoot] at cancels resultLength
    simp only [List.length_cons, List.length_nil] at resultLength leftLength
    have once : items.count [] = 1 := by omega
    have member : [] ∈ items := List.count_pos_iff.mp (by omega)
    obtain ⟨front, back, split, noFront⟩ := List.eq_append_cons_of_mem member
    have noBack : [] ∉ back := by
      apply List.count_eq_zero.mp
      rw [split, List.count_append, List.count_cons_self] at once
      omega
    have isFilled : filled items = front ++ back := by
      rw [split, filled, List.filter_append, List.filter_cons, ← filled, ← filled,
        filled_eq_self noFront, filled_eq_self noBack]
      rfl
    rw [isFilled, cancel_append] at expected
    obtain ⟨kept, first, second⟩ := Option.bind_eq_some_iff.mp expected
    have below := cancel_below [[]] first
    rw [List.append_nil] at below
    rw [split, cancel_append, below, Option.bind_some, cancel, if_neg (by decide)] at cancels
    have nothing : kept = [] := by
      by_contra notNil
      obtain ⟨part, rest, isKept⟩ := List.exists_cons_of_ne_nil notNil
      have inKept : part ∈ kept := by
        rw [isKept]
        exact List.mem_cons_self
      have partFilled : part ≠ [] := by
        rcases mem_of_cancel first inKept with absurdity | inFront
        · simp at absurdity
        · intro empty
          exact noFront (by rwa [← empty])
      have place : ∀ other, ([[]] ++ kept ++ [[]])[1]? = some other → other ≠ [] := by
        intro other isOther
        rw [isKept] at isOther
        simp at isOther
        rwa [← isOther]
      exact second_of_cancel noBack place cancels [] rfl rfl
    rw [nothing] at first second
    exact .inr (.inr ⟨front, back, split, noFront, noBack, balanced_iff.mpr first,
      balanced_iff.mpr second⟩)
  · have again := splitOn_join_of_clean someLeft (fun part member => (leftClean part member).2)
    rw [again] at cut
    rw [cut, List.length_cons] at resultLength
    have noEmpty : [] ∉ items := List.count_eq_zero.mp (by omega)
    rw [filled_eq_self noEmpty] at expected leftLength
    have positive := List.length_pos_of_ne_nil someLeft
    exact .inr (.inl ⟨noEmpty, covered_of_cancel expected, by omega⟩)

theorem dotsCancel_iff {path : Text} (absolute : path.head? = some '/') :
    DotsCancel path ↔ DotsFit (itemsOf path) := by
  have clean : ∀ item ∈ itemsOf path, '/' ∉ item := fun _ member =>
    Separated.not_mem_of_mem_splitOn member
  rw [DotsCancel, cancelled, parts_pathClean absolute, processPathForDoubleDots_eq absolute]
  cases cancels : cancel [[]] (itemsOf path) with
  | none =>
      rw [cancel_filled_eq_none cancels]
      constructor
      · intro _
        obtain ⟨front, isPrefix, more⟩ := cancel_eq_none_iff.mp cancels
        exact .inl ⟨front, isPrefix, by simp at more; omega⟩
      · intro _
        exact ⟨_, rfl⟩
  | some result =>
      constructor
      · intro claimed
        cases expected : cancel [] (filled (itemsOf path)) with
        | none =>
            rw [expected] at claimed
            obtain ⟨error, absurdity⟩ := claimed
            exact absurd absurdity (by simp)
        | some left =>
            rw [expected] at claimed
            exact fit_of_cancel clean cancels expected (Except.ok.inj claimed)
      · intro fit
        obtain ⟨left, expected, same⟩ := cancel_filled_of_fit cancels fit
        rw [expected]
        exact congrArg Except.ok same

/-! ## Paths -/

/-- What the path arithmetic is called with: a path joined to a base, a path that is not below
a base, or an absolute path with `..` in it. -/
inductive Input (process : Process) where
  | below (input : Joined process)
  | outside (input : Outside process)
  | dots (path : Text) (absolute : path.head? = some '/')

/-- A base is removed from the paths below it and from no others, and each `..` cancels the
nearest part before it. -/
def AsClaimed : Input process → Prop
  | .below input =>
      pathRemoveDirPart process (joinPaths input.base input.rel) input.base false = .ok input.rel
  | .outside input => pathRemoveDirPart process input.path input.base false = .ok input.path
  | .dots path _ => DotsCancel path

/-- The directory of the base stands nowhere else in the path, which is normal; and the parts
do not end at the root unless an empty one is kept for it. -/
def Sound : Input process → Prop
  | .below input =>
      '\\' ∉ input.rel ∧ input.rel = join '/' (properParts input.rel) ∧
        ¬ pathDirClean input.base <:+: input.rel
  | .outside input => Normalised process input.path ∧ ¬ pathDirClean input.base <:+: input.path
  | .dots path _ => DotsFit (itemsOf path)

theorem path_arithmetic_iff (input : Input process) : AsClaimed input ↔ Sound input := by
  cases input with
  | below input => exact input.pathRemoveDirPart_path_iff
  | outside input => exact input.pathRemoveDirPart_iff
  | dots path absolute => exact dotsCancel_iff absolute

/-- A process in the root directory. -/
def atRoot : Process where
  cwd := ['/']
  home := none
  cwd_absolute := rfl
  home_absolute := by simp

/-- The directory `a` with a path below it that has a directory of the same name. -/
def repeatedName : Joined atRoot where
  base := "/a".toList
  rel := "x/a/y".toList
  normalised := ⟨by decide, by decide⟩
  relative := by decide
  names := by decide

/-- From `/a/x/a/y` the text `/a/` is removed twice, and `/../a` becomes a relative path. -/
theorem repeated_name_is_lost :
    ¬ AsClaimed (.below repeatedName) ∧
      ¬ @AsClaimed atRoot (.dots "/../a".toList (by decide)) := by
  constructor
  · intro claimed
    have result : pathRemoveDirPart atRoot "/a/x/a/y".toList "/a".toList false =
        .ok "xy".toList := by rfl
    have joined : joinPaths "/a".toList "x/a/y".toList = "/a/x/a/y".toList := by rfl
    rw [AsClaimed, repeatedName] at claimed
    simp only [joined, result] at claimed
    exact absurd (Except.ok.inj claimed) (by decide)
  · intro claimed
    have result : processPathForDoubleDots "/../a".toList = .ok "a".toList := by rfl
    have expected : cancelled "/../a".toList = none := by decide
    rw [AsClaimed, DotsCancel, expected, result] at claimed
    obtain ⟨error, absurdity⟩ := claimed
    exact absurd absurdity (by simp)

end JumpscaleX.FSPaths
