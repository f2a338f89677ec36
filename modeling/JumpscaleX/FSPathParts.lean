import JumpscaleX.FSPaths

/-!
# Directories removed from paths

What `pathRemoveDirPart` makes of a path below a base, and of one that is not below it.
-/

namespace JumpscaleX.FSPaths

open Profiles (Text strip Ends)
open Separated (parts join)

variable {process : Process}

section

variable {names : List Text} {path : Text}

theorem singleSlashes_slashed (clean : ∀ name ∈ names, name ≠ [] ∧ '/' ∉ name) (rest : Text) :
    singleSlashes (slashed names ++ rest) = slashed names ++ singleSlashes rest := by
  induction names with
  | nil => rfl
  | cons name names induction =>
      obtain ⟨⟨some, plain⟩, others⟩ := List.forall_mem_cons.mp clean
      have step := singleSlashes_one plain some (slashed names ++ rest)
      rw [slashed, List.flatMap_cons, ← slashed, List.append_assoc, List.cons_append, step,
        induction others]
      simp

theorem singleSlashes_join (clean : ∀ name ∈ names, name ≠ [] ∧ '/' ∉ name) :
    singleSlashes (join '/' names) = join '/' names := by
  cases names with
  | nil => rfl
  | cons name names =>
      obtain ⟨⟨_, plain⟩, others⟩ := List.forall_mem_cons.mp clean
      have tail : ∃ rest, join '/' (name :: names) = name ++ rest ∧
          singleSlashes rest = rest := by
        by_cases empty : names = []
        · refine ⟨[], ?_, rfl⟩
          rw [empty, Separated.join_singleton, List.append_nil]
        · refine ⟨slashed names, ?_, ?_⟩
          · rw [Separated.join_cons name empty, cons_join empty]
          · have step := singleSlashes_slashed others []
            rw [List.append_nil] at step
            rw [step, singleSlashes, Lines.replace, List.append_nil]
      obtain ⟨rest, whole, single⟩ := tail
      rw [whole, singleSlashes_append plain, single]

theorem singleSlashes_cons_join (clean : ∀ name ∈ names, name ≠ [] ∧ '/' ∉ name) :
    singleSlashes ('/' :: join '/' names) = '/' :: join '/' names := by
  by_cases empty : names = []
  · rw [empty]
    rfl
  · have step := singleSlashes_slashed clean []
    rw [List.append_nil] at step
    rw [cons_join empty, step, singleSlashes, Lines.replace, List.append_nil]

theorem getLast?_singleSlashes : (singleSlashes path).getLast? = path.getLast? := by
  induction size : path.length using Nat.strongRecOn generalizing path with
  | ind total induction =>
      cases path with
      | nil => rfl
      | cons char path =>
          rcases Lines.replace_cases '/' ['/'] ['/'] path char with
            ⟨rest, split, replaced⟩ | ⟨_, kept⟩
          · have shorter : rest.length < total := by
              rw [← size, split, List.length_append, List.length_cons]
              omega
            have last := @induction _ shorter rest rfl
            rw [singleSlashes] at last
            rw [singleSlashes, replaced, split]
            simp [List.getLast?_cons, last]
          · have last := @induction _ (by rw [← size]; simp) path rfl
            rw [singleSlashes] at last
            rw [singleSlashes, kept, List.getLast?_cons, List.getLast?_cons, last]

/-- A joined text ends like one of its parts, or with a slash. -/
theorem getLast?_join
    (ends : ∀ name ∈ names, ∀ char, name.getLast? = some char → HostFile.isspace char = false) :
    ∀ char, (join '/' names).getLast? = some char → HostFile.isspace char = false := by
  induction names with
  | nil =>
      intro char last
      exact absurd last (by simp [join])
  | cons name names induction =>
      obtain ⟨first, others⟩ := List.forall_mem_cons.mp ends
      intro char last
      by_cases empty : names = []
      · rw [empty, Separated.join_singleton] at last
        exact first char last
      · rw [Separated.join_cons name empty, List.getLast?_append, List.getLast?_cons,
          Option.some_or, Option.some.injEq] at last
        cases tail : (join '/' names).getLast? with
        | none =>
            rw [tail] at last
            rw [← last]
            decide
        | some inner =>
            rw [tail] at last
            rw [← last]
            exact induction others inner tail

/-- Slashes that are replaced separate no other parts. -/
theorem parts_append_singleSlashes {part : Text} (plain : '/' ∉ part) :
    parts '/' (part ++ singleSlashes path) = parts '/' (part ++ path) := by
  induction size : path.length using Nat.strongRecOn generalizing part path with
  | ind total induction =>
      cases path with
      | nil => rfl
      | cons char path =>
          rcases Lines.replace_cases '/' ['/'] ['/'] path char with
            ⟨rest, split, replaced⟩ | ⟨_, kept⟩
          · have shorter : rest.length < total := by
              rw [← size, split, List.length_append, List.length_cons]
              omega
            have tail := @induction _ shorter rest [] (by simp) rfl
            rw [List.nil_append, List.nil_append, singleSlashes] at tail
            rw [singleSlashes, replaced, split]
            simp only [List.singleton_append, List.cons_append, List.nil_append]
            rw [Separated.parts_append_separator, Separated.parts_append_separator, tail,
              Separated.parts_cons_separator]
          · rw [singleSlashes, kept]
            have shorter : path.length < total := by
              rw [← size]
              simp
            by_cases slash : char = '/'
            · have tail := @induction _ shorter path [] (by simp) rfl
              rw [List.nil_append, List.nil_append, singleSlashes] at tail
              rw [slash, Separated.parts_append_separator, Separated.parts_append_separator, tail]
            · have longer : '/' ∉ part ++ [char] := by
                rw [List.mem_append, List.mem_singleton, not_or]
                exact ⟨plain, fun same => slash same.symm⟩
              have tail := @induction _ shorter path _ longer rfl
              rw [List.append_assoc, List.append_assoc] at tail
              exact tail

theorem parts_singleSlashes : parts '/' (singleSlashes path) = parts '/' path := by
  have whole := @parts_append_singleSlashes path [] (by simp)
  rwa [List.nil_append, List.nil_append] at whole

theorem parts_joinPaths {part : Text} (relative : part.head? ≠ some '/') :
    parts '/' (joinPaths path part) = parts '/' path ++ parts '/' part := by
  rw [joinPaths, if_neg relative]
  split
  · rename_i short
    rcases short with empty | last
    · rw [empty]
      rfl
    · obtain ⟨front, split⟩ := List.getLast?_eq_some_iff.mp last
      rw [split, List.append_assoc]
      have whole := @Separated.parts_append_separator _ _ '/' front part
      have base := @Separated.parts_append_separator _ _ '/' front []
      rw [Separated.parts_nil, List.append_nil] at base
      rw [List.singleton_append, whole, base]
  · exact Separated.parts_append_separator path part

/-- Names that are no empty text, joined and cut again. -/
theorem properParts_join (clean : ∀ name ∈ names, Proper name ∧ '/' ∉ name) :
    properParts ('/' :: join '/' names) = names := by
  have cut : names.flatMap (parts '/') = names := by
    induction names with
    | nil => rfl
    | cons name names induction =>
        obtain ⟨⟨proper, plain⟩, others⟩ := List.forall_mem_cons.mp clean
        rw [List.flatMap_cons, Separated.parts_of_not_mem proper.1 plain, induction others]
        rfl
  rw [properParts, Separated.parts_cons_separator, Separated.parts_join, cut]
  apply List.filter_eq_self.mpr
  intro name member
  exact decide_eq_true (clean name member).1.2.1

end

/-! ## Normalised paths -/

theorem pathNormalize_absolute {path : Text} (absolute : path.head? = some '/') :
    pathNormalize process path = .ok (pathShorten (pathClean path)) := by
  obtain ⟨rest, split⟩ := List.head?_eq_some_iff.mp (head?_pathClean absolute)
  have some : path ≠ [] := by
    intro empty
    rw [empty] at absolute
    simp at absolute
  rw [pathNormalize, if_neg some, split]
  rfl

namespace Normalised

variable {path : Text}

theorem shortened (normalised : Normalised process path) :
    pathShorten (pathClean path) = path := by
  have same := normalised.unchanged
  rw [pathNormalize_absolute normalised.absolute, Except.ok.injEq] at same
  exact same

theorem not_mem (normalised : Normalised process path) : '\\' ∉ path := by
  intro member
  rw [← normalised.shortened] at member
  have inner := (pathShorten_sublist (head?_pathClean normalised.absolute)).subset member
  exact not_mem_pathClean inner

theorem clean (normalised : Normalised process path) : pathClean path = path := by
  apply pathClean_of_length normalised.not_mem
  have short := (pathShorten_sublist (head?_pathClean normalised.absolute)).length_le
  rwa [normalised.shortened] at short

theorem ends (normalised : Normalised process path) : Ends HostFile.isspace path := by
  have same := normalised.clean
  rw [pathClean_eq normalised.not_mem] at same
  have single : (singleSlashes path).length ≤ path.length := singleSlashes_sublist.length_le
  have stripped : (strip (singleSlashes path)).Sublist (singleSlashes path) :=
    Profiles.strip_sublist
  rw [same] at stripped
  have whole : singleSlashes path = path := (stripped.eq_of_length_le single).symm
  rw [whole] at same
  exact Profiles.strip_eq_self_iff.mp same

/-- A normalised path is one slash and its names. -/
theorem exists_names (normalised : Normalised process path) :
    ∃ names, (∀ name ∈ names, Proper name ∧ '/' ∉ name) ∧ path = '/' :: join '/' names := by
  obtain ⟨rest, split, joined, initial⟩ := pathShorten_absolute normalised.absolute
  have same := normalised.shortened
  rw [normalised.clean, joined] at same
  refine ⟨(rest.splitOn '/').foldl (normStep true) [], ?_, ?_⟩
  · intro name member
    refine ⟨foldl_normStep_proper (by simp) name member, ?_⟩
    have cut := (@foldl_normStep_sublist true [] _).subset member
    rw [List.nil_append] at cut
    exact Separated.not_mem_of_mem_splitOn cut
  · rcases initial with one | two
    · rw [one] at same
      exact same.symm
    · -- two slashes in front are one in a clean path
      rw [two] at split
      have short : (pathClean path).length < path.length := by
        have stripped := (@Profiles.strip_sublist HostFile.isspace
          (forwardSlashes (singleSlashes path))).length_le
        have single := (@singleSlashes_sublist rest).length_le
        rw [forwardSlashes, List.length_map] at stripped
        rw [pathClean]
        apply lt_of_le_of_lt stripped
        rw [split]
        simp only [List.cons_append, List.nil_append, singleSlashes_two, List.length_cons]
        omega
      rw [normalised.clean] at short
      exact absurd short (lt_irrefl _)

end Normalised

/-! ## The directory of a base -/

section

variable {names : List Text} {base : Text}

theorem cons_join_append (names others : List Text) (some : others ≠ []) :
    '/' :: join '/' (names ++ others) = slashed names ++ '/' :: join '/' others := by
  rw [cons_join (by simp [some]), cons_join some, slashed, List.flatMap_append]
  rfl

/-- A base as a directory: its names with a slash before each, and one behind. -/
theorem pathDirClean_eq (normalised : Normalised process base)
    (clean : ∀ name ∈ names, Proper name ∧ '/' ∉ name) (isBase : base = '/' :: join '/' names) :
    pathDirClean base = slashed names ++ ['/'] := by
  by_cases empty : names = []
  · rw [isBase, empty]
    decide
  · have whole : base = slashed names := isBase.trans (cons_join empty)
    have plain : '\\' ∉ slashed names ++ ['/'] := by
      rw [← whole]
      simp [normalised.not_mem]
    rw [pathDirClean, whole]
    apply pathClean_of_ends plain
    · rw [singleSlashes_slashed (fun name member => ⟨(clean name member).1.1, (clean name member).2⟩)]
      rfl
    · constructor
      · intro char first
        have absolute := normalised.absolute
        rw [whole] at absolute
        rw [List.head?_append, absolute, Option.some_or, Option.some.injEq] at first
        rw [← first]
        decide
      · intro char last
        rw [List.getLast?_concat, Option.some.injEq] at last
        rw [← last]
        decide

theorem length_le_pathDirClean (normalised : Normalised process base) :
    base.length ≤ (pathDirClean base).length := by
  obtain ⟨names, clean, isBase⟩ := normalised.exists_names
  rw [pathDirClean_eq normalised clean isBase, List.length_append]
  by_cases empty : names = []
  · rw [isBase, empty]
    simp [join]
  · rw [isBase, cons_join empty]
    simp

theorem exists_cons_pathDirClean (normalised : Normalised process base) :
    ∃ rest, pathDirClean base = '/' :: rest := by
  obtain ⟨names, clean, isBase⟩ := normalised.exists_names
  rw [pathDirClean_eq normalised clean isBase]
  cases names with
  | nil => exact ⟨[], rfl⟩
  | cons name names => exact ⟨name ++ (slashed names ++ ['/']), by simp [slashed]⟩

/-- A text without the directories that stand in it is shorter. -/
theorem length_replace_lt (normalised : Normalised process base) {path : Text}
    (occurs : pathDirClean base <:+: path) :
    (Lines.replace (pathDirClean base) [] 0 path).length < path.length := by
  obtain ⟨rest, split⟩ := exists_cons_pathDirClean normalised
  rw [split] at occurs ⊢
  exact Lines.replace_length_lt (List.nil_sublist _) (by simp) occurs

theorem length_replace_le (normalised : Normalised process base) (path : Text) :
    (Lines.replace (pathDirClean base) [] 0 path).length ≤ path.length := by
  obtain ⟨rest, split⟩ := exists_cons_pathDirClean normalised
  rw [split]
  exact (Lines.replace_sublist (List.nil_sublist _) path).length_le

theorem pathRemoveDirPart_eq (normalised : Normalised process base) {path found : Text}
    (there : pathNormalize process path = .ok found) :
    pathRemoveDirPart process path base false =
      if base = pathClean found then .ok []
      else .ok (pathClean (Lines.replace (pathDirClean base) [] 0 (pathClean found))) := by
  rw [pathRemoveDirPart, there, normalised.unchanged]
  simp only [bind, Except.bind, normalised.clean, Bool.false_eq_true, false_and, if_false, pure,
    Except.pure]

theorem not_mem_pathRemoveDirPart (normalised : Normalised process base) {path found rest : Text}
    (there : pathNormalize process path = .ok found)
    (result : pathRemoveDirPart process path base false = .ok rest) : '\\' ∉ rest := by
  rw [pathRemoveDirPart_eq normalised there] at result
  split at result
  · rw [← Except.ok.inj result]
    simp
  · rw [← Except.ok.inj result]
    exact not_mem_pathClean

end

/-! ## Paths below a base -/

/-- A normalised base, and a relative path without `..` and without blanks around the names
of its parts. -/
structure Joined (process : Process) where
  base : Text
  rel : Text
  normalised : Normalised process base
  relative : rel.head? ≠ some '/'
  names : ∀ part ∈ rel.splitOn '/', part ≠ ['.', '.'] ∧ strip part = part

namespace Joined

variable (input : Joined process)

/-- The joined path. -/
def path : Text :=
  joinPaths input.base input.rel

/-- The relative path without its empty parts and those that are `.`. -/
def normal : Text :=
  join '/' (properParts input.rel)

theorem properParts_path :
    properParts input.path = properParts input.base ++ properParts input.rel := by
  rw [path, properParts, parts_joinPaths input.relative, List.filter_append]
  rfl

theorem path_eq : input.path = input.base ++ input.rel ∨
    input.path = input.base ++ '/' :: input.rel := by
  rw [path, joinPaths, if_neg input.relative]
  split
  · exact .inl rfl
  · exact .inr rfl

theorem path_absolute : input.path.head? = some '/' := by
  obtain ⟨rest, split⟩ := List.head?_eq_some_iff.mp input.normalised.absolute
  rcases input.path_eq with short | long
  · rw [short, split]
    rfl
  · rw [long, split]
    rfl

theorem not_mem_path (plain : '\\' ∉ input.rel) : '\\' ∉ input.path := by
  have base := input.normalised.not_mem
  rcases input.path_eq with short | long
  · rw [short]
    simp [base, plain]
  · rw [long]
    simp [base, plain]

theorem ends_of_mem {part : Text} (member : part ∈ properParts input.rel) :
    Ends HostFile.isspace part := by
  have inside := List.mem_of_mem_filter (List.mem_of_mem_filter member)
  exact Profiles.strip_eq_self_iff.mp (input.names part inside).2

theorem proper_of_mem {part : Text} (member : part ∈ properParts input.rel) :
    Proper part ∧ '/' ∉ part := by
  obtain ⟨inParts, differs⟩ := List.mem_filter.mp member
  have clean := Separated.of_mem_parts inParts
  have noDots := (input.names part (List.mem_of_mem_filter inParts)).1
  exact ⟨⟨clean.1, of_decide_eq_true differs, noDots⟩, clean.2⟩

theorem last_rel : ∀ char, input.rel.getLast? = some char → HostFile.isspace char = false := by
  rw [← join_splitOn input.rel]
  apply getLast?_join
  intro part member
  exact (Profiles.strip_eq_self_iff.mp (input.names part member).2).2

theorem ends_path : Ends HostFile.isspace input.path := by
  have slash : HostFile.isspace '/' = false := by decide
  constructor
  · intro char first
    rw [input.path_absolute, Option.some.injEq] at first
    rw [← first]
    exact slash
  · intro char last
    cases tail : input.rel.getLast? with
    | none =>
        have empty := List.getLast?_eq_none_iff.mp tail
        rcases input.path_eq with short | long
        · rw [short, empty, List.append_nil] at last
          exact input.normalised.ends.2 char last
        · rw [long, empty, List.getLast?_concat, Option.some.injEq] at last
          rw [← last]
          exact slash
    | some inner =>
        have isInner : inner = char := by
          rcases input.path_eq with short | long
          · rw [short, List.getLast?_append, tail, Option.some_or, Option.some.injEq] at last
            exact last
          · rw [long, List.getLast?_append, List.getLast?_cons, tail, Option.some_or,
              Option.some.injEq] at last
            exact last
        rw [← isInner]
        exact input.last_rel inner tail

theorem pathClean_path (plain : '\\' ∉ input.rel) : pathClean input.path = singleSlashes input.path := by
  rw [pathClean_eq (input.not_mem_path plain)]
  apply Profiles.strip_eq_self_iff.mpr
  have ends := input.ends_path
  rwa [Ends, ← head?_singleSlashes, ← getLast?_singleSlashes] at ends

/-- The joined path is normalised to the names of both. -/
theorem pathShorten_path (plain : '\\' ∉ input.rel) :
    ∃ slashes, (slashes = ['/'] ∨ slashes = ['/', '/']) ∧
      pathShorten (pathClean input.path) =
        slashes ++ join '/' (properParts input.base ++ properParts input.rel) := by
  have absolute := head?_pathClean input.path_absolute
  obtain ⟨rest, split, shortened, initial⟩ := pathShorten_absolute absolute
  refine ⟨_, initial, ?_⟩
  have same : parts '/' rest = parts '/' input.path := by
    have cut : parts '/' (pathClean input.path) = parts '/' rest := by
      rw [split]
      rcases initial with one | two
      · rw [one]
        exact Separated.parts_cons_separator rest
      · rw [two]
        exact (Separated.parts_cons_separator ('/' :: rest)).trans
          (Separated.parts_cons_separator rest)
    rw [← cut, input.pathClean_path plain, parts_singleSlashes]
  have noDots : ∀ item ∈ rest.splitOn '/', item ≠ ['.', '.'] := by
    intro item member dots
    have inside : item ∈ parts '/' input.path := by
      rw [← same]
      exact List.mem_filter.mpr ⟨member, by rw [dots]; rfl⟩
    have proper : item ∈ properParts input.path :=
      List.mem_filter.mpr ⟨inside, by rw [dots]; decide⟩
    rw [input.properParts_path] at proper
    rcases List.mem_append.mp proper with inBase | inRel
    · obtain ⟨names, clean, isBase⟩ := input.normalised.exists_names
      rw [isBase, properParts_join clean] at inBase
      exact (clean item inBase).1.2.2 dots
    · exact (input.proper_of_mem inRel).1.2.2 dots
  rw [shortened, foldl_normStep_of_no_dots noDots, List.nil_append, ← input.properParts_path,
    properParts, ← same, parts, List.filter_filter]
  congr 2
  apply List.filter_congr
  intro item _
  by_cases empty : item = []
  · simp [empty]
  · simp [empty]

theorem last_parts :
    ∀ char, input.normal.getLast? = some char → HostFile.isspace char = false :=
  getLast?_join (fun _ member => (input.ends_of_mem member).2)

theorem ends_normal : Ends HostFile.isspace input.normal := by
  refine ⟨?_, input.last_parts⟩
  intro char first
  cases split : properParts input.rel with
  | nil =>
      rw [normal, split] at first
      exact absurd first (by simp [join])
  | cons name names =>
      have member : name ∈ properParts input.rel := by
        rw [split]
        exact List.mem_cons_self
      have head : input.normal.head? = name.head? := by
        rw [normal, split]
        cases text : name with
        | nil => exact absurd text (input.proper_of_mem member).1.1
        | cons letter rest =>
            by_cases empty : names = []
            · rw [empty, Separated.join_singleton]
            · rw [Separated.join_cons _ empty]
              rfl
      rw [head] at first
      exact (input.ends_of_mem member).1 char first

theorem normal_sublist : input.normal.Sublist input.rel := by
  have part : (properParts input.rel).Sublist (input.rel.splitOn '/') :=
    List.filter_sublist.trans List.filter_sublist
  have whole := @Separated.join_sublist _ _ '/' _ _ part
  rwa [join_splitOn] at whole

theorem pathClean_normal (plain : '\\' ∉ input.rel) : pathClean input.normal = input.normal := by
  apply pathClean_of_ends (fun member => plain (input.normal_sublist.subset member))
  · exact singleSlashes_join (fun _ member =>
      ⟨(input.proper_of_mem member).1.1, (input.proper_of_mem member).2⟩)
  · exact input.ends_normal

/-- The clean text of the normalised path is the directory of the base with the normal
relative path behind it. -/
theorem pathClean_normalised (plain : '\\' ∉ input.rel) :
    pathClean (pathShorten (pathClean input.path)) =
      if properParts input.rel = [] then input.base
      else pathDirClean input.base ++ input.normal := by
  obtain ⟨names, clean, isBase⟩ := input.normalised.exists_names
  obtain ⟨slashes, initial, shortened⟩ := input.pathShorten_path plain
  have namesOf : properParts input.base = names := by
    rw [isBase, properParts_join clean]
  rw [namesOf] at shortened
  have all : ∀ name ∈ names ++ properParts input.rel, name ≠ [] ∧ '/' ∉ name := by
    intro name member
    rcases List.mem_append.mp member with inBase | inRel
    · exact ⟨(clean name inBase).1.1, (clean name inBase).2⟩
    · exact ⟨(input.proper_of_mem inRel).1.1, (input.proper_of_mem inRel).2⟩
  have absent : '\\' ∉ pathShorten (pathClean input.path) := fun member =>
    not_mem_pathClean ((pathShorten_sublist (head?_pathClean input.path_absolute)).subset member)
  have single : singleSlashes (pathShorten (pathClean input.path)) =
      '/' :: join '/' (names ++ properParts input.rel) := by
    rw [shortened]
    rcases initial with one | two
    · rw [one]
      exact singleSlashes_cons_join all
    · rw [two]
      exact (singleSlashes_two _).trans (congrArg ('/' :: ·) (singleSlashes_join all))
  rw [pathClean_eq absent, single]
  split
  · rename_i empty
    rw [empty, List.append_nil, ← isBase]
    exact Profiles.strip_eq_self_iff.mpr input.normalised.ends
  · rename_i filled
    rw [pathDirClean_eq input.normalised clean isBase, cons_join_append names _ filled,
      List.append_assoc]
    apply Profiles.strip_eq_self_iff.mpr
    have slash : HostFile.isspace '/' = false := by decide
    constructor
    · intro char first
      have head : (slashed names ++ '/' :: join '/' (properParts input.rel)).head? = some '/' := by
        cases names with
        | nil => rfl
        | cons name names => rfl
      rw [head, Option.some.injEq] at first
      rw [← first]
      exact slash
    · intro char last
      rw [List.getLast?_append, List.getLast?_cons, Option.some_or, Option.some.injEq] at last
      cases tail : (join '/' (properParts input.rel)).getLast? with
      | none =>
          rw [tail] at last
          rw [← last]
          exact slash
      | some inner =>
          rw [tail] at last
          rw [← last]
          exact input.last_parts inner tail

/-- What is left of a joined path: the normal relative path without the directories in it. -/
theorem pathRemoveDirPart_path (plain : '\\' ∉ input.rel) :
    pathRemoveDirPart process input.path input.base false =
      .ok (pathClean (Lines.replace (pathDirClean input.base) [] 0 input.normal)) := by
  rw [pathRemoveDirPart_eq input.normalised (pathNormalize_absolute input.path_absolute),
    input.pathClean_normalised plain]
  by_cases empty : properParts input.rel = []
  · rw [if_pos empty, if_pos rfl, normal, empty]
    rfl
  · have some : input.normal ≠ [] := by
      intro none
      obtain ⟨name, names, split⟩ := List.exists_cons_of_ne_nil empty
      have member : name ∈ properParts input.rel := by
        rw [split]
        exact List.mem_cons_self
      have again := properParts_join (fun _ inside => input.proper_of_mem inside)
      rw [← normal, none] at again
      exact empty (again.symm.trans rfl)
    have differs : input.base ≠ pathDirClean input.base ++ input.normal := by
      intro same
      have long := length_le_pathDirClean input.normalised
      have lengths := congrArg List.length same
      have positive := List.length_pos_of_ne_nil some
      rw [List.length_append] at lengths
      omega
    obtain ⟨rest, directory⟩ := exists_cons_pathDirClean input.normalised
    rw [if_neg empty, if_neg differs, directory, List.cons_append, Lines.replace_here,
      List.nil_append]

/-- The relative path is found again if and only if it is normal, without a backslash, and the
directory of the base stands nowhere in it. -/
theorem pathRemoveDirPart_path_iff :
    pathRemoveDirPart process input.path input.base false = .ok input.rel ↔
      '\\' ∉ input.rel ∧ input.rel = input.normal ∧ ¬ pathDirClean input.base <:+: input.rel := by
  constructor
  · intro result
    have plain := not_mem_pathRemoveDirPart input.normalised
      (pathNormalize_absolute input.path_absolute) result
    rw [input.pathRemoveDirPart_path plain, Except.ok.injEq] at result
    have cleaned := @pathClean_length_le
      (Lines.replace (pathDirClean input.base) [] 0 input.normal)
    have short := input.normal_sublist.length_le
    have absent : ¬ pathDirClean input.base <:+: input.normal := by
      intro occurs
      have shorter := length_replace_lt input.normalised occurs
      rw [result] at cleaned
      omega
    rw [Lines.replace_of_absent absent, input.pathClean_normal plain] at result
    refine ⟨plain, result.symm, ?_⟩
    rwa [← result]
  · rintro ⟨plain, normal, absent⟩
    rw [input.pathRemoveDirPart_path plain, ← normal, Lines.replace_of_absent absent, normal,
      input.pathClean_normal plain]

end Joined

end JumpscaleX.FSPaths
