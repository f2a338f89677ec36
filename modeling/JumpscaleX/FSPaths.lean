import JumpscaleX.ProfileLists

/-!
# Paths of the file system

`SystemFSDecorators.py` and the path arithmetic of `SystemFS.py`, on a system with `/`
between the parts of a path.
-/

namespace JumpscaleX.FSPaths

open Profiles (Text strip Ends)
open Separated (parts join)

/-- The working directory, and what the environment has for `HOME`.  Both are absolute. -/
structure Process where
  cwd : Text
  home : Option Text
  cwd_absolute : cwd.head? = some '/'
  home_absolute : ∀ path, home = some path → path.head? = some '/'

/-- `path.replace("//", "/")` -/
def singleSlashes (path : Text) : Text :=
  Lines.replace ['/', '/'] ['/'] 0 path

/-- `path.replace("\\", "/")` -/
def forwardSlashes (path : Text) : Text :=
  path.map (fun char => if char = '\\' then '/' else char)

/-- `pathClean`.  The replacement of `/` by itself and that of two backslashes, of which none
is left, change nothing. -/
def pathClean (path : Text) : Text :=
  strip (forwardSlashes (singleSlashes path))

/-- `pathDirClean` -/
def pathDirClean (path : Text) : Text :=
  pathClean (path ++ ['/'])

/-- `os.path.join` of two texts. -/
def joinPaths (path part : Text) : Text :=
  if part.head? = some '/' then part
  else if path = [] ∨ path.getLast? = some '/' then path ++ part
  else path ++ '/' :: part

/-- The slashes that `normpath` leaves in front of a path: two stay two, and three are one. -/
def initialSlashes (path : Text) : Text :=
  if ['/'].isPrefixOf path then
    if ['/', '/'].isPrefixOf path ∧ ¬ ['/', '/', '/'].isPrefixOf path then ['/', '/'] else ['/']
  else []

/-- One turn of the loop of `normpath`. -/
def normStep (rooted : Bool) (comps : List Text) (comp : Text) : List Text :=
  if comp = [] ∨ comp = ['.'] then comps
  else if comp ≠ ['.', '.'] ∨ (rooted = false ∧ comps = []) ∨ comps.getLast? = some ['.', '.'] then
    comps ++ [comp]
  else comps.dropLast

/-- `pathShorten`, which is `os.path.normpath`. -/
def pathShorten (path : Text) : Text :=
  if path = [] then ['.']
  else
    let rooted := decide (initialSlashes path ≠ [])
    let comps := (path.splitOn '/').foldl (normStep rooted) []
    let path := initialSlashes path ++ join '/' comps
    if path = [] then ['.'] else path

/-- `pathNormalize` -/
def pathNormalize (process : Process) (path : Text) : Except Exn Text :=
  if path = [] then .ok process.cwd
  else
    match pathClean path with
    | [] => .ok (pathShorten [])
    | first :: rest =>
        if first = '/' then .ok (pathShorten (first :: rest))
        else if first = '~' then
          match process.home with
          | none => .error (.typeError
              "expected str, bytes or os.PathLike object, not NoneType")
          | some home => .ok (pathShorten (joinPaths home ((first :: rest).drop 2)))
        else .ok (pathShorten (joinPaths process.cwd (first :: rest)))

/-- `pathRemoveDirPart` -/
def pathRemoveDirPart (process : Process) (path toremove : Text) (removeTrailingSlash : Bool) :
    Except Exn Text := do
  let path ← pathNormalize process path
  let toremove ← pathNormalize process toremove
  if pathClean toremove = pathClean path then return []
  let path := Lines.replace (pathDirClean toremove) [] 0 (pathClean path)
  let path := if removeTrailingSlash ∧ path.head? = some '/' then path.drop 1 else path
  return pathClean path

/-- One turn of the loop of `processPathForDoubleDots`. -/
def dotsStep (result : List Text) (item : Text) : Except Exn (List Text) :=
  if item = ['.', '.'] then
    if result = [] then
      .error (.runtime "Cannot processPathForDoubleDots for paths with only ..")
    else .ok result.dropLast
  else .ok (result ++ [item])

/-- `processPathForDoubleDots` -/
def processPathForDoubleDots (path : Text) : Except Exn Text := do
  let path := forwardSlashes (pathClean path)
  let result ← (path.splitOn '/').foldlM dotsStep []
  return join '/' result

/-- An absolute path that `pathNormalize` leaves as it is. -/
structure Normalised (process : Process) (path : Text) : Prop where
  absolute : path.head? = some '/'
  unchanged : pathNormalize process path = .ok path

/-! ## Clean texts -/

section

variable {path : Text}

theorem singleSlashes_sublist : (singleSlashes path).Sublist path :=
  Lines.replace_sublist (by simp) path

@[simp] theorem singleSlashes_two (rest : Text) :
    singleSlashes ('/' :: '/' :: rest) = '/' :: singleSlashes rest :=
  Lines.replace_here '/' ['/'] rest

theorem singleSlashes_append {part : Text} (plain : '/' ∉ part) (rest : Text) :
    singleSlashes (part ++ rest) = part ++ singleSlashes rest :=
  Lines.replace_append_of_not_mem plain ['/'] rest

/-- A slash with another character behind it. -/
theorem singleSlashes_one {part : Text} (plain : '/' ∉ part) (some : part ≠ []) (rest : Text) :
    singleSlashes ('/' :: (part ++ rest)) = '/' :: (part ++ singleSlashes rest) := by
  cases part with
  | nil => exact absurd rfl some
  | cons char part =>
      have differs : ¬ ['/', '/'].isPrefixOf ('/' :: ((char :: part) ++ rest)) = true := by
        rw [List.isPrefixOf_iff_prefix, List.cons_append, List.cons_prefix_cons,
          List.cons_prefix_cons]
        rintro ⟨_, same, _⟩
        exact plain (List.mem_cons.mpr (.inl same))
      rw [singleSlashes, Lines.replace, if_neg differs]
      exact congrArg ('/' :: ·) (singleSlashes_append plain rest)

theorem forwardSlashes_of_not_mem (plain : '\\' ∉ path) : forwardSlashes path = path := by
  rw [forwardSlashes]
  conv_rhs => rw [← List.map_id path]
  apply List.map_congr_left
  intro char member
  have differs : char ≠ '\\' := by
    intro same
    exact plain (by rwa [← same])
  rw [if_neg differs, id]

theorem not_mem_forwardSlashes : '\\' ∉ forwardSlashes path := by
  intro member
  obtain ⟨char, _, changed⟩ := List.mem_map.mp member
  split at changed
  · exact absurd changed (by decide)
  · contradiction

theorem not_mem_pathClean : '\\' ∉ pathClean path :=
  fun member => not_mem_forwardSlashes (Profiles.strip_sublist.subset member)

theorem pathClean_length_le : (pathClean path).length ≤ path.length := by
  have stripped := (@Profiles.strip_sublist HostFile.isspace
    (forwardSlashes (singleSlashes path))).length_le
  have single := (@singleSlashes_sublist path).length_le
  rw [forwardSlashes, List.length_map] at stripped
  exact stripped.trans single

theorem pathClean_eq (plain : '\\' ∉ path) : pathClean path = strip (singleSlashes path) := by
  have absent : '\\' ∉ singleSlashes path := fun member =>
    plain (singleSlashes_sublist.subset member)
  rw [pathClean, forwardSlashes_of_not_mem absent]

theorem pathClean_sublist (plain : '\\' ∉ path) : (pathClean path).Sublist path := by
  rw [pathClean_eq plain]
  exact Profiles.strip_sublist.trans singleSlashes_sublist

theorem pathClean_of_length (plain : '\\' ∉ path) (whole : path.length ≤ (pathClean path).length) :
    pathClean path = path :=
  (pathClean_sublist plain).eq_of_length_le whole

/-- A clean path is its own text up to the blanks around it. -/
theorem pathClean_of_ends (plain : '\\' ∉ path) (single : singleSlashes path = path)
    (ends : Ends HostFile.isspace path) : pathClean path = path := by
  rw [pathClean_eq plain, single]
  exact Profiles.strip_eq_self_iff.mpr ends

theorem head?_singleSlashes : (singleSlashes path).head? = path.head? := by
  cases path with
  | nil => rfl
  | cons char rest =>
      rcases Lines.replace_cases '/' ['/'] ['/'] rest char with ⟨tail, split, replaced⟩ | ⟨_, kept⟩
      · rw [singleSlashes, replaced, split]
        rfl
      · rw [singleSlashes, kept]
        rfl

/-- The slash in front of a path stays there. -/
theorem head?_pathClean (absolute : path.head? = some '/') :
    (pathClean path).head? = some '/' := by
  have first : (forwardSlashes (singleSlashes path)).head? = some '/' := by
    rw [forwardSlashes, List.head?_map, head?_singleSlashes, absolute]
    rfl
  obtain ⟨rest, split⟩ := List.head?_eq_some_iff.mp first
  have slash : HostFile.isspace '/' = false := by decide
  rw [pathClean, split, strip, StringType.strip,
    List.dropWhile_cons_of_neg (by rw [slash]; exact Bool.false_ne_true), List.reverse_cons,
    List.dropWhile_append]
  split
  · rw [List.dropWhile_cons_of_neg (by rw [slash]; exact Bool.false_ne_true)]
    rfl
  · simp

end

/-! ## Normal paths -/

/-- A part that `normpath` keeps where it stands. -/
def Proper (part : Text) : Prop :=
  part ≠ [] ∧ part ≠ ['.'] ∧ part ≠ ['.', '.']

/-- The parts of a path besides the empty ones and `.`. -/
def properParts (path : Text) : List Text :=
  (parts '/' path).filter (fun part => decide (part ≠ ['.']))

/-- Each part with a slash before it. -/
def slashed (names : List Text) : Text :=
  names.flatMap ('/' :: ·)

theorem cons_join {names : List Text} (some : names ≠ []) : '/' :: join '/' names = slashed names := by
  induction names with
  | nil => exact absurd rfl some
  | cons name names induction =>
      cases names with
      | nil => simp [slashed]
      | cons next rest =>
          rw [Separated.join_cons name (by simp), slashed, List.flatMap_cons, ← slashed,
            ← induction (by simp)]
          rfl

section

variable {rooted : Bool} {comps items : List Text} {path : Text}

theorem normStep_sublist (comp : Text) : (normStep rooted comps comp).Sublist (comps ++ [comp]) := by
  rw [normStep]
  split
  · exact List.sublist_append_left comps [comp]
  · split
    · exact List.Sublist.refl _
    · exact (List.dropLast_sublist comps).trans (List.sublist_append_left comps [comp])

theorem foldl_normStep_sublist :
    (items.foldl (normStep rooted) comps).Sublist (comps ++ items) := by
  induction items generalizing comps with
  | nil => simp
  | cons item items induction =>
      have rest := @induction (normStep rooted comps item)
      have first := (@normStep_sublist rooted comps item).append_right items
      rw [List.append_assoc] at first
      exact rest.trans first

/-- Below a root no `..` stays. -/
theorem normStep_proper (proper : ∀ comp ∈ comps, Proper comp) (item : Text) :
    ∀ comp ∈ normStep true comps item, Proper comp := by
  intro comp member
  rw [normStep] at member
  split at member
  · exact proper comp member
  · rename_i kept
    split at member
    · rename_i allowed
      rcases List.mem_append.mp member with former | added
      · exact proper comp former
      · have isItem := List.mem_singleton.mp added
        rw [not_or] at kept
        rw [isItem]
        refine ⟨kept.1, kept.2, ?_⟩
        rcases allowed with differs | unrooted | last
        · exact differs
        · exact absurd unrooted.1 (by decide)
        · have parent := proper _ (List.mem_of_getLast? last)
          exact absurd rfl parent.2.2
    · exact proper comp (List.dropLast_subset comps member)

theorem foldl_normStep_proper (proper : ∀ comp ∈ comps, Proper comp) :
    ∀ comp ∈ items.foldl (normStep true) comps, Proper comp := by
  induction items generalizing comps with
  | nil => exact proper
  | cons item items induction => exact induction (normStep_proper proper item)

/-- Without `..` the loop only leaves out parts. -/
theorem foldl_normStep_of_no_dots (noDots : ∀ item ∈ items, item ≠ ['.', '.']) :
    items.foldl (normStep rooted) comps =
      comps ++ items.filter (fun item => decide (item ≠ [] ∧ item ≠ ['.'])) := by
  induction items generalizing comps with
  | nil => simp
  | cons item items induction =>
      obtain ⟨differs, others⟩ := List.forall_mem_cons.mp noDots
      rw [List.foldl_cons, induction others, normStep, List.filter_cons]
      by_cases skipped : item = [] ∨ item = ['.']
      · rw [if_pos skipped, if_neg (by simpa [or_iff_not_imp_left] using skipped)]
      · rw [if_neg skipped, if_pos (.inl differs), if_pos (by simpa [not_or] using skipped),
          List.append_assoc]
        rfl

/-- An absolute path starts with one slash, or with two that `normpath` keeps. -/
theorem pathShorten_absolute (absolute : path.head? = some '/') :
    ∃ rest, path = initialSlashes path ++ rest ∧
      pathShorten path =
        initialSlashes path ++ join '/' ((rest.splitOn '/').foldl (normStep true) []) ∧
      (initialSlashes path = ['/'] ∨ initialSlashes path = ['/', '/']) := by
  obtain ⟨rest, split⟩ := List.head?_eq_some_iff.mp absolute
  have starts : ['/'].isPrefixOf path = true := by
    rw [split]
    simp
  have skipped : ∀ text : Text,
      ((text).splitOn '/').foldl (normStep true) [] =
        (('/' :: text).splitOn '/').foldl (normStep true) [] := by
    intro text
    rw [List.splitOn_cons_eq_if_modifyHead]
    simp [normStep]
  have whole : ∀ slashes : Text, initialSlashes path = slashes → slashes ≠ [] →
      pathShorten path =
        slashes ++ join '/' ((path.splitOn '/').foldl (normStep true) []) := by
    intro slashes initial some
    rw [pathShorten, if_neg (by rw [split]; simp), initial]
    simp [some]
  by_cases two : ['/', '/'].isPrefixOf path ∧ ¬ ['/', '/', '/'].isPrefixOf path
  · have initial : initialSlashes path = ['/', '/'] := by
      rw [initialSlashes, if_pos starts, if_pos two]
    obtain ⟨tail, second⟩ := List.isPrefixOf_iff_prefix.mp two.1
    refine ⟨tail, by rw [initial]; exact second.symm, ?_, .inr initial⟩
    rw [whole _ initial (by simp), initial, skipped tail, skipped ('/' :: tail), ← second]
    rfl
  · have initial : initialSlashes path = ['/'] := by
      rw [initialSlashes, if_pos starts, if_neg two]
    refine ⟨rest, by rw [initial]; exact split, ?_, .inl initial⟩
    rw [whole _ initial (by simp), initial, skipped rest, split]

theorem join_splitOn (text : Text) : join '/' (text.splitOn '/') = text := by
  rw [join]
  exact List.intercalate_splitOn '/'

theorem pathShorten_sublist (absolute : path.head? = some '/') :
    (pathShorten path).Sublist path := by
  obtain ⟨rest, split, shortened, _⟩ := pathShorten_absolute absolute
  rw [shortened]
  conv_rhs => rw [split, ← join_splitOn rest]
  exact (List.Sublist.refl _).append (Separated.join_sublist foldl_normStep_sublist)

theorem head?_pathShorten (absolute : path.head? = some '/') :
    (pathShorten path).head? = some '/' := by
  obtain ⟨rest, _, shortened, one | two⟩ := pathShorten_absolute absolute
  · rw [shortened, one]
    rfl
  · rw [shortened, two]
    rfl

end

end JumpscaleX.FSPaths
