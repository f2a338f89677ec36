import JumpscaleX.FSPathDots
import JumpscaleX.ListingRuns

/-!
# Exact listings

When `listFilesInDir` finds the files below a directory that its arguments ask for, and no
others.
-/

namespace JumpscaleX.FSDisk

open Fallible Stateful Relation
open FSPaths (Normalised joinPaths)
open Profiles (Text)

variable {S : Type} {process : FSPaths.Process} {disk : Disk S}

/-- The arguments of `listFilesInDir` for a directory. -/
structure Call (process : FSPaths.Process) (disk : Disk S) where
  options : Options
  caseSensitivity : Text
  depth : Option Int
  path : Text
  state : S
  base : Text
  type : options.files = true ∧ options.dirs = false
  checked : pathCheck process disk "listFilesInDir"
    { required := true, replace := true, existing := true, dir := true } state path = .ok base
  directory : disk.isdir state base = true

namespace Call

variable (call : Call process disk)

/-- The directory of the call, whose entries are at the first level. -/
def root : Place where
  dir := call.base
  level := 1
  barred := false

/-- A directory that is gone into, with any depth. -/
def Reached (place : Place) : Prop :=
  ReflTransGen (Enters disk call.options call.caseSensitivity call.state) call.root place

/-- A directory that the listing visits. -/
def Visited (place : Place) : Prop :=
  ReflTransGen (Visits disk call.options call.caseSensitivity (depthBound call.depth) call.state)
    call.root place

/-- The level is not deeper than the depth. -/
def Within (level : Nat) : Prop :=
  ∀ bound, depthBound call.depth = some bound → (level : Int) ≤ bound

/-- The file was changed within the window. -/
def Timely (path : Text) : Prop :=
  ∃ time, disk.mtime call.state path = .ok time ∧ inWindow call.options time = true

/-- A file that the call asks for. -/
def Asked (found : Text) : Prop :=
  ∃ place name, call.Reached place ∧ call.Within place.level ∧
    Entry disk call.options call.state place.dir name found ∧
      disk.isfile call.state found = true ∧
        selected disk call.options call.caseSensitivity name = true ∧ call.Timely found

/-- No entry that is shown is a link. -/
def NoLinks : Prop :=
  ∀ place, call.Reached place → ∀ name, Shown disk call.options call.state place.dir name →
    disk.islink call.state (joinPaths place.dir name) = false

/-- The listing comes to an end with the files that it is asked for, and without links with
each of them once. -/
def AsClaimed : Prop :=
  ∃ result, (∃ limit, ∀ calls, limit ≤ calls → ∃ after,
      listFilesInDir process disk calls call.options call.caseSensitivity call.depth call.path
        call.state = .ok result after) ∧
    (∀ found, found ∈ result ↔ call.Asked found) ∧ (call.NoLinks → result.Nodup)

/-- The visited directories have no circle, and their entries are plain; and a file in the
window is asked for when its name is selected at its level, and no directory on the way to it
is excluded. -/
structure Sound : Prop where
  ends : Acc (fun next here => Visits disk call.options call.caseSensitivity
    (depthBound call.depth) call.state here next) call.root
  plain : ∀ place, call.Visited place → PlainPlace process disk call.options call.state place
  exact_ : ∀ place, call.Reached place → ∀ name path,
    Entry disk call.options call.state place.dir name path → disk.isfile call.state path = true →
      call.Timely path →
        ((call.Within place.level ∧
            selected disk call.options call.caseSensitivity name = true) ↔
          (Passed (depthBound call.depth) place.level ∧ place.barred = false ∧
            selected disk call.options (caseAt call.caseSensitivity place.level) name = true))

/-- The shown entries are no links, and their paths stay. -/
def Straightforward : Prop :=
  ∀ place, call.Reached place → ∀ name, Shown disk call.options call.state place.dir name →
    disk.islink call.state (joinPaths place.dir name) = false ∧
      Fixed process disk (joinPaths place.dir name)

variable {call}

theorem depthBound_ne : depthBound call.depth ≠ some 0 := by
  rw [depthBound]
  split
  · simp
  · assumption

theorem passed_first : Passed (depthBound call.depth) 1 := by
  intro bound bounded
  have notZero : bound ≠ 0 := by
    intro zero
    exact depthBound_ne (by rw [bounded, zero])
  omega

/-- A place is visited when it is reached through directories that are not excluded, and within
the depth. -/
theorem visited_iff {place : Place} : call.Visited place ↔
    call.Reached place ∧ place.barred = false ∧ Passed (depthBound call.depth) place.level := by
  constructor
  · intro visited
    induction visited with
    | refl => exact ⟨.refl, rfl, passed_first⟩
    | tail _ last induction => exact ⟨.tail induction.1 last.1, last.2⟩
  · rintro ⟨reached, free, passed⟩
    induction reached with
    | refl => exact .refl
    | @tail between last _ enters induction =>
        have whole := enters
        obtain ⟨_, _, _, _⟩ := enters
        simp only [Bool.or_eq_false_iff] at free
        have earlier : Passed (depthBound call.depth) between.level := by
          intro bound bounded
          have later := passed bound bounded
          simp only at later
          omega
        refine .tail (induction free.1 earlier) ⟨whole, ?_, passed⟩
        simp only [free, Bool.or_self]

theorem mem_own_iff {level name path found : Text} :
    found ∈ own disk call.options call.state level name path ↔
      found = path ∧ disk.isfile call.state path = true ∧
        selected disk call.options level name = true ∧ call.Timely path := by
  rw [own, call.type.2]
  simp only [Bool.false_eq_true, and_false, or_false, List.mem_ite_nil_right, List.mem_singleton,
    included_iff]
  exact and_comm

/-- What the listing finds below the directory. -/
theorem below_root_iff {found : Text} :
    Below disk call.options call.caseSensitivity (depthBound call.depth) call.state call.root found ↔
      ∃ place name, call.Visited place ∧
        Entry disk call.options call.state place.dir name found ∧
          disk.isfile call.state found = true ∧
            selected disk call.options (caseAt call.caseSensitivity place.level) name = true ∧
              call.Timely found := by
  constructor
  · rintro ⟨place, name, path, way, entry, member⟩
    obtain ⟨same, file, isSelected, timely⟩ := mem_own_iff.mp member
    rw [← same] at entry file timely
    exact ⟨place, name, way, entry, file, isSelected, timely⟩
  · rintro ⟨place, name, way, entry, file, isSelected, timely⟩
    exact ⟨place, name, found, way, entry, mem_own_iff.mpr ⟨rfl, file, isSelected, timely⟩⟩

theorem listFilesInDir_eq (calls : Nat) :
    listFilesInDir process disk calls call.options call.caseSensitivity call.depth call.path
      call.state =
        listAllInDir process disk calls call.options (caseAt call.caseSensitivity call.root.level)
          (depthAt (depthBound call.depth) call.root.level) call.root.dir call.state := by
  have sameOptions : { call.options with files := true, dirs := false } = call.options := by
    obtain ⟨files, dirs⟩ := call.type
    rw [← files, ← dirs]
  have sameDepth : depthAt (depthBound call.depth) call.root.level = depthBound call.depth := by
    rw [root, depthAt]
    simp
  rw [listFilesInDir, seq_of_ok (query_of_ok call.state call.checked), sameOptions, sameDepth]
  rfl

theorem exists_result (ends : Acc (fun next here => Visits disk call.options call.caseSensitivity
      (depthBound call.depth) call.state here next) call.root)
    (plain : ∀ place, call.Visited place → PlainPlace process disk call.options call.state place) :
    ∃ result, Lists process disk call.options call.caseSensitivity (depthBound call.depth)
      call.state call.root result :=
  exists_lists call.type.1 depthBound_ne ends plain (le_refl 1) passed_first rfl call.directory

/-- A call that is sound finds what it is asked for. -/
theorem Sound.asClaimed (sound : call.Sound) : call.AsClaimed := by
  obtain ⟨result, lists⟩ := exists_result sound.ends sound.plain
  obtain ⟨limit, runs⟩ := lists.ends
  refine ⟨result, ⟨limit, ?_⟩, ?_, ?_⟩
  · intro calls enough
    refine ⟨call.state, ?_⟩
    rw [listFilesInDir_eq]
    exact runs calls enough
  · intro found
    rw [lists.mem_iff, below_root_iff]
    constructor
    · rintro ⟨place, name, visited, entry, file, isSelected, timely⟩
      obtain ⟨reached, free, passed⟩ := visited_iff.mp visited
      have asked := (sound.exact_ place reached name found entry file timely).mpr
        ⟨passed, free, isSelected⟩
      exact ⟨place, name, reached, asked.1, entry, file, asked.2, timely⟩
    · rintro ⟨place, name, reached, within, entry, file, isSelected, timely⟩
      obtain ⟨passed, free, atLevel⟩ :=
        (sound.exact_ place reached name found entry file timely).mp ⟨within, isSelected⟩
      exact ⟨place, name, visited_iff.mpr ⟨reached, free, passed⟩, entry, file, atLevel, timely⟩
  · intro noLinks
    apply (lists.straight _).1
    intro place way
    exact noLinks place (visited_iff.mp way).1

/-! ## Trees without links -/

/-- The directories that are reached are longer paths than the one of the call. -/
theorem Straightforward.longer (straight : call.Straightforward) {place : Place}
    (reached : call.Reached place) : place = call.root ∨
      (place.dir ≠ [] ∧ place.dir.getLast? ≠ some '/' ∧ call.base.length < place.dir.length) := by
  induction reached with
  | refl => exact .inl rfl
  | @tail between last way enters induction =>
      obtain ⟨_, entry, _, _⟩ := enters
      rename_i name path _ _ _
      right
      obtain ⟨someName, plainName⟩ := entry.1.name_valid
      have noLink := (straight between way name entry.1).1
      have leads := entry.2
      rw [entryPath, if_neg (by simp [noLink]), Option.some.injEq] at leads
      have positive := List.length_pos_of_ne_nil someName
      have long : between.dir.length ≤ (dirSlash between.dir).length := by
        rw [dirSlash]
        split
        · exact le_refl _
        · simp
      simp only
      rw [← leads]
      have last := @getLast?_joinPaths between.dir _ plainName someName
      rw [joinPaths_eq plainName] at last ⊢
      refine ⟨by simp [someName], last, ?_⟩
      rw [List.length_append]
      rcases induction with same | ⟨_, _, longer⟩
      · rw [same] at long ⊢
        simp only [root] at long ⊢
        omega
      · omega

theorem Straightforward.path_eq (straight : call.Straightforward) {place : Place}
    (reached : call.Reached place) {name path : Text}
    (entry : Entry disk call.options call.state place.dir name path) :
    path = joinPaths place.dir name := by
  have noLink := (straight place reached name entry.1).1
  have leads := entry.2
  rw [entryPath, if_neg (by simp [noLink]), Option.some.injEq] at leads
  exact leads.symm

theorem length_le_dirSlash (dir : Text) : dir.length ≤ (dirSlash dir).length := by
  rw [dirSlash]
  split
  · exact le_refl _
  · simp

/-- The paths of entries tell their directories. -/
theorem Straightforward.dir_eq (straight : call.Straightforward) {place other : Place}
    (reached : call.Reached place) (reachedOther : call.Reached other) {name another : Text}
    (shown : Shown disk call.options call.state place.dir name)
    (shownOther : Shown disk call.options call.state other.dir another)
    (same : joinPaths place.dir name = joinPaths other.dir another) :
    place.dir = other.dir ∧ name = another := by
  obtain ⟨slashed, sameName⟩ :=
    joinPaths_inj shown.name_valid.2 shownOther.name_valid.2 same
  refine ⟨?_, sameName⟩
  have inner : ∀ {dir : Text}, dir ≠ [] → dir.getLast? ≠ some '/' → dirSlash dir = dir ++ ['/'] := by
    intro dir notEmpty last
    rw [dirSlash, if_neg (not_or.mpr ⟨notEmpty, last⟩)]
  have atMost : (dirSlash call.base).length ≤ call.base.length + 1 := by
    rw [dirSlash]
    split
    · exact Nat.le_succ _
    · simp
  have lengths := congrArg List.length slashed
  rcases straight.longer reached with isRoot | ⟨some, last, longer⟩
  · rcases straight.longer reachedOther with otherRoot | ⟨some, last, longer⟩
    · rw [isRoot, otherRoot]
    · rw [isRoot, inner some last, List.length_append, List.length_singleton] at lengths
      simp only [root] at lengths
      omega
  · rcases straight.longer reachedOther with otherRoot | ⟨someOther, lastOther, _⟩
    · rw [otherRoot, inner some last, List.length_append, List.length_singleton] at lengths
      simp only [root] at lengths
      omega
    · rw [inner some last, inner someOther lastOther] at slashed
      exact List.append_cancel_right slashed

theorem Straightforward.place_eq (straight : call.Straightforward) {place other : Place}
    (reached : call.Reached place) (reachedOther : call.Reached other)
    (same : place.dir = other.dir) : place = other := by
  induction reached generalizing other with
  | refl =>
      rcases straight.longer reachedOther with isRoot | ⟨_, _, longer⟩
      · exact isRoot.symm
      · rw [← same] at longer
        exact absurd longer (lt_irrefl _)
  | @tail between last way enters induction =>
      rcases ReflTransGen.cases_tail reachedOther with isRoot | ⟨another, wayOther, entersOther⟩
      · rcases straight.longer (.tail way enters) with lastRoot | ⟨_, _, longer⟩
        · rw [lastRoot, isRoot]
        · rw [same, isRoot] at longer
          exact absurd longer (lt_irrefl _)
      · obtain ⟨_, entry, _, _⟩ := enters
        obtain ⟨_, entryOther, _, _⟩ := entersOther
        simp only at same
        have joined := straight.path_eq way entry
        have joinedOther := straight.path_eq wayOther entryOther
        have dirs := (straight.dir_eq way wayOther entry.1 entryOther.1
          (joined.symm.trans (same.trans joinedOther))).1
        rw [induction wayOther dirs, same]

/-- Without links, a directory is gone into from above once, since the heights fall. -/
theorem Straightforward.ends (straight : call.Straightforward) {place : Place}
    (reached : call.Reached place) :
    Acc (fun next here => Visits disk call.options call.caseSensitivity
      (depthBound call.depth) call.state here next) place := by
  induction height : disk.height call.state place.dir using Nat.strongRecOn generalizing place with
  | ind height induction =>
      refine .intro place ?_
      intro next visits
      have deeper : call.Reached next := .tail reached visits.1
      obtain ⟨⟨_, entry, directory, _⟩, _⟩ := visits
      obtain ⟨names, listed, member⟩ := entry.1.1
      have joined := straight.path_eq reached entry
      have noLink := (straight place reached _ entry.1).1
      refine induction _ ?_ deeper rfl
      rw [joined] at directory
      simp only
      rw [joined, ← height]
      exact disk.height_lt call.state place.dir names listed _ member directory noLink

theorem Straightforward.plain (straight : call.Straightforward) {place : Place}
    (reached : call.Reached place) : PlainPlace process disk call.options call.state place := by
  intro name shown
  obtain ⟨noLink, fixed⟩ := straight place reached name shown
  refine ⟨joinPaths place.dir name, ⟨shown, ?_⟩, fixed, ?_⟩
  · rw [entryPath, if_neg (by simp [noLink])]
  · intro link
    rw [noLink] at link
    exact absurd link (by simp)

/-- The place and the name of a file that is listed are told by its path. -/
theorem Straightforward.entry_eq (straight : call.Straightforward) {place other : Place}
    {name another found : Text} (reached : call.Reached place) (reachedOther : call.Reached other)
    (entry : Entry disk call.options call.state place.dir name found)
    (entryOther : Entry disk call.options call.state other.dir another found) :
    place = other ∧ name = another := by
  have joined := straight.path_eq reached entry
  have joinedOther := straight.path_eq reachedOther entryOther
  obtain ⟨dirs, names⟩ := straight.dir_eq reached reachedOther entry.1 entryOther.1
    (joined.symm.trans joinedOther)
  exact ⟨straight.place_eq reached reachedOther dirs, names⟩

/-- Without links, a call that finds what it is asked for is sound. -/
theorem AsClaimed.sound (claimed : call.AsClaimed) (straight : call.Straightforward) :
    call.Sound := by
  have plain : ∀ place, call.Visited place → PlainPlace process disk call.options call.state place :=
    fun place visited => straight.plain (visited_iff.mp visited).1
  refine ⟨straight.ends .refl, plain, ?_⟩
  obtain ⟨result, ⟨limit, runs⟩, mem_iff, _⟩ := claimed
  obtain ⟨found, lists⟩ := exists_result (straight.ends .refl) plain
  obtain ⟨limits, lasts⟩ := lists.ends
  have sameResult : result = found := by
    obtain ⟨after, ran⟩ := runs (max limit limits) (le_max_left _ _)
    rw [listFilesInDir_eq, lasts (max limit limits) (le_max_right _ _)] at ran
    injection ran with same _
    exact same.symm
  intro place reached name path entry file timely
  have listed : call.Asked path ↔ Below disk call.options call.caseSensitivity
      (depthBound call.depth) call.state call.root path := by
    rw [← mem_iff, sameResult, lists.mem_iff]
  constructor
  · rintro ⟨within, isSelected⟩
    obtain ⟨other, another, visited, entryOther, _, atLevel, _⟩ := below_root_iff.mp
      (listed.mp ⟨place, name, reached, within, entry, file, isSelected, timely⟩)
    obtain ⟨reachedOther, free, passed⟩ := visited_iff.mp visited
    obtain ⟨samePlace, sameName⟩ := straight.entry_eq reached reachedOther entry entryOther
    rw [samePlace, sameName]
    exact ⟨passed, free, atLevel⟩
  · rintro ⟨passed, free, atLevel⟩
    have visited := visited_iff.mpr ⟨reached, free, passed⟩
    obtain ⟨other, another, reachedOther, within, entryOther, _, isSelected, _⟩ :=
      listed.mpr (below_root_iff.mpr ⟨place, name, visited, entry, file, atLevel, timely⟩)
    obtain ⟨samePlace, sameName⟩ := straight.entry_eq reached reachedOther entry entryOther
    rw [samePlace, sameName]
    exact ⟨within, isSelected⟩

end Call

/-! ## A file in a directory below -/

/-- What `fnmatchcase` does with a pattern that has no brackets. -/
def wildcards : (pattern name : Text) → Bool
  | [], name => name.isEmpty
  | char :: pattern, name =>
      if char = '*' then name.tails.any (wildcards pattern)
      else
        match name with
        | [] => false
        | first :: name => (char = '?' || char = first) && wildcards pattern name

/-- The directory `d` has a directory `sub` with the file `B.TXT`. -/
def namesBelow (path : Text) : Except Exn (List Text) :=
  if path = "/d".toList then .ok ["sub".toList]
  else if path = "/d/sub".toList then .ok ["B.TXT".toList]
  else .error (.runtime "No such file or directory")

theorem namesBelow_cases {path : Text} {names : List Text} (listed : namesBelow path = .ok names) :
    (path = "/d".toList ∧ names = ["sub".toList]) ∨
      (path = "/d/sub".toList ∧ names = ["B.TXT".toList]) := by
  rw [namesBelow] at listed
  split at listed
  · rename_i outer
    exact .inl ⟨outer, (Except.ok.inj listed).symm⟩
  · split at listed
    · rename_i inner
      exact .inr ⟨inner, (Except.ok.inj listed).symm⟩
    · simp at listed

/-- A disk with these directories and the file, which nothing changes. -/
def nestedDisk : Disk Unit where
  listdir _ := namesBelow
  islink _ _ := false
  isfile _ path := path = "/d/sub/B.TXT".toList
  isdir _ path := path = "/d".toList ∨ path = "/d/sub".toList
  exists_ _ path := path = "/d".toList ∨ path = "/d/sub".toList ∨ path = "/d/sub/B.TXT".toList
  lexists _ path := path = "/d".toList ∨ path = "/d/sub".toList ∨ path = "/d/sub/B.TXT".toList
  readlink _ _ := .error (.runtime "Invalid argument")
  mtime _ _ := .ok 0
  delete _ _ := .error (.runtime "Read-only file system")
  homedir := ['/']
  replaceBraces := .ok
  fnmatchcase name pattern := wildcards pattern name
  lower text := text.map Char.toLower
  height _ path := if path = "/d".toList then 1 else 0
  listdir_ok := by
    intro _ path directory
    rcases of_decide_eq_true directory with outer | inner
    · exact ⟨_, by rw [outer]; rfl⟩
    · exact ⟨_, by rw [inner]; rfl⟩
  names_nodup := by
    intro _ path names listed
    rcases namesBelow_cases listed with ⟨_, same⟩ | ⟨_, same⟩
    · rw [same]
      exact List.nodup_singleton _
    · rw [same]
      exact List.nodup_singleton _
  names_valid := by
    intro _ path names listed name member
    rcases namesBelow_cases listed with ⟨_, same⟩ | ⟨_, same⟩
    · rw [same, List.mem_singleton] at member
      rw [member]
      decide
    · rw [same, List.mem_singleton] at member
      rw [member]
      decide
  entry_exists := by
    intro _ path names listed name member _
    rcases namesBelow_cases listed with ⟨outer, same⟩ | ⟨inner, same⟩
    · rw [same, List.mem_singleton] at member
      rw [outer, member]
      decide
    · rw [same, List.mem_singleton] at member
      rw [inner, member]
      decide
  isfile_exists := by
    intro _ path file
    rw [of_decide_eq_true file]
    decide
  isdir_exists := by
    intro _ path directory
    rcases of_decide_eq_true directory with outer | inner
    · rw [outer]
      decide
    · rw [inner]
      decide
  file_not_dir := by
    intro _ path file
    rw [of_decide_eq_true file]
    decide
  mtime_ok := fun _ _ _ => ⟨0, rfl⟩
  height_lt := by
    intro _ path names listed name member directory _
    rcases namesBelow_cases listed with ⟨outer, same⟩ | ⟨inner, same⟩
    · rw [same, List.mem_singleton] at member
      rw [outer, member]
      decide
    · rw [same, List.mem_singleton] at member
      rw [inner, member] at directory
      exact absurd directory (by decide)

/-- The files named `*.txt`, in whichever case, are asked for at every level. -/
def insensitiveCall : Call FSPaths.atRoot nestedDisk where
  options :=
    { recursive := true
      filter := some "*.txt".toList
      minmtime := none
      maxmtime := none
      files := true
      dirs := false
      exclude := []
      followSymlinks := false
      listSymlinks := false }
  caseSensitivity := "insensitive".toList
  depth := none
  path := "/d".toList
  state := ()
  base := "/d".toList
  type := ⟨rfl, rfl⟩
  checked := by rfl
  directory := by decide

theorem shown_cases {dir name : Text}
    (shown : Shown nestedDisk insensitiveCall.options insensitiveCall.state dir name) :
    (dir = "/d".toList ∧ name = "sub".toList) ∨
      (dir = "/d/sub".toList ∧ name = "B.TXT".toList) := by
  obtain ⟨⟨names, listed, member⟩, _⟩ := shown
  rcases namesBelow_cases listed with ⟨outer, same⟩ | ⟨inner, same⟩
  · rw [same, List.mem_singleton] at member
    exact .inl ⟨outer, member⟩
  · rw [same, List.mem_singleton] at member
    exact .inr ⟨inner, member⟩

theorem insensitiveCall_straightforward : insensitiveCall.Straightforward := by
  intro place _ name shown
  refine ⟨rfl, ?_⟩
  rcases shown_cases shown with ⟨outer, same⟩ | ⟨inner, same⟩
  · rw [outer, same]
    exact ⟨by rfl, ⟨by decide, by rfl⟩, by decide⟩
  · rw [inner, same]
    exact ⟨by rfl, ⟨by decide, by rfl⟩, by decide⟩

end JumpscaleX.FSDisk
