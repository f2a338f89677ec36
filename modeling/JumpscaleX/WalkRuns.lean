import JumpscaleX.FSWalker
import JumpscaleX.ListingExact

/-!
# Runs of a walk

A walk of a directory without links below it calls the callback for a file twice as often with
every directory that the file is deeper.
-/

namespace JumpscaleX.FSWalker

open Fallible Stateful
open FSDisk
open FSPaths (joinPaths)
open Profiles (Text)

/-! ## What is in a directory -/

/-- The entries of a directory in the order of `listdir`: files, directories with their own
entries, and what is neither. -/
inductive Entries where
  | nil
  | file (name : Text) (rest : Entries)
  | folder (name : Text) (inner rest : Entries)
  | special (name : Text) (rest : Entries)

namespace Entries

def names : Entries → List Text
  | nil => []
  | file name rest => name :: names rest
  | folder name _ rest => name :: names rest
  | special name rest => name :: names rest

/-- The names are different, and names of entries. -/
def Neat : Entries → Prop
  | nil => True
  | file name rest => (name ≠ [] ∧ '/' ∉ name) ∧ name ∉ rest.names ∧ Neat rest
  | folder name inner rest =>
      (name ≠ [] ∧ '/' ∉ name) ∧ name ∉ rest.names ∧ Neat inner ∧ Neat rest
  | special name rest => (name ≠ [] ∧ '/' ∉ name) ∧ name ∉ rest.names ∧ Neat rest

/-- The paths in the order in which they are listed. -/
def listing (dir : Text) : Entries → List Text
  | nil => []
  | file name rest => joinPaths dir name :: listing dir rest
  | folder name inner rest =>
      joinPaths dir name :: (listing (joinPaths dir name) inner ++ listing dir rest)
  | special _ rest => listing dir rest

/-- The file or directory of a name, behind the names of the directories on the way. -/
def Has : Entries → (isFolder : Bool) → (dirs : List Text) → (name : Text) → Prop
  | nil, _, _, _ => False
  | file other rest, isFolder, dirs, name =>
      (isFolder = false ∧ dirs = [] ∧ name = other) ∨ Has rest isFolder dirs name
  | folder other inner rest, isFolder, dirs, name =>
      (isFolder = true ∧ dirs = [] ∧ name = other) ∨
        (∃ deeper, dirs = other :: deeper ∧ Has inner isFolder deeper name) ∨
          Has rest isFolder dirs name
  | special _ rest, isFolder, dirs, name => Has rest isFolder dirs name

end Entries

/-- The path of an entry. -/
def pathOf (dir : Text) (dirs : List Text) (name : Text) : Text :=
  joinPaths (dirs.foldl joinPaths dir) name

/-- The paths that the callback is called for in the loop of a walk of `root`, as far as it is
about the entries of `dir`: those in a directory are walked, and then come again in the
listing. -/
def turns (asked : Text → Text → Bool) (folders : Bool) (root dir : Text) : Entries → List Text
  | .nil => []
  | .file name rest =>
      (if asked root (joinPaths dir name) then [joinPaths dir name] else []) ++
        turns asked folders root dir rest
  | .folder name inner rest =>
      (if folders && asked root (joinPaths dir name) then [joinPaths dir name] else []) ++
        (turns asked folders (joinPaths dir name) (joinPaths dir name) inner ++
          (turns asked folders root (joinPaths dir name) inner ++
            turns asked folders root dir rest))
  | .special _ rest => turns asked folders root dir rest

/-! ## Counting -/

section

variable {asked : Text → Text → Bool} {folders : Bool} {entries : Entries}

/-- Every path is below one of the entries. -/
theorem exists_part (neat : entries.Neat) {root dir path : Text}
    (member : path ∈ turns asked folders root dir entries) :
    ∃ name ∈ entries.names, (name ≠ [] ∧ '/' ∉ name) ∧ Part dir name path := by
  induction entries generalizing root dir with
  | nil => cases member
  | file name rest induction =>
      obtain ⟨valid, -, neatRest⟩ := neat
      rw [turns, List.mem_append] at member
      rcases member with itself | later
      · split at itself
        · rw [List.mem_singleton] at itself
          exact ⟨name, List.mem_cons_self, valid, [], by rw [itself, List.append_nil], .inl rfl⟩
        · cases itself
      · obtain ⟨other, inRest, validOther, part⟩ := induction neatRest later
        exact ⟨other, List.mem_cons_of_mem _ inRest, validOther, part⟩
  | folder name inner rest inductionInner inductionRest =>
      obtain ⟨valid, -, neatInner, neatRest⟩ := neat
      have below : ∀ {top : Text}, path ∈ turns asked folders top (joinPaths dir name) inner →
          Part dir name path := by
        intro top inside
        obtain ⟨other, -, validOther, part⟩ := inductionInner neatInner inside
        exact (part.outer valid.2 valid.1 validOther.2).1
      rw [turns, List.mem_append, List.mem_append, List.mem_append] at member
      rcases member with itself | walked | again | later
      · split at itself
        · rw [List.mem_singleton] at itself
          exact ⟨name, List.mem_cons_self, valid, [], by rw [itself, List.append_nil], .inl rfl⟩
        · cases itself
      · exact ⟨name, List.mem_cons_self, valid, below walked⟩
      · exact ⟨name, List.mem_cons_self, valid, below again⟩
      · obtain ⟨other, inRest, validOther, part⟩ := inductionRest neatRest later
        exact ⟨other, List.mem_cons_of_mem _ inRest, validOther, part⟩
  | special name rest induction =>
      obtain ⟨valid, -, neatRest⟩ := neat
      obtain ⟨other, inRest, validOther, part⟩ := induction neatRest member
      exact ⟨other, List.mem_cons_of_mem _ inRest, validOther, part⟩

/-- The path of an entry is below the first name on the way. -/
theorem exists_first (neat : entries.Neat) {isFolder : Bool} {dir : Text} {dirs : List Text}
    {name : Text} (has : entries.Has isFolder dirs name) :
    ∃ first ∈ entries.names, (first ≠ [] ∧ '/' ∉ first) ∧
      Part dir first (pathOf dir dirs name) := by
  induction entries generalizing dir dirs with
  | nil => exact has.elim
  | file other rest induction =>
      obtain ⟨valid, -, neatRest⟩ := neat
      rcases has with ⟨-, isEmpty, isName⟩ | later
      · rw [isEmpty, isName]
        exact ⟨other, List.mem_cons_self, valid, [], (List.append_nil _).symm, .inl rfl⟩
      · obtain ⟨first, inRest, validFirst, part⟩ := induction neatRest later
        exact ⟨first, List.mem_cons_of_mem _ inRest, validFirst, part⟩
  | folder other inner rest inductionInner inductionRest =>
      obtain ⟨valid, -, neatInner, neatRest⟩ := neat
      rcases has with ⟨-, isEmpty, isName⟩ | ⟨deeper, isDirs, inside⟩ | later
      · rw [isEmpty, isName]
        exact ⟨other, List.mem_cons_self, valid, [], (List.append_nil _).symm, .inl rfl⟩
      · obtain ⟨first, -, validFirst, part⟩ :=
          @inductionInner neatInner (joinPaths dir other) deeper inside
        rw [isDirs]
        exact ⟨other, List.mem_cons_self, valid, (part.outer valid.2 valid.1 validFirst.2).1⟩
      · obtain ⟨first, inRest, validFirst, part⟩ := inductionRest neatRest later
        exact ⟨first, List.mem_cons_of_mem _ inRest, validFirst, part⟩
  | special other rest induction =>
      obtain ⟨-, -, neatRest⟩ := neat
      obtain ⟨first, inRest, validFirst, part⟩ := induction neatRest has
      exact ⟨first, List.mem_cons_of_mem _ inRest, validFirst, part⟩

/-- What is below another name is not among the paths. -/
theorem count_eq_zero (neat : entries.Neat) {root dir name path : Text} (plain : '/' ∉ name)
    (absent : name ∉ entries.names) (part : Part dir name path) :
    (turns asked folders root dir entries).count path = 0 := by
  apply List.count_eq_zero.mpr
  intro member
  obtain ⟨other, inNames, valid, partOther⟩ := exists_part neat member
  rw [part.name_eq plain valid.2 partOther] at absent
  exact absent inNames

/-- A directory is not among the paths of its entries. -/
theorem count_self (neat : entries.Neat) {root dir name : Text}
    (valid : name ≠ [] ∧ '/' ∉ name) :
    (turns asked folders root (joinPaths dir name) entries).count (joinPaths dir name) = 0 := by
  apply List.count_eq_zero.mpr
  intro member
  obtain ⟨other, -, validOther, part⟩ := exists_part neat member
  exact (part.outer valid.2 valid.1 validOther.2).2 rfl

theorem Part.self (dir name : Text) : Part dir name (joinPaths dir name) :=
  ⟨[], (List.append_nil _).symm, .inl rfl⟩

theorem Part.ne (dir : Text) {name other path : Text} (plain : '/' ∉ name)
    (plainOther : '/' ∉ other) (different : other ≠ name) (part : Part dir other path) :
    path ≠ joinPaths dir name := by
  intro same
  rw [same] at part
  exact different (part.name_eq plainOther plain (Part.self dir name))

theorem count_ite {condition : Prop} [Decidable condition] {path other : Text}
    (different : path ≠ other) : (if condition then [other] else []).count path = 0 := by
  split
  · rw [List.count_singleton, if_neg (by simpa using different.symm)]
  · rfl

theorem count_asked {condition : Prop} [Decidable condition] (holds : condition) (path : Text) :
    (if condition then [path] else []).count path = 1 := by
  rw [if_pos holds]
  exact List.count_singleton_self

@[simp] theorem pathOf_nil (dir name : Text) : pathOf dir [] name = joinPaths dir name := rfl

@[simp] theorem pathOf_cons (dir first : Text) (dirs : List Text) (name : Text) :
    pathOf dir (first :: dirs) name = pathOf (joinPaths dir first) dirs name := rfl

/-- When it is asked of the path alone, an entry comes twice as often with every directory on
the way. -/
theorem count_turns (neat : entries.Neat) (asked : Text → Bool) {isFolder : Bool}
    {root dir : Text} {dirs : List Text} {name : Text} (has : entries.Has isFolder dirs name)
    (shown : isFolder = true → folders = true) (isAsked : asked (pathOf dir dirs name) = true) :
    (turns (fun _ => asked) folders root dir entries).count (pathOf dir dirs name) =
      2 ^ dirs.length := by
  induction entries generalizing root dir dirs with
  | nil => exact has.elim
  | file other rest induction =>
      obtain ⟨valid, absent, neatRest⟩ := neat
      rw [turns, List.count_append]
      rcases has with ⟨-, isEmpty, isName⟩ | later
      · rw [isEmpty, isName, pathOf_nil] at isAsked ⊢
        rw [count_asked isAsked, count_eq_zero neatRest valid.2 absent (Part.self dir other)]
        rfl
      · obtain ⟨first, inRest, validFirst, part⟩ := @exists_first _ neatRest _ dir _ _ later
        have different : first ≠ other := fun same => absent (same ▸ inRest)
        rw [count_ite (Part.ne dir valid.2 validFirst.2 different part), Nat.zero_add]
        exact induction neatRest later isAsked
  | folder other inner rest inductionInner inductionRest =>
      obtain ⟨valid, absent, neatInner, neatRest⟩ := neat
      rw [turns, List.count_append, List.count_append, List.count_append]
      rcases has with ⟨folder, isEmpty, isName⟩ | ⟨deeper, isDirs, inside⟩ | later
      · -- the directory itself
        rw [isEmpty, isName, pathOf_nil] at isAsked ⊢
        have both : (folders && asked (joinPaths dir other)) = true := by
          rw [shown folder, isAsked, Bool.and_self]
        rw [count_asked both, count_self neatInner valid, count_self neatInner valid,
          count_eq_zero neatRest valid.2 absent (Part.self dir other)]
        rfl
      · -- what is below the directory comes when it is walked, and again in the listing
        rw [isDirs, pathOf_cons] at isAsked ⊢
        obtain ⟨first, -, validFirst, part⟩ := @exists_first _ neatInner _ (joinPaths dir other) _ _
          inside
        obtain ⟨outer, notItself⟩ := part.outer valid.2 valid.1 validFirst.2
        rw [count_ite notItself, inductionInner neatInner inside isAsked,
          inductionInner neatInner inside isAsked,
          count_eq_zero neatRest valid.2 absent outer, List.length_cons, Nat.pow_succ]
        omega
      · -- what is behind the directory
        obtain ⟨first, inRest, validFirst, part⟩ := @exists_first _ neatRest _ dir _ _ later
        have different : first ≠ other := fun same => absent (same ▸ inRest)
        have notInner : ∀ top,
            (turns (fun _ => asked) folders top (joinPaths dir other) inner).count
              (pathOf dir dirs name) = 0 := by
          intro top
          apply List.count_eq_zero.mpr
          intro member
          obtain ⟨another, -, validAnother, partAnother⟩ := exists_part neatInner member
          have outer := (partAnother.outer valid.2 valid.1 validAnother.2).1
          exact different (part.name_eq validFirst.2 valid.2 outer)
        rw [count_ite (Part.ne dir valid.2 validFirst.2 different part), notInner, notInner,
          Nat.zero_add, Nat.zero_add, Nat.zero_add]
        exact inductionRest neatRest later isAsked
  | special other rest induction =>
      obtain ⟨-, -, neatRest⟩ := neat
      exact induction neatRest has isAsked

/-- The paths are those of entries that are asked for. -/
theorem exists_has {root dir path : Text} (member : path ∈ turns asked folders root dir entries) :
    ∃ isFolder dirs name, entries.Has isFolder dirs name ∧
      (isFolder = true → folders = true) ∧ path = pathOf dir dirs name ∧
        ∃ top, asked top path = true := by
  induction entries generalizing root dir with
  | nil => cases member
  | file other rest induction =>
      rw [turns, List.mem_append] at member
      rcases member with itself | later
      · split at itself
        · rename_i isAsked
          rw [List.mem_singleton] at itself
          rw [← itself] at isAsked
          exact ⟨false, [], other, .inl ⟨rfl, rfl, rfl⟩, (fun folder => by cases folder), itself,
            root, isAsked⟩
        · cases itself
      · obtain ⟨isFolder, dirs, name, has, rest⟩ := induction later
        exact ⟨isFolder, dirs, name, .inr has, rest⟩
  | folder other inner rest inductionInner inductionRest =>
      rw [turns, List.mem_append, List.mem_append, List.mem_append] at member
      rcases member with itself | walked | again | later
      · split at itself
        · rename_i isAsked
          rw [List.mem_singleton] at itself
          rw [← itself, Bool.and_eq_true] at isAsked
          exact ⟨true, [], other, .inl ⟨rfl, rfl, rfl⟩, fun _ => isAsked.1, itself, root, isAsked.2⟩
        · cases itself
      · obtain ⟨isFolder, dirs, name, has, rest⟩ := inductionInner walked
        exact ⟨isFolder, other :: dirs, name, .inr (.inl ⟨dirs, rfl, has⟩), rest⟩
      · obtain ⟨isFolder, dirs, name, has, rest⟩ := inductionInner again
        exact ⟨isFolder, other :: dirs, name, .inr (.inl ⟨dirs, rfl, has⟩), rest⟩
      · obtain ⟨isFolder, dirs, name, has, rest⟩ := inductionRest later
        exact ⟨isFolder, dirs, name, .inr (.inr has), rest⟩
  | special other rest induction => exact induction member

end

/-! ## Listings -/

section

variable {S : Type} (process : FSPaths.Process) (disk : Disk S) (state : S)

/-- The entries of the directory are what they are on the disk, and no links. -/
def Inside : (dir : Text) → Entries → Prop
  | _, .nil => True
  | dir, .file name rest =>
      (Fixed process disk (joinPaths dir name) ∧ disk.islink state (joinPaths dir name) = false) ∧
        disk.isfile state (joinPaths dir name) = true ∧ Inside dir rest
  | dir, .folder name inner rest =>
      (Fixed process disk (joinPaths dir name) ∧ disk.islink state (joinPaths dir name) = false) ∧
        disk.isdir state (joinPaths dir name) = true ∧
          disk.listdir state (joinPaths dir name) = .ok inner.names ∧
            Inside (joinPaths dir name) inner ∧ Inside dir rest
  | dir, .special name rest =>
      (Fixed process disk (joinPaths dir name) ∧ disk.islink state (joinPaths dir name) = false) ∧
        disk.isfile state (joinPaths dir name) = false ∧
          disk.isdir state (joinPaths dir name) = false ∧ Inside dir rest

/-- The directory has the entries. -/
structure Holds (dir : Text) (entries : Entries) : Prop where
  listed : disk.listdir state dir = .ok entries.names
  inside : Inside process disk state dir entries

end

section

variable {S : Type} {process : FSPaths.Process} {disk : Disk S} {state : S} {follow : Bool}

/-- The arguments with which the walker lists a directory. -/
def walkOptions (followlinks : Bool) : Options where
  recursive := true
  filter := none
  minmtime := none
  maxmtime := none
  files := true
  dirs := true
  exclude := []
  followSymlinks := followlinks
  listSymlinks := true

theorem own_walk {level name path : Text} (there : disk.exists_ state path = true)
    (kind : disk.isfile state path = true ∨ disk.isdir state path = true) :
    own disk (walkOptions follow) state level name path = [path] := by
  obtain ⟨time, isTime⟩ := disk.mtime_ok state path there
  have taken : included disk (walkOptions follow) state level name path = true :=
    included_iff.mpr ⟨rfl, time, isTime, rfl⟩
  rw [own, if_pos ⟨kind.imp id (fun directory => ⟨directory, rfl⟩), taken⟩]

/-- What the loop knows of an entry that is no link. -/
structure Met (process : FSPaths.Process) (disk : Disk S) (state : S) (follow : Bool)
    (dir name : Text) : Prop where
  entry : Entry disk (walkOptions follow) state dir name (joinPaths dir name)
  plain : Plain process disk (walkOptions follow) state dir name (joinPaths dir name)
  there : disk.exists_ state (joinPaths dir name) = true

theorem Met.of_listed {dir name : Text} {names : List Text}
    (listed : disk.listdir state dir = .ok names) (member : name ∈ names)
    (fixed : Fixed process disk (joinPaths dir name))
    (direct : disk.islink state (joinPaths dir name) = false) :
    Met process disk state follow dir name where
  entry := by
    refine ⟨⟨⟨names, listed, member⟩, .inl rfl⟩, ?_⟩
    rw [entryPath, if_neg]
    rw [direct]
    simp
  plain := by
    refine ⟨fixed, ?_⟩
    intro link
    rw [direct] at link
    cases link
  there := disk.entry_exists state dir names listed name member direct

/-- From some number of calls on, the loop adds the paths for the name. -/
def Adds (process : FSPaths.Process) (disk : Disk S) (state : S) (follow : Bool) (dir name : Text)
    (piece : List Text) : Prop :=
  ∃ limit, ∀ calls, limit ≤ calls → ∀ filesreturn,
    listEntry process disk calls (listAllInDir process disk calls (walkOptions follow) "os".toList)
      (walkOptions follow) "os".toList none dir filesreturn name state =
        .ok (filesreturn ++ piece) state

/-- From some number of calls on, the loop over the names adds the paths. -/
def AddsAll (process : FSPaths.Process) (disk : Disk S) (state : S) (follow : Bool) (dir : Text)
    (names pieces : List Text) : Prop :=
  ∃ limit, ∀ calls, limit ≤ calls → ∀ filesreturn,
    names.foldlM (listEntry process disk calls
      (listAllInDir process disk calls (walkOptions follow) "os".toList) (walkOptions follow)
      "os".toList none dir) filesreturn state = .ok (filesreturn ++ pieces) state

section

variable {dir name : Text} {piece : List Text}

theorem AddsAll.cons {names pieces : List Text}
    (first : Adds process disk state follow dir name piece)
    (later : AddsAll process disk state follow dir names pieces) :
    AddsAll process disk state follow dir (name :: names) (piece ++ pieces) := by
  obtain ⟨limit, one⟩ := first
  obtain ⟨limits, others⟩ := later
  refine ⟨max limit limits, ?_⟩
  intro calls enough filesreturn
  have here := one calls (le_trans (le_max_left _ _) enough) filesreturn
  have behind := others calls (le_trans (le_max_right _ _) enough) (filesreturn ++ piece)
  rw [List.foldlM_cons, seq_of_ok here, behind, List.append_assoc]

theorem Met.adds_file (met : Met process disk state follow dir name)
    (isFile : disk.isfile state (joinPaths dir name) = true) :
    Adds process disk state follow dir name [joinPaths dir name] := by
  obtain ⟨limit, leads⟩ := met.plain.linkBroken_eq
  refine ⟨limit, ?_⟩
  intro calls enough filesreturn
  rw [listEntry_plain rfl met.plain met.entry (leads calls enough), if_pos isFile,
    own_walk met.there (.inl isFile)]

theorem Met.adds_special (met : Met process disk state follow dir name)
    (noFile : disk.isfile state (joinPaths dir name) = false)
    (noDirectory : disk.isdir state (joinPaths dir name) = false) :
    Adds process disk state follow dir name [] := by
  obtain ⟨limit, leads⟩ := met.plain.linkBroken_eq
  refine ⟨limit, ?_⟩
  intro calls enough filesreturn
  rw [listEntry_plain rfl met.plain met.entry (leads calls enough), noFile, noDirectory,
    List.append_nil]
  rfl

/-- A directory adds itself and what its names add. -/
theorem Met.adds_folder (met : Met process disk state follow dir name)
    (isDirectory : disk.isdir state (joinPaths dir name) = true)
    (direct : disk.islink state (joinPaths dir name) = false) {names : List Text}
    (listed : disk.listdir state (joinPaths dir name) = .ok names)
    (inner : AddsAll process disk state follow (joinPaths dir name) names piece) :
    Adds process disk state follow dir name (joinPaths dir name :: piece) := by
  obtain ⟨limit, leads⟩ := met.plain.linkBroken_eq
  obtain ⟨limits, below⟩ := inner
  refine ⟨max limit (limits + 1), ?_⟩
  intro calls enough filesreturn
  have noFile : ¬ disk.isfile state (joinPaths dir name) = true := by
    intro isFile
    rw [disk.file_not_dir state _ isFile] at isDirectory
    cases isDirectory
  obtain ⟨fewer, rfl⟩ : ∃ fewer, calls = fewer + 1 := ⟨calls - 1, by omega⟩
  have deeper : listAllInDir process disk (fewer + 1) (walkOptions follow) "os".toList
      (newdepth none) (joinPaths dir name) state = .ok piece state := by
    have shown : names.filter (fun name => (walkOptions follow).listSymlinks ||
        !disk.islink state (joinPaths (joinPaths dir name) name)) = names :=
      List.filter_eq_self.mpr (fun _ _ => rfl)
    have content : listInDir disk state (joinPaths dir name) (walkOptions follow).listSymlinks =
        .ok names := by
      rw [listInDir, listed]
      exact congrArg Except.ok shown
    rw [listAllInDir, seq_of_ok (query_of_ok state content)]
    exact below fewer (by omega) []
  have recursive : (walkOptions follow).recursive = true := rfl
  have more : newdepth none ≠ some 0 := by simp [newdepth]
  have allowed : ¬ (walkOptions follow).exclude.any
      (matcher disk "os".toList (joinPaths dir name)) = true := by
    simp [walkOptions]
  rw [listEntry_plain rfl met.plain met.entry (leads _ (by omega)), if_neg noFile,
    if_pos isDirectory, listDirectory_enters (met.plain.resolved met.entry) isDirectory
      (.inr direct) recursive more allowed deeper, own_walk met.there (.inr isDirectory),
    List.append_assoc]
  rfl

end

/-- The loop over the names of some of the entries adds what is listed of them. -/
theorem adds_entries {dir : Text} {names : List Text} {entries : Entries}
    (listed : disk.listdir state dir = .ok names) (some : ∀ name ∈ entries.names, name ∈ names)
    (inside : Inside process disk state dir entries) :
    AddsAll process disk state follow dir entries.names (entries.listing dir) := by
  induction entries generalizing dir names with
  | nil =>
      refine ⟨0, ?_⟩
      intro calls _ filesreturn
      rw [Entries.listing, List.append_nil]
      rfl
  | file name rest induction =>
      obtain ⟨⟨fixed, direct⟩, isFile, insideRest⟩ := inside
      obtain ⟨first, others⟩ := List.forall_mem_cons.mp some
      have met : Met process disk state follow dir name := .of_listed listed first fixed direct
      exact AddsAll.cons (met.adds_file isFile) (induction listed others insideRest)
  | folder name inner rest inductionInner inductionRest =>
      obtain ⟨⟨fixed, direct⟩, isDirectory, listedInner, insideInner, insideRest⟩ := inside
      obtain ⟨first, others⟩ := List.forall_mem_cons.mp some
      have met : Met process disk state follow dir name := .of_listed listed first fixed direct
      have below := inductionInner listedInner (fun _ member => member) insideInner
      exact AddsAll.cons (met.adds_folder isDirectory direct listedInner below)
        (inductionRest listed others insideRest)
  | special name rest induction =>
      obtain ⟨⟨fixed, direct⟩, noFile, noDirectory, insideRest⟩ := inside
      obtain ⟨first, others⟩ := List.forall_mem_cons.mp some
      have met : Met process disk state follow dir name := .of_listed listed first fixed direct
      exact AddsAll.cons (met.adds_special noFile noDirectory) (induction listed others insideRest)

/-- What the walker lists in a directory. -/
theorem listFilesAndDirsInDir_eq {dir : Text} {entries : Entries}
    (holds : Holds process disk state dir entries) (fixed : Fixed process disk dir)
    (isDirectory : disk.isdir state dir = true) :
    ∃ limit, ∀ calls, limit ≤ calls →
      listFilesAndDirsInDir process disk calls follow true dir state =
        .ok (entries.listing dir) state := by
  obtain ⟨limit, adds⟩ := @adds_entries _ process disk state follow dir entries.names entries
    holds.listed (fun _ member => member) holds.inside
  refine ⟨limit + 1, ?_⟩
  intro calls enough
  obtain ⟨fewer, rfl⟩ : ∃ fewer, calls = fewer + 1 := ⟨calls - 1, by omega⟩
  have checked : pathCheck process disk "listFilesAndDirsInDir"
      { required := true, replace := true, existing := true, dir := true } state dir = .ok dir :=
    fixed.pathCheck_eq _ _ (.inr (disk.isdir_exists state dir isDirectory)) (.inr isDirectory)
  have shown : entries.names.filter (fun name => (walkOptions follow).listSymlinks ||
      !disk.islink state (joinPaths dir name)) = entries.names :=
    List.filter_eq_self.mpr (fun _ _ => rfl)
  have content : listInDir disk state dir (walkOptions follow).listSymlinks =
      .ok entries.names := by
    rw [listInDir, holds.listed]
    exact congrArg Except.ok shown
  rw [listFilesAndDirsInDir, seq_of_ok (query_of_ok state checked)]
  change listAllInDir process disk (fewer + 1) (walkOptions follow) "os".toList none dir state = _
  rw [listAllInDir, seq_of_ok (query_of_ok state content)]
  exact adds fewer (by omega) []

end

/-! ## Walks -/

section

variable {S A : Type} {process : FSPaths.Process} {disk : Disk S} {state : S}

theorem isDir_direct {path : Text} (fixed : Fixed process disk path)
    (there : disk.exists_ state path = true) (direct : disk.islink state path = false)
    (follow : Bool) : isDir process disk state path follow = .ok (disk.isdir state path) := by
  rw [isDir, fixed.pathCheck_eq _ _ (.inr there) (.inl rfl)]
  simp only [bind, Except.bind, fixed.isLink_eq, direct]
  rfl

theorem isFile_direct {path : Text} (fixed : Fixed process disk path)
    (there : disk.exists_ state path = true) (direct : disk.islink state path = false)
    (follow : Bool) : isFile process disk state path follow = .ok (disk.isfile state path) := by
  rw [isFile, fixed.pathCheck_eq _ _ (.inr there) (.inl rfl)]
  cases follow with
  | true => rfl
  | false =>
      simp only [bind, Except.bind, fixed.isLink_eq, direct, Bool.false_eq_true, if_false]
      rfl

/-- The callback leaves the file system as it is, and its result is not `False`. -/
def Records (walk : Walk S A) (record : A → Text → A) : Prop :=
  ∀ path state arg, walk.callback path (state, arg) = .ok true (state, record arg path)

variable {walk : Walk S A} {record : A → Text → A} {asked : Text → Text → Bool}

/-- What the callbacks for some paths make of `arg`. -/
def recorded (record : A → Text → A) (paths : List Text) (arg : A) : A :=
  paths.foldl record arg

theorem recorded_append (first later : List Text) (arg : A) :
    recorded record (first ++ later) arg = recorded record later (recorded record first arg) :=
  List.foldl_append

theorem called_eq (records : Records walk record) {root path : Text}
    (judged : isAsked process disk walk state root path = .ok (asked root path)) (arg : A) :
    called process disk walk root path (state, arg) =
      .ok true (state, recorded record (if asked root path then [path] else []) arg) := by
  have read : query (fun state : S × A => isAsked process disk walk state.1 root path)
      (state, arg) = .ok (asked root path) (state, arg) := query_eq_ok_iff.mpr ⟨judged, rfl⟩
  rw [called, seq_of_ok read]
  cases asked root path with
  | true => exact records path state arg
  | false => rfl

/-- From some number of calls on, the loop over the paths calls back for others. -/
def Turns (process : FSPaths.Process) (disk : Disk S) (state : S) (walk : Walk S A)
    (record : A → Text → A) (root : Text) (paths calledFor : List Text) : Prop :=
  ∃ limit, ∀ calls, limit ≤ calls → ∀ arg,
    paths.forM (turn process disk walk (walkIn process disk walk calls) root) (state, arg) =
      .ok () (state, recorded record calledFor arg)

theorem Turns.append {root : Text} {first later calledFirst calledLater : List Text}
    (turns : Turns process disk state walk record root first calledFirst)
    (others : Turns process disk state walk record root later calledLater) :
    Turns process disk state walk record root (first ++ later) (calledFirst ++ calledLater) := by
  obtain ⟨limit, one⟩ := turns
  obtain ⟨limits, two⟩ := others
  refine ⟨max limit limits, ?_⟩
  intro calls enough arg
  have here := one calls (le_trans (le_max_left _ _) enough) arg
  have behind := two calls (le_trans (le_max_right _ _) enough) (recorded record calledFirst arg)
  have split : (first ++ later).forM
      (turn process disk walk (walkIn process disk walk calls) root) =
      first.forM (turn process disk walk (walkIn process disk walk calls) root) >>= fun _ =>
        later.forM (turn process disk walk (walkIn process disk walk calls) root) :=
    List.forM_append
  rw [split, seq_of_ok here, behind, recorded_append]

theorem Turns.single {root path : Text} {calledFor : List Text}
    (turns : ∃ limit, ∀ calls, limit ≤ calls → ∀ arg,
      turn process disk walk (walkIn process disk walk calls) root path (state, arg) =
        .ok () (state, recorded record calledFor arg)) :
    Turns process disk state walk record root [path] calledFor := by
  obtain ⟨limit, one⟩ := turns
  refine ⟨limit, ?_⟩
  intro calls enough arg
  change (turn process disk walk (walkIn process disk walk calls) root path >>= fun _ =>
    [].forM (turn process disk walk (walkIn process disk walk calls) root)) (state, arg) = _
  rw [seq_of_ok (one calls enough arg)]
  rfl

/-- A file, for which the callback is called when it is asked for. -/
theorem turn_file (records : Records walk record) {root path : Text}
    (fixed : Fixed process disk path) (direct : disk.islink state path = false)
    (isFile' : disk.isfile state path = true)
    (judged : isAsked process disk walk state root path = .ok (asked root path)) :
    Turns process disk state walk record root [path] (if asked root path then [path] else []) := by
  have there := disk.isfile_exists state path isFile'
  apply Turns.single
  refine ⟨0, ?_⟩
  intro calls _ arg
  have noDirectory : query (fun state : S × A => isDir process disk state.1 path walk.followlinks)
      (state, arg) = .ok false (state, arg) := by
    have read := isDir_direct fixed there direct walk.followlinks
    rw [disk.file_not_dir state path isFile'] at read
    exact query_eq_ok_iff.mpr ⟨read, rfl⟩
  have file : query (fun state : S × A => isFile process disk state.1 path walk.followlinks)
      (state, arg) = .ok true (state, arg) := by
    have read := isFile_direct fixed there direct walk.followlinks
    rw [isFile'] at read
    exact query_eq_ok_iff.mpr ⟨read, rfl⟩
  rw [turn, seq_of_ok noDirectory]
  simp only [Bool.false_eq_true, if_false]
  rw [seq_of_ok file]
  simp only [if_true]
  rw [seq_of_ok (called_eq records judged arg)]
  rfl

/-- A directory, for which the callback is called when it is asked for and which is walked
then. -/
theorem turn_folder (records : Records walk record) {root path : Text}
    (fixed : Fixed process disk path) (direct : disk.islink state path = false)
    (isDirectory : disk.isdir state path = true)
    (judged : isAsked process disk walk state root path = .ok (asked root path))
    {paths calledFor : List Text}
    (listed : ∃ limit, ∀ calls, limit ≤ calls →
      listFilesAndDirsInDir process disk calls walk.followlinks true path state = .ok paths state)
    (turns : Turns process disk state walk record path paths calledFor) :
    Turns process disk state walk record root [path]
      ((if walk.includeFolders && asked root path then [path] else []) ++ calledFor) := by
  have there := disk.isdir_exists state path isDirectory
  obtain ⟨limit, lists⟩ := listed
  obtain ⟨limits, below⟩ := turns
  apply Turns.single
  refine ⟨max limit limits + 1, ?_⟩
  intro calls enough arg
  obtain ⟨fewer, rfl⟩ : ∃ fewer, calls = fewer + 1 := ⟨calls - 1, by omega⟩
  have directory : query (fun state : S × A => isDir process disk state.1 path walk.followlinks)
      (state, arg) = .ok true (state, arg) := by
    have read := isDir_direct fixed there direct walk.followlinks
    rw [isDirectory] at read
    exact query_eq_ok_iff.mpr ⟨read, rfl⟩
  have walked : ∀ arg, walkIn process disk walk (fewer + 1) path (state, arg) =
      .ok () (state, recorded record calledFor arg) := by
    intro arg
    have read : onDisk (listFilesAndDirsInDir process disk fewer walk.followlinks true path)
        (state, arg) = .ok paths (state, arg) := by
      simp only [onDisk, onPart, lists fewer (by omega)]
    rw [walkIn, seq_of_ok read]
    exact below fewer (by omega) arg
  rw [turn, seq_of_ok directory]
  simp only [if_true]
  cases folders : walk.includeFolders with
  | true =>
      simp only [if_true, Bool.true_and]
      rw [seq_of_ok (called_eq records judged arg), recorded_append]
      exact walked _
  | false =>
      simp only [Bool.false_eq_true, if_false, Bool.false_and, List.nil_append]
      exact walked arg

/-- The loop of a walk of `root` over what is listed of the entries of a directory. -/
theorem turns_entries (records : Records walk record) {dir : Text} {entries : Entries}
    (inside : Inside process disk state dir entries)
    (judged : ∀ root, ∀ path ∈ entries.listing dir,
      isAsked process disk walk state root path = .ok (asked root path)) (root : Text) :
    Turns process disk state walk record root (entries.listing dir)
      (turns asked walk.includeFolders root dir entries) := by
  induction entries generalizing dir root with
  | nil =>
      refine ⟨0, ?_⟩
      intro _ _ _
      rfl
  | file name rest induction =>
      obtain ⟨⟨fixed, direct⟩, isFile, insideRest⟩ := inside
      have first := judged root (joinPaths dir name) List.mem_cons_self
      have here := turn_file records fixed direct isFile first
      have later := induction insideRest
        (fun root path member => judged root path (List.mem_cons_of_mem _ member)) root
      exact here.append later
  | folder name inner rest inductionInner inductionRest =>
      obtain ⟨⟨fixed, direct⟩, isDirectory, listedInner, insideInner, insideRest⟩ := inside
      have first := judged root (joinPaths dir name) List.mem_cons_self
      have judgedInner : ∀ root, ∀ path ∈ inner.listing (joinPaths dir name),
          isAsked process disk walk state root path = .ok (asked root path) :=
        fun root path member =>
          judged root path (List.mem_cons_of_mem _ (List.mem_append_left _ member))
      have judgedRest : ∀ root, ∀ path ∈ rest.listing dir,
          isAsked process disk walk state root path = .ok (asked root path) :=
        fun root path member =>
          judged root path (List.mem_cons_of_mem _ (List.mem_append_right _ member))
      have listed := @listFilesAndDirsInDir_eq _ process disk state walk.followlinks _ inner
        ⟨listedInner, insideInner⟩ fixed isDirectory
      -- the entries below come in the walk of the directory, and in this listing
      have walked := turn_folder records fixed direct isDirectory first listed
        (inductionInner insideInner judgedInner (joinPaths dir name))
      have again := inductionInner insideInner judgedInner root
      have later := inductionRest insideRest judgedRest root
      have whole := walked.append (again.append later)
      rw [List.append_assoc] at whole
      exact whole
  | special name rest induction =>
      obtain ⟨-, -, -, insideRest⟩ := inside
      exact induction insideRest judged root

theorem Inside.neat {dir : Text} {entries : Entries} (distinct : entries.names.Nodup)
    (valid : ∀ name ∈ entries.names, name ≠ [] ∧ '/' ∉ name)
    (inside : Inside process disk state dir entries) : entries.Neat := by
  induction entries generalizing dir with
  | nil => exact trivial
  | file name rest induction =>
      obtain ⟨-, -, insideRest⟩ := inside
      obtain ⟨first, others⟩ := List.forall_mem_cons.mp valid
      obtain ⟨absent, distinctRest⟩ := List.nodup_cons.mp distinct
      exact ⟨first, absent, induction distinctRest others insideRest⟩
  | folder name inner rest inductionInner inductionRest =>
      obtain ⟨-, -, listedInner, insideInner, insideRest⟩ := inside
      obtain ⟨first, others⟩ := List.forall_mem_cons.mp valid
      obtain ⟨absent, distinctRest⟩ := List.nodup_cons.mp distinct
      have neatInner := inductionInner (disk.names_nodup state _ _ listedInner)
        (disk.names_valid state _ _ listedInner) insideInner
      exact ⟨first, absent, neatInner, inductionRest distinctRest others insideRest⟩
  | special name rest induction =>
      obtain ⟨-, -, -, insideRest⟩ := inside
      obtain ⟨first, others⟩ := List.forall_mem_cons.mp valid
      obtain ⟨absent, distinctRest⟩ := List.nodup_cons.mp distinct
      exact ⟨first, absent, induction distinctRest others insideRest⟩

theorem Holds.neat {dir : Text} {entries : Entries}
    (holds : Holds process disk state dir entries) : entries.Neat :=
  Inside.neat (disk.names_nodup state dir _ holds.listed)
    (disk.names_valid state dir _ holds.listed) holds.inside

/-- With any depth, what is asked of a path does not depend on the directory that is walked. -/
theorem isAsked_root (anyDepth : walk.depths = []) (root other path : Text) :
    isAsked process disk walk state root path = isAsked process disk walk state other path := by
  rw [isAsked, isAsked, checkDepth, checkDepth, if_pos anyDepth, if_pos anyDepth]

end

/-- A walk with its default arguments of a directory without links below it, where the
callback leaves the file system as it is, and what is asked of the paths raises nothing. -/
structure Trip {S A : Type} (process : FSPaths.Process) (disk : Disk S) (walk : Walk S A) where
  state : S
  root : Text
  entries : Entries
  record : A → Text → A
  asked : Text → Bool
  isRoot : isDir process disk state root false = .ok true
  fixed : Fixed process disk (abspath process root)
  directory : disk.isdir state (abspath process root) = true
  holds : Holds process disk state (abspath process root) entries
  anyDepth : walk.depths = []
  records : Records walk record
  judged : ∀ path ∈ entries.listing (abspath process root),
    isAsked process disk walk state (abspath process root) path = .ok (asked path)

/-- The callback appends the path to a list, for all paths. -/
def collecting : Walk Unit (List Text) where
  callback path state := .ok true (state.1, state.2 ++ [path])
  includeFolders := false
  pathRegexIncludes := [".*".toList]
  pathRegexExcludes := []
  contentRegexIncludes := []
  contentRegexExcludes := []
  depths := []
  followlinks := true
  finds _ _ := .ok true
  readFile _ _ := .error (.runtime "Permission denied")

/-- The walk of `/d`, whose directory `sub` has a file. -/
def nestedTrip : Trip FSPaths.atRoot nestedDisk collecting where
  state := ()
  root := "/d".toList
  entries := .folder "sub".toList (.file "B.TXT".toList .nil) .nil
  record arg path := arg ++ [path]
  asked _ := true
  isRoot := by rfl
  fixed := ⟨by rfl, ⟨by decide, by rfl⟩, by decide⟩
  directory := by decide
  holds := by
    refine ⟨by rfl, ⟨⟨by rfl, ⟨by decide, by rfl⟩, by decide⟩, rfl⟩, by decide, by rfl, ?_, trivial⟩
    exact ⟨⟨⟨by rfl, ⟨by decide, by rfl⟩, by decide⟩, rfl⟩, by decide, trivial⟩
  anyDepth := rfl
  records _ _ _ := rfl
  judged := by
    intro path member
    rcases List.mem_cons.mp member with sub | inner
    · rw [sub]
      rfl
    · rw [List.mem_singleton.mp inner]
      rfl

theorem recorded_concat (paths arg : List Text) :
    recorded (fun arg path => arg ++ [path]) paths arg = arg ++ paths := by
  induction paths generalizing arg with
  | nil => exact (List.append_nil arg).symm
  | cons path paths induction =>
      have later := induction (arg ++ [path])
      rw [List.append_assoc] at later
      exact later

end JumpscaleX.FSWalker
