import Mathlib.Logic.Relation
import JumpscaleX.FSListing
import JumpscaleX.FSPathParts

/-!
# Ways through directories

Which directories a listing visits, and what one entry of a directory adds to it.
-/

namespace JumpscaleX.FSDisk

open Fallible Stateful Relation
open FSPaths (Normalised pathNormalize joinPaths)
open Profiles (Text strip)

variable {S : Type} {process : FSPaths.Process} {disk : Disk S}

/-! ## Paths that stay -/

/-- A normalised path that `text_replace` leaves as it is, and that does not end with a
slash. -/
structure Fixed (process : FSPaths.Process) (disk : Disk S) (path : Text) : Prop where
  replaced : textReplace disk path = .ok path
  normalised : Normalised process path
  last : path.getLast? ≠ some '/'

section

variable {path : Text} {state : S}

theorem Fixed.expandUser_eq (fixed : Fixed process disk path) :
    expandUser process disk path = path := by
  obtain ⟨rest, split⟩ := List.head?_eq_some_iff.mp fixed.normalised.absolute
  have absolute : ¬ ['~', '/'] <+: path := by
    rw [split, List.cons_prefix_cons]
    exact fun starts => absurd starts.1 (by decide)
  rw [expandUser, if_neg absolute]

theorem Fixed.strip_ne_nil (fixed : Fixed process disk path) : strip path ≠ [] := by
  have same : strip path = path := Profiles.strip_eq_self_iff.mpr fixed.normalised.ends
  rw [same]
  intro empty
  have absolute := fixed.normalised.absolute
  rw [empty] at absolute
  simp at absolute

/-- The decorator passes a path that stays. -/
theorem Fixed.pathCheck_eq (fixed : Fixed process disk path) (function : String)
    (validators : Validators)
    (there : (validators.existing = false ∧ validators.dir = false) ∨
      disk.exists_ state path = true)
    (directory : validators.dir = false ∨ disk.isdir state path = true) :
    pathCheck process disk function validators state path = .ok path := by
  have inner := fixed.normalised.unchanged
  have replaced := fixed.replaced
  rw [pathCheck, replaced]
  simp only [bind, Except.bind, fixed.expandUser_eq]
  rw [ensure_of (.inr there), ensure_of (.inr fixed.strip_ne_nil)]
  cases required : validators.required with
  | false =>
      cases replace : validators.replace with
      | false =>
          simp only [Bool.false_eq_true, if_false]
          rw [ensure_of (.inr directory)]
          rfl
      | true =>
          simp only [Bool.false_eq_true, if_false, if_true, replaced]
          rw [ensure_of (.inr directory)]
          rfl
  | true =>
      cases replace : validators.replace with
      | false =>
          simp only [Bool.false_eq_true, if_false, if_true, inner]
          rw [ensure_of (.inr directory)]
          rfl
      | true =>
          simp only [if_true, inner, replaced]
          rw [ensure_of (.inr directory)]
          rfl

theorem Fixed.isLink_eq (fixed : Fixed process disk path) :
    isLink process disk state path = .ok (disk.islink state path) := by
  rw [isLink, fixed.pathCheck_eq _ _ (.inl ⟨rfl, rfl⟩) (.inl rfl)]
  simp only [bind, Except.bind, if_neg fixed.last, pure, Except.pure]

theorem Fixed.isFile_eq (fixed : Fixed process disk path)
    (there : disk.exists_ state path = true) :
    isFile process disk state path true = .ok (disk.isfile state path) := by
  rw [isFile, fixed.pathCheck_eq _ _ (.inr there) (.inl rfl)]
  simp [bind, Except.bind, pure, Except.pure]

theorem Fixed.isDir_eq (fixed : Fixed process disk path) (there : disk.exists_ state path = true)
    (noLink : disk.islink state path = false ∨ disk.isdir state path = false) :
    isDir process disk state path false = .ok (disk.isdir state path) := by
  rw [isDir, fixed.pathCheck_eq _ _ (.inr there) (.inl rfl)]
  simp only [bind, Except.bind, fixed.isLink_eq]
  rcases noLink with direct | noDirectory
  · rw [direct]
    rfl
  · rw [noDirectory]
    split
    · rfl
    · rfl

end

/-! ## Entries -/

section

variable (process disk) (options : Options) (state : S)

/-- What a link points to, as a path. -/
def pointsTo (path : Text) : Option Text :=
  match disk.readlink state path with
  | .ok target => some (FSPaths.pathShorten (joinPaths (dirname path) target))
  | .error _ => none

/-- The path that is listed for an entry: a link that is followed stands for what it points
to. -/
def entryPath (dir name : Text) : Option Text :=
  if options.followSymlinks = true ∧ disk.islink state (joinPaths dir name) = true then
    pointsTo disk state (joinPaths dir name)
  else some (joinPaths dir name)

/-- A name of a directory that is shown in listings. -/
def Shown (dir name : Text) : Prop :=
  (∃ names, disk.listdir state dir = .ok names ∧ name ∈ names) ∧
    (options.listSymlinks = true ∨ disk.islink state (joinPaths dir name) = false)

/-- A shown name of a directory with the path that is listed for it. -/
def Entry (dir name path : Text) : Prop :=
  Shown disk options state dir name ∧ entryPath disk options state dir name = some path

/-- From some number of calls on, the link is not found to be broken. -/
def Leads (path : Text) : Prop :=
  ∃ limit, ∀ calls, limit ≤ calls → linkBroken process disk calls state path = .ok false

/-- An entry that the functions about paths take for what it is: a path that stays, and if it
is a link, one to a file, or one that is followed to a file or directory that is no link. -/
structure Plain (dir name path : Text) : Prop where
  fixed : Fixed process disk (joinPaths dir name)
  link : disk.islink state (joinPaths dir name) = true →
    Leads process disk state (joinPaths dir name) ∧
      if options.followSymlinks then
        readLink process disk state (joinPaths dir name) = .ok path ∧ Fixed process disk path ∧
          disk.exists_ state path = true ∧
          (disk.isdir state path = true → disk.islink state path = false)
      else disk.isfile state path = true

/-- The name is selected, and the time of the path in the window. -/
def included (caseSensitivity name path : Text) : Bool :=
  selected disk options caseSensitivity name &&
    match disk.mtime state path with
    | .ok time => inWindow options time
    | .error _ => false

/-- What an entry adds to a listing by itself. -/
def own (caseSensitivity name path : Text) : List Text :=
  if (disk.isfile state path = true ∨ (disk.isdir state path = true ∧ options.dirs = true)) ∧
      included disk options state caseSensitivity name path = true then [path]
  else []

end

section

variable {options : Options} {state : S} {dir name path caseSensitivity : Text}
  {depth : Option Int}

theorem included_iff : included disk options state caseSensitivity name path = true ↔
    selected disk options caseSensitivity name = true ∧
      ∃ time, disk.mtime state path = .ok time ∧ inWindow options time = true := by
  rw [included, Bool.and_eq_true]
  cases disk.mtime state path with
  | ok time => simp
  | error problem => simp

theorem filterInclude_eq (there : disk.exists_ state path = true) :
    filterInclude disk options caseSensitivity state name path =
      .ok (included disk options state caseSensitivity name path) := by
  obtain ⟨time, isTime⟩ := disk.mtime_ok state path there
  rw [filterInclude, included, isTime]
  split
  · simp only [bind, Except.bind, pure, Except.pure, Bool.and_comm]
  · rename_i asked
    rw [not_and_or] at asked
    rcases asked with other | noWindow
    · have unselected : selected disk options caseSensitivity name = false := by
        rw [Bool.not_eq_true] at other
        rw [selected, other, Bool.false_and]
      rw [unselected, Bool.false_and]
    · rw [not_or, not_not, not_not] at noWindow
      have always : inWindow options time = true := by
        rw [inWindow, noWindow.1, noWindow.2]
        rfl
      simp [always]

/-- What the entry is found to be: its path stays, and it exists. -/
structure Resolved (process : FSPaths.Process) (disk : Disk S) (state : S) (path : Text) : Prop where
  fixed : Fixed process disk path
  there : disk.exists_ state path = true
  direct : disk.islink state path = false ∨ disk.isdir state path = false

theorem Plain.resolved (plain : Plain process disk options state dir name path)
    (entry : Entry disk options state dir name path) : Resolved process disk state path := by
  obtain ⟨⟨⟨names, listed, member⟩, _⟩, leads⟩ := entry
  rw [entryPath] at leads
  by_cases link : disk.islink state (joinPaths dir name) = true
  · obtain ⟨_, kind⟩ := plain.link link
    by_cases follow : options.followSymlinks = true
    · rw [if_pos follow] at kind
      obtain ⟨_, fixed, there, direct⟩ := kind
      refine ⟨fixed, there, ?_⟩
      cases directory : disk.isdir state path with
      | false => exact .inr rfl
      | true => exact .inl (direct directory)
    · rw [if_neg follow] at kind
      rw [if_neg (fun both => follow both.1), Option.some.injEq] at leads
      refine ⟨by rw [← leads]; exact plain.fixed, disk.isfile_exists state path kind, ?_⟩
      exact .inr (disk.file_not_dir state path kind)
  · rw [if_neg (fun both => link both.2), Option.some.injEq] at leads
    rw [Bool.not_eq_true] at link
    rw [← leads]
    exact ⟨plain.fixed, disk.entry_exists state dir names listed name member link, .inl link⟩

theorem Plain.linkBroken_eq (plain : Plain process disk options state dir name path) :
    Leads process disk state (joinPaths dir name) := by
  by_cases link : disk.islink state (joinPaths dir name) = true
  · exact (plain.link link).1
  · refine ⟨0, ?_⟩
    intro calls _
    rw [linkBroken, if_neg link]
    rfl

/-- The path that the loop goes on with. -/
theorem Plain.follow_eq (plain : Plain process disk options state dir name path)
    (entry : Entry disk options state dir name path) :
    followLink process disk options state (joinPaths dir name) = .ok path := by
  have leads := entry.2
  rw [entryPath] at leads
  rw [followLink]
  by_cases follow : options.followSymlinks = true
  · rw [if_pos follow, plain.fixed.isLink_eq]
    simp only [bind, Except.bind]
    by_cases link : disk.islink state (joinPaths dir name) = true
    · have kind := (plain.link link).2
      rw [if_pos follow] at kind
      rw [if_pos link]
      exact kind.1
    · rw [if_neg (fun both => link both.2), Option.some.injEq] at leads
      rw [if_neg link, leads]
      rfl
  · rw [if_neg (fun both => follow both.1), Option.some.injEq] at leads
    rw [if_neg follow, leads]

theorem query_of_ok {α : Type} {read : S → Except Exn α} {value : α} (state : S)
    (done : read state = .ok value) : query read state = .ok value state :=
  query_eq_ok_iff.mpr ⟨done, rfl⟩

/-- The loop goes on with the path of an entry that is plain. -/
theorem listEntry_plain (files : options.files = true) {calls : Nat}
    {next : Option Int → Text → EStateM Exn S (List Text)} {filesreturn : List Text}
    (plain : Plain process disk options state dir name path)
    (entry : Entry disk options state dir name path)
    (leads : linkBroken process disk calls state (joinPaths dir name) = .ok false) :
    listEntry process disk calls next options caseSensitivity depth dir filesreturn name state =
      if disk.isfile state path = true then
        .ok (filesreturn ++ own disk options state caseSensitivity name path) state
      else if disk.isdir state path = true then
        listDirectory process disk calls next options caseSensitivity depth filesreturn name path
          state
      else .ok filesreturn state := by
  have resolved := plain.resolved entry
  have notBroken : isLinkAndBroken process disk calls (joinPaths dir name) state =
      .ok false state := by
    have found : query (fun state => linkBroken process disk calls state (joinPaths dir name))
        state = .ok false state := query_eq_ok_iff.mpr ⟨leads, rfl⟩
    rw [isLinkAndBroken, seq_of_ok found]
    rfl
  rw [listEntry, seq_of_ok notBroken]
  simp only [Bool.false_eq_true, if_false]
  rw [seq_of_ok (query_of_ok state (plain.follow_eq entry)),
    seq_of_ok (query_of_ok state (resolved.fixed.isFile_eq resolved.there)), files]
  by_cases file : disk.isfile state path = true
  · simp only [file, Bool.and_self, if_true]
    rw [seq_of_ok (query_of_ok state (filterInclude_eq resolved.there)), own]
    cases inList : included disk options state caseSensitivity name path with
    | false => simp [Pure.pure, EStateM.pure]
    | true => simp [Pure.pure, EStateM.pure, file]
  · rw [Bool.not_eq_true] at file
    simp only [file, Bool.and_true, Bool.false_eq_true, if_false]
    rw [seq_of_ok (query_of_ok state
      (resolved.fixed.isDir_eq resolved.there resolved.direct))]
    by_cases directory : disk.isdir state path = true
    · rw [if_pos directory, if_pos directory]
    · rw [if_neg directory, if_neg directory,
        seq_of_ok (query_of_ok state resolved.fixed.isLink_eq)]
      -- a link that is not followed leads to a file
      have noLink : (disk.islink state path && !options.followSymlinks && options.listSymlinks) =
          false := by
        cases follow : options.followSymlinks with
        | true => simp
        | false =>
            have leads := entry.2
            rw [entryPath, if_neg (by simp [follow]), Option.some.injEq] at leads
            cases link : disk.islink state path with
            | false => simp
            | true =>
                rw [← leads] at link
                have kind := (plain.link link).2
                rw [if_neg (by simp [follow])] at kind
                rw [kind] at file
                exact absurd file (by simp)
      rw [noLink]
      rfl

/-- An entry that is a directory, which adds itself. -/
theorem listDirectory_own {calls : Nat} {next : Option Int → Text → EStateM Exn S (List Text)}
    {filesreturn : List Text} (resolved : Resolved process disk state path)
    (directory : disk.isdir state path = true) :
    listDirectory process disk calls next options caseSensitivity depth filesreturn name path state =
      (if options.recursive = false then
        pure (filesreturn ++ own disk options state caseSensitivity name path)
      else if newdepth depth = some 0 then
        pure (filesreturn ++ own disk options state caseSensitivity name path)
      else if options.exclude.any (matcher disk caseSensitivity path) then
        pure (filesreturn ++ own disk options state caseSensitivity name path)
      else do
        let link ← isUnfollowed process disk calls options path
        if link then return filesreturn ++ own disk options state caseSensitivity name path
        else
          let below ← next (newdepth depth) path
          return filesreturn ++ own disk options state caseSensitivity name path ++ below :
        EStateM Exn S (List Text)) state := by
  have noFile : disk.isfile state path = false := by
    cases file : disk.isfile state path with
    | false => rfl
    | true =>
        rw [disk.file_not_dir state path file] at directory
        exact absurd directory (by simp)
  have itself : (if options.dirs then
      filterInclude disk options caseSensitivity state name path else .ok false) =
        Except.ok (options.dirs && included disk options state caseSensitivity name path) := by
    cases options.dirs with
    | false => rfl
    | true => exact filterInclude_eq resolved.there
  have piece : (if (options.dirs && included disk options state caseSensitivity name path) = true
      then filesreturn ++ [path] else filesreturn) =
        filesreturn ++ own disk options state caseSensitivity name path := by
    rw [own, noFile, directory]
    cases options.dirs with
    | false => simp
    | true =>
        cases included disk options state caseSensitivity name path with
        | false => simp
        | true => simp
  rw [listDirectory, seq_of_ok (query_of_ok state itself)]
  simp only [piece]

/-- A directory that the listing does not go into. -/
theorem listDirectory_stays {calls : Nat} {next : Option Int → Text → EStateM Exn S (List Text)}
    {filesreturn : List Text} (resolved : Resolved process disk state path)
    (directory : disk.isdir state path = true)
    (stays : options.recursive = false ∨ newdepth depth = some 0 ∨
      options.exclude.any (matcher disk caseSensitivity path) = true) :
    listDirectory process disk calls next options caseSensitivity depth filesreturn name path state =
      .ok (filesreturn ++ own disk options state caseSensitivity name path) state := by
  rw [listDirectory_own resolved directory]
  rcases stays with flat | last | barred
  · rw [if_pos flat]
    rfl
  · rw [if_pos last]
    split
    · rfl
    · rfl
  · rw [if_pos barred]
    split
    · rfl
    · split
      · rfl
      · rfl

/-- A directory that the listing goes into. -/
theorem listDirectory_enters {calls : Nat} {next : Option Int → Text → EStateM Exn S (List Text)}
    {filesreturn below : List Text} (resolved : Resolved process disk state path)
    (directory : disk.isdir state path = true)
    (direct : options.followSymlinks = true ∨ disk.islink state path = false)
    (recursive : options.recursive = true) (more : newdepth depth ≠ some 0)
    (allowed : ¬ options.exclude.any (matcher disk caseSensitivity path) = true)
    (deeper : next (newdepth depth) path state = .ok below state) :
    listDirectory process disk calls next options caseSensitivity depth filesreturn name path state =
      .ok (filesreturn ++ own disk options state caseSensitivity name path ++ below) state := by
  rw [listDirectory_own resolved directory, if_neg (by simp [recursive]), if_neg more,
    if_neg allowed]
  have noLink : isUnfollowed process disk calls options path state = .ok false state := by
    rw [isUnfollowed]
    by_cases follow : options.followSymlinks = true
    · rw [if_pos follow]
      rfl
    · have isDirect := direct.resolve_left follow
      have checked : pathCheck process disk "isLink" { required := true, replace := true } state
          path = .ok path := resolved.fixed.pathCheck_eq _ _ (.inl ⟨rfl, rfl⟩) (.inl rfl)
      rw [if_neg follow, isLinkValid, seq_of_ok (query_of_ok state checked)]
      simp only [if_neg resolved.fixed.last, get_seq, isDirect, Bool.false_eq_true, if_false]
      rfl
  rw [seq_of_ok noLink]
  simp only [Bool.false_eq_true, if_false]
  rw [seq_of_ok deeper]
  rfl

end

/-! ## Places -/

/-- A directory on the way, the level of its entries, and whether the path of one of the
directories on the way is excluded. -/
structure Place where
  dir : Text
  level : Nat
  barred : Bool

section

variable (process disk) (options : Options) (caseSensitivity : Text) (depth : Option Int) (state : S)

/-- The case sensitivity that is asked for holds at the first level only. -/
def caseAt (level : Nat) : Text :=
  if level = 1 then caseSensitivity else "os".toList

/-- The depth that is left at a level. -/
def depthAt (level : Nat) : Option Int :=
  depth.map (fun bound => bound - ((level : Int) - 1))

/-- No bound on the depth ends the listing before a level.  A negative one never does. -/
def Passed (level : Nat) : Prop :=
  ∀ bound, depth = some bound → bound < 0 ∨ (level : Int) ≤ bound

/-- The place of a directory that is an entry of another one, and is gone into. -/
inductive Enters : Place → Place → Prop where
  | step {place : Place} {name path : Text} (recursive : options.recursive = true)
      (entry : Entry disk options state place.dir name path)
      (directory : disk.isdir state path = true)
      (followed : options.followSymlinks = true ∨
        disk.islink state (joinPaths place.dir name) = false) :
      Enters place
        { dir := path
          level := place.level + 1
          barred := place.barred ||
            options.exclude.any (matcher disk (caseAt caseSensitivity place.level) path) }

/-- The listing goes on to a place that is not barred, within the depth. -/
def Visits (place next : Place) : Prop :=
  Enters disk options caseSensitivity state place next ∧ next.barred = false ∧
    Passed depth next.level

/-- Each shown entry of the place is plain. -/
def PlainPlace (place : Place) : Prop :=
  ∀ name, Shown disk options state place.dir name →
    ∃ path, Entry disk options state place.dir name path ∧
      Plain process disk options state place.dir name path

/-- What the visited places add to a listing. -/
def Below (place : Place) (found : Text) : Prop :=
  ∃ other name path, ReflTransGen (Visits disk options caseSensitivity depth state) place other ∧
    Entry disk options state other.dir name path ∧
      found ∈ own disk options state (caseAt caseSensitivity other.level) name path

end

section

variable {options : Options} {caseSensitivity : Text} {depth : Option Int} {state : S}

theorem newdepth_depthAt {level : Nat} (some : depth ≠ some 0) (first : 1 ≤ level)
    (passed : Passed depth level) :
    (newdepth (depthAt depth level) = .some 0 ↔ ¬ Passed depth (level + 1)) ∧
      (Passed depth (level + 1) → newdepth (depthAt depth level) = depthAt depth (level + 1)) := by
  cases bounded : depth with
  | none =>
      refine ⟨?_, fun _ => rfl⟩
      simp [depthAt, newdepth, Passed]
  | some bound =>
      have now := passed bound bounded
      have notZero : bound ≠ 0 := by
        intro zero
        exact some (by rw [bounded, zero])
      have later : Passed (.some bound) (level + 1) ↔ bound < 0 ∨ ((level + 1 : Nat) : Int) ≤ bound := by
        simp [Passed]
      have here : bound - ((level : Int) - 1) ≠ 0 := by omega
      rw [later]
      simp only [depthAt, Option.map_some, newdepth, if_neg here, Option.some.injEq]
      constructor
      · constructor
        · intro zero
          omega
        · intro stops
          omega
      · intro _
        omega

theorem caseAt_succ {level : Nat} (first : 1 ≤ level) :
    caseAt caseSensitivity (level + 1) = "os".toList := by
  rw [caseAt, if_neg (by omega)]

/-- What is below a place: what its own entries add, and what is below those that are
visited. -/
theorem below_iff {place : Place} {found : Text} :
    Below disk options caseSensitivity depth state place found ↔
      ∃ name path, Entry disk options state place.dir name path ∧
        (found ∈ own disk options state (caseAt caseSensitivity place.level) name path ∨
          ∃ next, Visits disk options caseSensitivity depth state place next ∧ next.dir = path ∧
            Below disk options caseSensitivity depth state next found) := by
  constructor
  · rintro ⟨other, name, path, way, entry, member⟩
    rcases ReflTransGen.cases_head way with same | ⟨next, first, later⟩
    · rw [← same] at entry member
      exact ⟨name, path, entry, .inl member⟩
    · have visits := first
      obtain ⟨⟨_, inner, _, _⟩, _⟩ := first
      exact ⟨_, _, inner, .inr ⟨_, visits, rfl, other, name, path, later, entry, member⟩⟩
  · rintro ⟨name, path, entry, here | ⟨next, visits, _, other, inner, place', later, entry', member⟩⟩
    · exact ⟨place, name, path, .refl, entry, here⟩
    · exact ⟨other, inner, place', ReflTransGen.head visits later, entry', member⟩

end

end JumpscaleX.FSDisk
