import JumpscaleX.ListingWays

/-!
# Runs of a listing

A listing whose visited entries are plain comes to an end, and finds what is below the places
that it visits.
-/

namespace JumpscaleX.FSDisk

open Fallible Stateful Relation
open FSPaths (Normalised joinPaths)
open Profiles (Text)

variable {S : Type} {process : FSPaths.Process} {disk : Disk S}

/-! ## Names in paths -/

/-- The path of a directory with the slash behind which its names stand. -/
def dirSlash (dir : Text) : Text :=
  if dir = [] ∨ dir.getLast? = some '/' then dir else dir ++ ['/']

/-- The path is that of an entry, or one below it. -/
def Part (dir name found : Text) : Prop :=
  ∃ tail, found = joinPaths dir name ++ tail ∧ (tail = [] ∨ tail.head? = some '/')

section

variable {dir name other found : Text}

theorem joinPaths_eq (plain : '/' ∉ name) : joinPaths dir name = dirSlash dir ++ name := by
  have relative : name.head? ≠ some '/' := fun first => plain (List.mem_of_mem_head? first)
  rw [joinPaths, if_neg relative, dirSlash]
  split
  · rfl
  · rw [List.append_assoc]
    rfl

theorem getLast?_joinPaths (plain : '/' ∉ name) (some : name ≠ []) :
    (joinPaths dir name).getLast? ≠ .some '/' := by
  intro last
  rw [joinPaths_eq plain, List.getLast?_append_of_ne_nil _ some] at last
  exact plain (List.mem_of_getLast? last)

/-- The text in front of the first slash. -/
theorem takeWhile_slash {text rest : Text} (absent : '/' ∉ text)
    (ends : rest = [] ∨ rest.head? = some '/') :
    (text ++ rest).takeWhile (· ≠ '/') = text := by
  have all : ∀ char ∈ text, (decide (char ≠ '/')) = true := by
    intro char member
    apply decide_eq_true
    intro slash
    exact absent (by rwa [← slash])
  rw [List.takeWhile_append_of_pos all]
  rcases ends with empty | slash
  · rw [empty, List.takeWhile_nil, List.append_nil]
  · obtain ⟨after, split⟩ := List.head?_eq_some_iff.mp slash
    rw [split, List.takeWhile_cons_of_neg (by simp), List.append_nil]

/-- Names without a slash are read off a path. -/
theorem Part.name_eq (plain : '/' ∉ name) (plainOther : '/' ∉ other) (part : Part dir name found)
    (partOther : Part dir other found) : name = other := by
  obtain ⟨tail, whole, ends⟩ := part
  obtain ⟨tailOther, wholeOther, endsOther⟩ := partOther
  rw [joinPaths_eq plain, List.append_assoc] at whole
  rw [joinPaths_eq plainOther, List.append_assoc, whole] at wholeOther
  have same : name ++ tail = other ++ tailOther := List.append_cancel_left wholeOther
  rw [← takeWhile_slash plain ends, same, takeWhile_slash plainOther endsOther]

theorem dirSlash_reverse (dir : Text) :
    (dirSlash dir).reverse = [] ∨ (dirSlash dir).reverse.head? = some '/' := by
  rw [dirSlash]
  split
  · rename_i kept
    rcases kept with empty | last
    · exact .inl (by rw [empty, List.reverse_nil])
    · exact .inr (by rw [List.head?_reverse, last])
  · exact .inr (by simp)

/-- The name of an entry, and the directory with its slash, are read off the path. -/
theorem joinPaths_inj {dir another name other : Text} (plain : '/' ∉ name)
    (plainOther : '/' ∉ other) (same : joinPaths dir name = joinPaths another other) :
    dirSlash dir = dirSlash another ∧ name = other := by
  rw [joinPaths_eq plain, joinPaths_eq plainOther] at same
  have backward := congrArg List.reverse same
  rw [List.reverse_append, List.reverse_append] at backward
  have absent : '/' ∉ name.reverse := by rwa [List.mem_reverse]
  have absentOther : '/' ∉ other.reverse := by rwa [List.mem_reverse]
  have names : name.reverse = other.reverse := by
    rw [← takeWhile_slash absent (dirSlash_reverse dir), backward,
      takeWhile_slash absentOther (dirSlash_reverse another)]
  have sameName : name = other := List.reverse_injective names
  rw [sameName] at same
  exact ⟨List.append_cancel_right same, sameName⟩

/-- What is below an entry of a directory is below the directory. -/
theorem Part.outer (plain : '/' ∉ name) (some : name ≠ []) (plainOther : '/' ∉ other)
    (part : Part (joinPaths dir name) other found) :
    Part dir name found ∧ found ≠ joinPaths dir name := by
  obtain ⟨tail, whole, _⟩ := part
  have notEmpty : joinPaths dir name ≠ [] := by
    rw [joinPaths_eq plain]
    simp [some]
  rw [joinPaths_eq plainOther, dirSlash,
    if_neg (not_or.mpr ⟨notEmpty, getLast?_joinPaths plain some⟩), List.append_assoc,
    List.append_assoc] at whole
  refine ⟨⟨_, whole, .inr rfl⟩, ?_⟩
  intro same
  have lengths := congrArg List.length (same.symm.trans whole)
  simp at lengths

end

/-! ## The loop -/

/-- A loop whose turns add pieces adds them all. -/
theorem foldlM_pieces {state : S} {body : Nat → List Text → Text → EStateM Exn S (List Text)}
    {pieces : Text → List Text} {names : List Text}
    (adds : ∀ name ∈ names, ∃ limit, ∀ calls, limit ≤ calls → ∀ filesreturn,
      body calls filesreturn name state = .ok (filesreturn ++ pieces name) state) :
    ∃ limit, ∀ calls, limit ≤ calls → ∀ filesreturn,
      names.foldlM (body calls) filesreturn state =
        .ok (filesreturn ++ names.flatMap pieces) state := by
  induction names with
  | nil =>
      refine ⟨0, ?_⟩
      intro calls _ filesreturn
      simp [Pure.pure, EStateM.pure]
  | cons name names induction =>
      obtain ⟨first, others⟩ := List.forall_mem_cons.mp adds
      obtain ⟨limit, one⟩ := first
      obtain ⟨limits, rest⟩ := induction others
      refine ⟨max limit limits, ?_⟩
      intro calls enough filesreturn
      have here := one calls (le_trans (le_max_left _ _) enough) filesreturn
      have later := rest calls (le_trans (le_max_right _ _) enough) (filesreturn ++ pieces name)
      rw [List.foldlM_cons, seq_of_ok here, later, List.flatMap_cons, List.append_assoc]

section

variable {options : Options} {caseSensitivity : Text} {depth : Option Int} {state : S}

/-- No entry of the visited places is a link. -/
def Straight (disk : Disk S) (options : Options) (caseSensitivity : Text) (depth : Option Int)
    (state : S) (place : Place) : Prop :=
  ∀ other, ReflTransGen (Visits disk options caseSensitivity depth state) place other →
    ∀ name, Shown disk options state other.dir name →
      disk.islink state (joinPaths other.dir name) = false

/-- What a listing of a place comes to. -/
structure Lists (process : FSPaths.Process) (disk : Disk S) (options : Options) (caseSensitivity : Text)
    (depth : Option Int) (state : S) (place : Place) (result : List Text) : Prop where
  ends : ∃ limit, ∀ calls, limit ≤ calls →
    listAllInDir process disk calls options (caseAt caseSensitivity place.level)
      (depthAt depth place.level) place.dir state = .ok result state
  mem_iff : ∀ found, found ∈ result ↔ Below disk options caseSensitivity depth state place found
  straight : Straight disk options caseSensitivity depth state place → result.Nodup ∧
    ∀ found ∈ result, ∃ name, name ≠ [] ∧ '/' ∉ name ∧ Part place.dir name found

/-- What an entry of a place adds to a listing. -/
structure Piece (process : FSPaths.Process) (disk : Disk S) (options : Options) (caseSensitivity : Text)
    (depth : Option Int) (state : S) (place : Place) (name : Text) (piece : List Text) : Prop where
  adds : ∃ limit, ∀ calls, limit ≤ calls → ∀ filesreturn,
    listEntry process disk calls (listAllInDir process disk calls options "os".toList) options
      (caseAt caseSensitivity place.level) (depthAt depth place.level) place.dir filesreturn name
      state = .ok (filesreturn ++ piece) state
  mem_iff : ∀ found, found ∈ piece ↔ ∃ path, Entry disk options state place.dir name path ∧
    (found ∈ own disk options state (caseAt caseSensitivity place.level) name path ∨
      ∃ next, Visits disk options caseSensitivity depth state place next ∧ next.dir = path ∧
        Below disk options caseSensitivity depth state next found)
  straight : Straight disk options caseSensitivity depth state place →
    piece.Nodup ∧ ∀ found ∈ piece, Part place.dir name found

theorem Entry.path_unique {dir name path other : Text}
    (entry : Entry disk options state dir name path)
    (again : Entry disk options state dir name other) : path = other :=
  Option.some.inj (entry.2.symm.trans again.2)

theorem Shown.name_valid {dir name : Text} (shown : Shown disk options state dir name) :
    name ≠ [] ∧ '/' ∉ name := by
  obtain ⟨⟨names, listed, member⟩, _⟩ := shown
  exact disk.names_valid state dir names listed name member

theorem Straight.path_eq {place : Place} {name path : Text}
    (straight : Straight disk options caseSensitivity depth state place)
    (entry : Entry disk options state place.dir name path) : path = joinPaths place.dir name := by
  have noLink := straight place .refl name entry.1
  have leads := entry.2
  rw [entryPath, if_neg (by simp [noLink]), Option.some.injEq] at leads
  exact leads.symm

theorem Straight.next {place next : Place}
    (straight : Straight disk options caseSensitivity depth state place)
    (visits : Visits disk options caseSensitivity depth state place next) :
    Straight disk options caseSensitivity depth state next :=
  fun other way => straight other (ReflTransGen.head visits way)

theorem own_nodup {level name path : Text} :
    (own disk options state level name path).Nodup := by
  rw [own]
  split
  · exact List.nodup_singleton path
  · exact List.nodup_nil

theorem eq_of_mem_own {level name path found : Text}
    (member : found ∈ own disk options state level name path) : found = path := by
  rw [own] at member
  split at member
  · exact List.mem_singleton.mp member
  · simp at member

/-- An entry that adds itself only. -/
theorem Piece.of_own {place : Place} {name path : Text}
    (entry : Entry disk options state place.dir name path)
    (adds : ∃ limit, ∀ calls, limit ≤ calls → ∀ filesreturn,
      listEntry process disk calls (listAllInDir process disk calls options "os".toList) options
        (caseAt caseSensitivity place.level) (depthAt depth place.level) place.dir filesreturn name
        state = .ok (filesreturn ++
          own disk options state (caseAt caseSensitivity place.level) name path) state)
    (alone : ∀ next, Visits disk options caseSensitivity depth state place next →
      next.dir ≠ path) :
    Piece process disk options caseSensitivity depth state place name
      (own disk options state (caseAt caseSensitivity place.level) name path) := by
  refine ⟨adds, ?_, ?_⟩
  · intro found
    constructor
    · intro member
      exact ⟨path, entry, .inl member⟩
    · rintro ⟨other, again, here | ⟨next, visits, isOther, _⟩⟩
      · rwa [entry.path_unique again]
      · rw [← entry.path_unique again] at isOther
        exact absurd isOther (alone next visits)
  · intro straight
    refine ⟨own_nodup, ?_⟩
    intro found member
    refine ⟨[], ?_, .inl rfl⟩
    rw [eq_of_mem_own member, straight.path_eq entry, List.append_nil]

/-- The place of an entry is determined by the path. -/
theorem Visits.unique {place next other : Place}
    (visits : Visits disk options caseSensitivity depth state place next)
    (again : Visits disk options caseSensitivity depth state place other)
    (same : next.dir = other.dir) : next = other := by
  obtain ⟨⟨_, _, _, _⟩, _⟩ := visits
  obtain ⟨⟨_, _, _, _⟩, _⟩ := again
  simp only at same
  rw [same]

/-- An entry that is a directory which the listing goes into. -/
theorem Piece.of_below {place next : Place} {name path : Text} {result : List Text}
    (entry : Entry disk options state place.dir name path)
    (visits : Visits disk options caseSensitivity depth state place next)
    (isNext : next.dir = path)
    (lists : Lists process disk options caseSensitivity depth state next result)
    (adds : ∃ limit, ∀ calls, limit ≤ calls → ∀ filesreturn,
      listEntry process disk calls (listAllInDir process disk calls options "os".toList) options
        (caseAt caseSensitivity place.level) (depthAt depth place.level) place.dir filesreturn name
        state = .ok (filesreturn ++
          (own disk options state (caseAt caseSensitivity place.level) name path ++ result))
            state) :
    Piece process disk options caseSensitivity depth state place name
      (own disk options state (caseAt caseSensitivity place.level) name path ++ result) := by
  refine ⟨adds, ?_, ?_⟩
  · intro found
    rw [List.mem_append, lists.mem_iff]
    constructor
    · rintro (here | below)
      · exact ⟨path, entry, .inl here⟩
      · exact ⟨path, entry, .inr ⟨next, visits, isNext, below⟩⟩
    · rintro ⟨other, again, here | ⟨another, visitsToo, isOther, below⟩⟩
      · rw [← entry.path_unique again] at here
        exact .inl here
      · rw [← entry.path_unique again, ← isNext] at isOther
        rw [visitsToo.unique visits isOther] at below
        exact .inr below
  · intro straight
    have isJoined := straight.path_eq entry
    obtain ⟨someName, plainName⟩ := entry.1.name_valid
    obtain ⟨nodup, parts⟩ := lists.straight (straight.next visits)
    have inner : ∀ found ∈ result, Part place.dir name found ∧ found ≠ path := by
      intro found member
      obtain ⟨other, _, plainOther, part⟩ := parts found member
      rw [isNext, isJoined] at part
      rw [isJoined]
      exact part.outer plainName someName plainOther
    constructor
    · rw [List.nodup_append]
      refine ⟨own_nodup, nodup, ?_⟩
      intro found here other later same
      rw [eq_of_mem_own here] at same
      exact (inner other later).2 same.symm
    · intro found member
      rcases List.mem_append.mp member with here | later
      · refine ⟨[], ?_, .inl rfl⟩
        rw [eq_of_mem_own here, isJoined, List.append_nil]
      · exact (inner found later).1

/-- What a plain entry adds, when the places that are visited from it are listed. -/
theorem exists_piece {place : Place} {name : Text} (files : options.files = true)
    (some : depth ≠ .some 0) (first : 1 ≤ place.level) (passed : Passed depth place.level)
    (notBarred : place.barred = false)
    (deeper : ∀ next, Visits disk options caseSensitivity depth state place next →
      ∃ result, Lists process disk options caseSensitivity depth state next result)
    (plainPlace : PlainPlace process disk options state place)
    (shown : Shown disk options state place.dir name) :
    ∃ piece, Piece process disk options caseSensitivity depth state place name piece := by
  obtain ⟨path, entry, plain⟩ := plainPlace name shown
  have resolved := plain.resolved entry
  obtain ⟨limit, leads⟩ := plain.linkBroken_eq
  by_cases file : disk.isfile state path = true
  · refine ⟨_, Piece.of_own entry ⟨limit, ?_⟩ ?_⟩
    · intro calls enough filesreturn
      rw [listEntry_plain files plain entry (leads calls enough), if_pos file]
    · rintro next ⟨⟨_, _, directory, _⟩, _⟩ isPath
      simp only at isPath
      rw [isPath, disk.file_not_dir state path file] at directory
      exact absurd directory (by simp)
  · by_cases directory : disk.isdir state path = true
    · obtain ⟨stops, same⟩ := newdepth_depthAt some first passed
      by_cases goes : options.recursive = true ∧ Passed depth (place.level + 1) ∧
          ¬ options.exclude.any (matcher disk (caseAt caseSensitivity place.level) path) = true
      · obtain ⟨recursive, passes, allowed⟩ := goes
        have noLink : options.followSymlinks = true ∨
            disk.islink state (joinPaths place.dir name) = false := by
          by_cases follow : options.followSymlinks = true
          · exact .inl follow
          · right
            by_contra link
            have kind := (plain.link (by simpa using link)).2
            rw [if_neg follow] at kind
            exact file kind
        have direct : options.followSymlinks = true ∨ disk.islink state path = false := by
          by_cases follow : options.followSymlinks = true
          · exact .inl follow
          · have leadsTo := entry.2
            rw [entryPath, if_neg (fun both => follow both.1), Option.some.injEq] at leadsTo
            rw [← leadsTo]
            exact .inr (noLink.resolve_left follow)
        have visits : Visits disk options caseSensitivity depth state place
            { dir := path
              level := place.level + 1
              barred := place.barred ||
                options.exclude.any (matcher disk (caseAt caseSensitivity place.level) path) } := by
          refine ⟨.step recursive entry directory noLink, ?_, passes⟩
          rw [notBarred, Bool.false_or]
          exact Bool.not_eq_true _ ▸ allowed
        obtain ⟨result, lists⟩ := deeper _ visits
        obtain ⟨limits, ends⟩ := lists.ends
        refine ⟨_, Piece.of_below entry visits rfl lists ⟨max limit limits, ?_⟩⟩
        intro calls enough filesreturn
        have below := ends calls (le_trans (le_max_right _ _) enough)
        simp only at below
        rw [caseAt_succ first, ← same passes] at below
        have more : newdepth (depthAt depth place.level) ≠ .some 0 := fun zero =>
          stops.mp zero passes
        rw [listEntry_plain files plain entry (leads calls (le_trans (le_max_left _ _) enough)),
          if_neg file, if_pos directory,
          listDirectory_enters resolved directory direct recursive more allowed below,
          List.append_assoc]
      · have stays : options.recursive = false ∨ newdepth (depthAt depth place.level) = .some 0 ∨
            options.exclude.any (matcher disk (caseAt caseSensitivity place.level) path) = true := by
          rw [stops]
          by_contra none
          rw [not_or, not_or, not_not] at none
          exact goes ⟨by simpa using none.1, none.2.1, none.2.2⟩
        refine ⟨_, Piece.of_own entry ⟨limit, ?_⟩ ?_⟩
        · intro calls enough filesreturn
          rw [listEntry_plain files plain entry (leads calls enough), if_neg file,
            if_pos directory, listDirectory_stays resolved directory stays]
        · rintro next ⟨⟨recursive, _, _, _⟩, free, passes⟩ isPath
          simp only at isPath free passes
          rw [isPath, notBarred, Bool.false_or] at free
          exact goes ⟨recursive, passes, by simp [free]⟩
    · refine ⟨_, Piece.of_own entry ⟨limit, ?_⟩ ?_⟩
      · intro calls enough filesreturn
        have nothing : own disk options state (caseAt caseSensitivity place.level) name path =
            [] := by
          rw [own, if_neg]
          rintro ⟨isFile | ⟨isDirectory, _⟩, _⟩
          · exact file isFile
          · exact directory isDirectory
        rw [listEntry_plain files plain entry (leads calls enough), if_neg file,
          if_neg directory, nothing, List.append_nil]
      · rintro next ⟨⟨_, _, isDirectory, _⟩, _⟩ isPath
        simp only at isPath
        rw [isPath] at isDirectory
        exact directory isDirectory

theorem mem_listInDir {dir name : Text} {names : List Text}
    (listed : disk.listdir state dir = .ok names) :
    name ∈ names.filter (fun name =>
      options.listSymlinks || !disk.islink state (joinPaths dir name)) ↔
      Shown disk options state dir name := by
  rw [List.mem_filter, Shown, Bool.or_eq_true, Bool.not_eq_true']
  refine and_congr ?_ Iff.rfl
  constructor
  · intro member
    exact ⟨names, listed, member⟩
  · rintro ⟨others, listedToo, member⟩
    rw [listed, Except.ok.injEq] at listedToo
    rwa [listedToo]

theorem nodup_flatMap_pieces {place : Place} {names : List Text} {pieces : Text → List Text}
    (distinct : names.Nodup) (plain : ∀ name ∈ names, '/' ∉ name)
    (straight : ∀ name ∈ names, (pieces name).Nodup ∧
      ∀ found ∈ pieces name, Part place.dir name found) : (names.flatMap pieces).Nodup := by
  induction names with
  | nil => simp
  | cons name names induction =>
      obtain ⟨plainName, plainOthers⟩ := List.forall_mem_cons.mp plain
      obtain ⟨⟨nodup, parts⟩, others⟩ := List.forall_mem_cons.mp straight
      rw [List.nodup_cons] at distinct
      rw [List.flatMap_cons, List.nodup_append]
      refine ⟨nodup, induction distinct.2 plainOthers others, ?_⟩
      intro found here other later same
      obtain ⟨another, member, inside⟩ := List.mem_flatMap.mp later
      rw [← same] at inside
      have isName := (parts found here).name_eq plainName (plainOthers another member)
        ((others another member).2 found inside)
      rw [isName] at distinct
      exact distinct.1 member

/-- A listing whose visited entries are plain, and that does not go on for ever, comes to an end
with what is below the place. -/
theorem exists_lists {place : Place} (files : options.files = true) (some : depth ≠ .some 0)
    (ends : Acc (fun next here => Visits disk options caseSensitivity depth state here next) place)
    (plain : ∀ other, ReflTransGen (Visits disk options caseSensitivity depth state) place other →
      PlainPlace process disk options state other)
    (first : 1 ≤ place.level) (passed : Passed depth place.level) (notBarred : place.barred = false)
    (directory : disk.isdir state place.dir = true) :
    ∃ result, Lists process disk options caseSensitivity depth state place result := by
  induction ends with
  | intro place _ induction =>
      obtain ⟨names, listed⟩ := disk.listdir_ok state place.dir directory
      have deeper : ∀ next, Visits disk options caseSensitivity depth state place next →
          ∃ result, Lists process disk options caseSensitivity depth state next result := by
        intro next visits
        have way := visits
        obtain ⟨entered, free, passes⟩ := visits
        refine induction next way (fun other later => plain other (.head way later)) ?_ passes free ?_
        · obtain ⟨_, _, _, _⟩ := entered
          simp
        · obtain ⟨_, _, inside, _⟩ := entered
          exact inside
      have exists_ : ∀ name, ∃ piece, Shown disk options state place.dir name →
          Piece process disk options caseSensitivity depth state place name piece := by
        intro name
        by_cases shown : Shown disk options state place.dir name
        · obtain ⟨piece, isPiece⟩ := exists_piece files some first passed notBarred deeper
            (plain place .refl) shown
          exact ⟨piece, fun _ => isPiece⟩
        · exact ⟨[], fun isShown => absurd isShown shown⟩
      choose pieces isPiece using exists_
      have shown : ∀ name ∈ names.filter (fun name =>
          options.listSymlinks || !disk.islink state (joinPaths place.dir name)),
          Shown disk options state place.dir name := fun name member =>
        (mem_listInDir listed).mp member
      obtain ⟨limit, runs⟩ := foldlM_pieces
        (fun name member => (isPiece name (shown name member)).adds)
      refine ⟨(names.filter (fun name => options.listSymlinks ||
        !disk.islink state (joinPaths place.dir name))).flatMap pieces, ⟨limit + 1, ?_⟩, ?_, ?_⟩
      · intro calls enough
        obtain ⟨fewer, rfl⟩ : ∃ fewer, calls = fewer + 1 := ⟨calls - 1, by omega⟩
        have content : listInDir disk state place.dir options.listSymlinks =
            .ok (names.filter (fun name =>
              options.listSymlinks || !disk.islink state (joinPaths place.dir name))) := by
          rw [listInDir, listed]
          rfl
        rw [listAllInDir, seq_of_ok (query_of_ok state content), runs fewer (by omega) [],
          List.nil_append]
      · intro found
        rw [below_iff, List.mem_flatMap]
        constructor
        · rintro ⟨name, member, inside⟩
          obtain ⟨path, entry, adds⟩ := ((isPiece name (shown name member)).mem_iff found).mp inside
          exact ⟨name, path, entry, adds⟩
        · rintro ⟨name, path, entry, adds⟩
          exact ⟨name, (mem_listInDir listed).mpr entry.1,
            ((isPiece name entry.1).mem_iff found).mpr ⟨path, entry, adds⟩⟩
      · intro straight
        constructor
        · refine @nodup_flatMap_pieces place _ _ ?_ ?_ ?_
          · exact (disk.names_nodup state place.dir names listed).filter _
          · exact fun name member => (shown name member).name_valid.2
          · exact fun name member => (isPiece name (shown name member)).straight straight
        · intro found member
          obtain ⟨name, inNames, inside⟩ := List.mem_flatMap.mp member
          have valid := (shown name inNames).name_valid
          exact ⟨name, valid.1, valid.2,
            ((isPiece name (shown name inNames)).straight straight).2 found inside⟩

end

end JumpscaleX.FSDisk
