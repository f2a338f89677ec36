import JumpscaleX.ProfileLists

/-!
# Profiles along sequences of operations

What a profile holds, what each operation keeps of it, and the reading of a file that was
saved.
-/

namespace JumpscaleX.Profiles

open Fallible Stateful Runs

variable {host : Host} {kinds : Kinds}

/-! ## What a profile holds -/

/-- The line of a variable is that of its entries. -/
structure Holds (line' : Option Text) (entries : List Text) : Prop where
  line : ∃ separator, line' = some (line separator entries)
  clean : ∀ entry ∈ entries, Clean entry
  once : entries.Nodup
  some : entries ≠ []

structure Inv (kinds : Kinds) (world : World) : Prop where
  none : ∀ key, kinds.listed key = true → world.lists key = none →
    world.profile.env.get key = none
  holds : ∀ key entries, kinds.listed key = true → world.lists key = some entries →
    Holds (world.profile.env.get key) entries
  values : ∀ key, kinds.listed key = false → world.profile.env.get key = world.values key

theorem inv_unloaded (file : Option Text) : Inv kinds (unloaded file) where
  none _ _ _ := rfl
  holds _ _ _ impossible := nomatch impossible
  values _ _ := rfl

/-- A profile that holds its lists represents them. -/
theorem represents_of_inv {world : World} (inv : Inv kinds world) : Represents kinds world := by
  have parts : ∀ key, kinds.listed key = true →
      envGetParts world.profile key = (world.lists key).getD [] := by
    intro key isListed
    cases entered : world.lists key with
    | none =>
        rw [envGetParts, inv.none key isListed entered]
        rfl
    | some entries =>
        have holds := inv.holds key entries isListed entered
        obtain ⟨separator, held⟩ := holds.line
        rw [envGetParts_line held holds.clean holds.some]
        rfl
  constructor
  case parts => exact parts
  case once =>
    intro key entries isListed entered
    exact (inv.holds key entries isListed entered).once
  case exist =>
    intro key value isListed
    rw [envExistsPart, decide_eq_true_iff, parts key isListed]
  case values => exact inv.values

/-- What is held depends on the variables of the profile only. -/
theorem Inv.of_env {world after : World} (inv : Inv kinds world)
    (env : ∀ key, after.profile.env.get key = world.profile.env.get key)
    (lists : after.lists = world.lists) (values : after.values = world.values) :
    Inv kinds after where
  none key isListed entered := by
    rw [env]
    rw [lists] at entered
    exact inv.none key isListed entered
  holds key entries isListed entered := by
    rw [env]
    rw [lists] at entered
    exact inv.holds key entries isListed entered
  values key notListed := by
    rw [env, values]
    exact inv.values key notListed

/-! ## Setting and saving -/

section

variable {profile : Profile} {key value : Text} {atEnd quote : Bool} {separator : Separator}
  {entries : List Text} {saves : EStateM Exn Profile Unit}

/-- The profile with another line for a variable. -/
def Profile.withLine (profile : Profile) (key line : Text) : Profile :=
  { profile with env := profile.env.put key line }

@[simp] theorem get_withLine (other line : Text) :
    (profile.withLine key line).env.get other =
      if other = key then some line else profile.env.get other :=
  Dict.get_put

/-- The entries of a variable, which may be none. -/
def Listing (line : Option Text) (entries : List Text) : Prop :=
  line = none ∧ entries = [] ∨ Holds line entries

theorem Listing.entered (listing : Listing (profile.env.get key) entries)
    (takes : Takes profile key value quote separator) :
    Holds (some (line separator (enter (partOf value) atEnd entries)))
      (enter (partOf value) atEnd entries) where
  line := ⟨separator, rfl⟩
  clean := by
    apply clean_enter _ takes.clean
    rcases listing with ⟨-, rfl⟩ | holds
    · exact List.forall_mem_nil _
    · exact holds.clean
  once := by
    apply nodup_enter
    rcases listing with ⟨-, rfl⟩ | holds
    · exact List.nodup_nil
    · exact holds.once
  some := enter_ne_nil _ _ _

/-- A part that a list takes is put there, and the rest is left to the saving. -/
theorem envSetPart_takes (listing : Listing (profile.env.get key) entries)
    (takes : Takes profile key value quote separator) :
    envSetPart saves key value atEnd quote separator profile =
      saves (profile.withLine key (line separator (enter (partOf value) atEnd entries))) := by
  rw [envSetPart, takes.text, if_neg Bool.false_ne_true]
  rcases listing with ⟨absent, rfl⟩ | holds
  · have first : line separator (enter (partOf value) atEnd []) = partOf value := by
      cases atEnd <;> simp [line, enter]
    simp only [get_seq, absent, first]
    rfl
  · obtain ⟨current, held⟩ := holds.line
    have same := line_eq_of_absent holds.clean (takes.alone _ held)
    have unquoted : quote = true → ' ' ∉ partOf value := by
      intro isQuote blank
      rw [takes.unquoted isQuote blank] at held
      cases held
    have put := @putPart_line separator entries _ quote atEnd holds.clean holds.once holds.some
      takes.clean unquoted
    rw [← same] at put
    simp only [get_seq, held, put]
    rfl

/-- The directories that a save adds are clean. -/
theorem systemPaths_clean : systemPaths.all (fun path =>
    !(isNone (pathClean path)) &&
      decide (bare (partOf (pathClean path)) = partOf (pathClean path)) &&
      !(partOf (pathClean path)).isEmpty && !((partOf (pathClean path)).contains ':') &&
        !((partOf (pathClean path)).contains ';') && !((partOf (pathClean path)).contains ' ')) =
    true := by
  decide

theorem clean_of_system {path : Text} (member : path ∈ systemPaths) :
    isNone (pathClean path) = false ∧ Clean (partOf (pathClean path)) ∧
      ' ' ∉ partOf (pathClean path) := by
  have checked := List.all_eq_true.mp systemPaths_clean path member
  simp only [Bool.and_eq_true, Bool.not_eq_true', decide_eq_true_eq, List.isEmpty_eq_false_iff]
    at checked
  obtain ⟨⟨⟨⟨⟨text, same⟩, some⟩, colon⟩, semicolon⟩, blank⟩ := checked
  refine ⟨text, ⟨same, some, ?_, ?_⟩, ?_⟩
  · simpa using colon
  · simpa using semicolon
  · simpa using blank

/-- Two profiles with the same variables, but for one. -/
def SameBut (key : Text) (profile other : Profile) : Prop :=
  ∀ name, name ≠ key → other.env.get name = profile.env.get name

/-- A system directory that is there is put at the end of a path with colons. -/
theorem pathAdd_system {path : Text} (member : path ∈ systemPaths)
    (holds : Holds (profile.env.get "PATH".toList) entries)
    (colons : profile.env.get "PATH".toList = some (line .colon entries))
    (present : host.pathExists path = true) :
    pathAdd host (return ()) path true true profile =
      .ok () (profile.withLine "PATH".toList
        (line .colon (enter (partOf (pathClean path)) true entries))) := by
  obtain ⟨text, clean, noBlank⟩ := clean_of_system member
  have takes : Takes profile "PATH".toList (pathClean path) true .colon := by
    refine ⟨text, clean, fun _ blank => absurd blank noBlank, ?_⟩
    intro held isHeld
    rw [colons] at isHeld
    cases isHeld
    rw [mem_line_iff holds.clean]
    rintro ⟨impossible, -⟩
    cases impossible
  rw [pathAdd, if_neg (by simp [present])]
  exact envSetPart_takes (.inr holds) takes

theorem pathAdd_absent {path : Text} {checkExists : Bool} (checks : checkExists = true)
    (absent : host.pathExists path = false) :
    pathAdd host saves path atEnd checkExists profile = .ok () profile := by
  rw [pathAdd, if_pos ⟨checks, absent⟩]
  rfl

/-- The system directories are put at the end of a path with colons, one after another. -/
theorem forM_pathAdd {paths : List Text} (members : ∀ path ∈ paths, path ∈ systemPaths)
    (holds : Holds (profile.env.get "PATH".toList) entries)
    (colons : profile.env.get "PATH".toList = some (line .colon entries)) :
    ∃ after, forM paths (fun path => pathAdd host (return ()) path true true) profile =
        .ok PUnit.unit after ∧
      after.env.get "PATH".toList = some (line .colon
        (((paths.filter host.pathExists).map (fun path => partOf (pathClean path))).foldl
          (fun entries entry => enter entry true entries) entries)) ∧
      SameBut "PATH".toList profile after := by
  induction paths generalizing profile entries with
  | nil => exact ⟨profile, rfl, colons, fun _ _ => rfl⟩
  | cons path paths induction =>
      obtain ⟨member, others⟩ := List.forall_mem_cons.mp members
      rw [List.forM_cons]
      cases present : host.pathExists path with
      | false =>
          obtain ⟨after, done, path', same⟩ := induction others holds colons
          refine ⟨after, ?_, ?_, same⟩
          · rw [seq_of_ok (pathAdd_absent rfl present)]
            exact done
          · rw [List.filter_cons_of_neg (by simp [present])]
            exact path'
      | true =>
          have added := pathAdd_system member holds colons present
          obtain ⟨-, clean, -⟩ := clean_of_system member
          have line' : (profile.withLine "PATH".toList
              (line .colon (enter (partOf (pathClean path)) true entries))).env.get
                "PATH".toList =
              some (line .colon (enter (partOf (pathClean path)) true entries)) := by
            rw [get_withLine, if_pos rfl]
          have between : Holds ((profile.withLine "PATH".toList
              (line .colon (enter (partOf (pathClean path)) true entries))).env.get
                "PATH".toList) (enter (partOf (pathClean path)) true entries) :=
            ⟨⟨.colon, line'⟩, clean_enter holds.clean clean true,
              nodup_enter holds.once true, enter_ne_nil _ _ _⟩
          obtain ⟨after, done, path', same⟩ := induction others between line'
          refine ⟨after, ?_, ?_, ?_⟩
          · rw [seq_of_ok added]
            exact done
          · rw [List.filter_cons_of_pos present, List.map_cons, List.foldl_cons]
            exact path'
          · intro name differ
            rw [same name differ, get_withLine, if_neg differ]

/-- A path with semicolons takes no system directory. -/
theorem forM_pathAdd_semicolon {paths : List Text}
    (members : ∀ path ∈ paths, path ∈ systemPaths)
    (holds : Holds (profile.env.get "PATH".toList) entries) {current : Text}
    (held : profile.env.get "PATH".toList = some current) (semicolon : ';' ∈ current) :
    final (forM paths (fun path => pathAdd host (return ()) path true true)) profile =
      profile := by
  induction paths with
  | nil => rfl
  | cons path paths induction =>
      obtain ⟨member, others⟩ := List.forall_mem_cons.mp members
      rw [List.forM_cons]
      cases present : host.pathExists path with
      | false =>
          rw [final_seq_of_ok (pathAdd_absent rfl present)]
          exact induction others
      | true =>
          obtain ⟨text, -, -⟩ := clean_of_system member
          obtain ⟨separator, isLine⟩ := holds.line
          have refused : pathAdd host (return ()) path true true profile =
              .error (.input (.other "cannot have 2 separators")) profile := by
            have put : putPart .colon current (partOf (pathClean path)) true true =
                .error (.input (.other "cannot have 2 separators")) := by
              rw [isLine] at held
              cases held
              rw [putPart, bare_line holds.clean]
              exact if_pos semicolon
            rw [pathAdd, if_neg (by simp [present]), envSetPart, text,
              if_neg Bool.false_ne_true]
            simp only [get_seq, held, put]
            rfl
          exact final_seq_of_error refused

theorem env_fileWrite : (final (fileWrite host) profile).env = profile.env := by
  rw [fileWrite]
  split
  case isTrue => rfl
  case isFalse => rfl

/-- A save keeps the variables when the path is settled. -/
theorem env_save (listing : Listing (profile.env.get "PATH".toList) entries)
    (settled : profile.env.get "PATH".toList ≠ none → (systemEntries host).foldl
      (fun entries entry => enter entry true entries) entries = entries) (key : Text) :
    (final (save host) profile).env.get key = profile.env.get key := by
  rw [save, final_get_seq]
  rcases listing with ⟨absent, -⟩ | holds
  · rw [runIf_of_not (not_not.mpr absent)]
    have written := @env_fileWrite host profile
    exact congrArg (fun env => Dict.get env key) written
  · obtain ⟨separator, isLine⟩ := holds.line
    have present : profile.env.get "PATH".toList ≠ none := by
      rw [isLine]
      exact Option.some_ne_none _
    rw [runIf, if_pos present]
    have members : ∀ path ∈ systemPaths, path ∈ systemPaths := fun _ member => member
    by_cases semicolon : ';' ∈ line separator entries
    case pos =>
      have unchanged := @forM_pathAdd_semicolon host profile entries systemPaths members holds _
        isLine semicolon
      apply @final_seq Exn Profile PUnit Unit _ _ profile
        (fun after => after.env.get key = profile.env.get key)
      · intro problem reached failed
        rw [final_of_error failed] at unchanged
        rw [unchanged]
      · intro value between done
        rw [final_of_ok done] at unchanged
        rw [unchanged, env_fileWrite]
    case neg =>
      have same := @line_eq_of_absent .colon entries separator holds.clean semicolon
      have colons : profile.env.get "PATH".toList = some (line .colon entries) := by
        rw [isLine, same]
      obtain ⟨after, done, path, others⟩ := @forM_pathAdd host profile entries systemPaths
        members holds colons
      have last := settled present
      rw [final_seq_of_ok done, env_fileWrite]
      by_cases isPath : key = "PATH".toList
      · rw [systemEntries] at last
        rw [isPath, path, last, colons]
      · exact others key isPath

end

/-! ## One operation -/

section

variable {world : World} {key value : Text} {atEnd quote isSaved : Bool}
  {separator : Separator}

theorem Inv.listing (inv : Inv kinds world) (isListed : kinds.listed key = true) :
    Listing (world.profile.env.get key) ((world.lists key).getD []) := by
  cases entered : world.lists key with
  | none => exact .inl ⟨inv.none key isListed entered, rfl⟩
  | some entries => exact .inr (inv.holds key entries isListed entered)

/-- What is done at the end of an operation keeps what is held. -/
theorem inv_saving (inv : Inv kinds world)
    (settled : isSaved = true → Settled host world.lists) :
    Inv kinds { world with profile := final (saving host isSaved) world.profile } := by
  refine inv.of_env ?_ rfl rfl
  intro key
  cases isSaved with
  | false => rfl
  | true =>
      apply env_save (inv.listing kinds.path)
      intro present
      cases entered : world.lists "PATH".toList with
      | none => exact absurd (inv.none _ kinds.path entered) present
      | some entries => exact settled rfl entries entered

/-- A line of entries in the place of another one. -/
theorem inv_withLine {entries : List Text} {text : Text} (inv : Inv kinds world)
    (isListed : kinds.listed key = true) (holds : Holds (some text) entries) :
    Inv kinds { world with
      profile := world.profile.withLine key text
      lists := Function.update world.lists key (some entries) } := by
  obtain ⟨profile, lists, values, isLoaded⟩ := world
  constructor
  case none =>
    intro other otherListed entered
    dsimp only at entered ⊢
    by_cases same : other = key
    · rw [same, Function.update_self] at entered
      cases entered
    · rw [Function.update_of_ne same] at entered
      rw [get_withLine, if_neg same]
      exact inv.none other otherListed entered
  case holds =>
    intro other others otherListed entered
    dsimp only at entered ⊢
    by_cases same : other = key
    · rw [same, Function.update_self] at entered
      cases entered
      rw [get_withLine, if_pos same]
      exact holds
    · rw [Function.update_of_ne same] at entered
      rw [get_withLine, if_neg same]
      exact inv.holds other others otherListed entered
  case values =>
    intro other notListed
    dsimp only
    have differ : other ≠ key := by
      rintro rfl
      rw [isListed] at notListed
      cases notListed
    rw [get_withLine, if_neg differ]
    exact inv.values other notListed

theorem inv_envSetPart (inv : Inv kinds world) (isListed : kinds.listed key = true)
    (takes : Takes world.profile key value quote separator)
    (settled : isSaved = true → Settled host (added world key (partOf value) atEnd)) :
    Inv kinds { world with
      profile := final (envSetPart (saving host isSaved) key value atEnd quote separator)
        world.profile
      lists := added world key (partOf value) atEnd } := by
  have listing := inv.listing isListed
  have holds := @Listing.entered _ key value atEnd quote separator _ listing takes
  have put := inv_saving (inv_withLine inv isListed holds) settled
  have done : final (envSetPart (saving host isSaved) key value atEnd quote separator)
      world.profile =
        final (saving host isSaved) (world.profile.withLine key
          (line separator (enter (partOf value) atEnd ((world.lists key).getD [])))) := by
    rw [final, envSetPart_takes listing takes, ← final]
  rw [done]
  exact put

theorem removed_of_absent {entry : Text} (absent : entry ∉ (world.lists key).getD []) :
    removed world key entry = world.lists := by
  rw [removed]
  apply Function.update_eq_self_iff.mpr
  cases entered : world.lists key with
  | none => rfl
  | some entries =>
      rw [entered, Option.getD_some] at absent
      rw [Option.map_some, List.erase_of_not_mem absent]

theorem inv_envDeletePart (inv : Inv kinds world) (isListed : kinds.listed key = true)
    (drops : Drops host world key value) :
    Inv kinds { world with
      profile := final (envDeletePart host key value) world.profile
      lists := removed world key (partOf value) } := by
  cases entered : world.lists key with
  | none =>
      have absent : partOf value ∉ (world.lists key).getD [] := by
        rw [entered]
        exact List.not_mem_nil
      have unchanged : final (envDeletePart host key value) world.profile = world.profile := by
        apply @final_of_ok Exn Profile Unit _ _ _ ()
        rw [envDeletePart, drops.text, if_neg Bool.false_ne_true]
        simp only [get_seq, inv.none key isListed entered]
        rfl
      rw [unchanged, removed_of_absent absent]
      exact inv
  | some entries =>
      have holds := inv.holds key entries isListed entered
      obtain ⟨current, isLine⟩ := holds.line
      have present := drops.present
      rw [entered, Option.getD_some] at present
      have items : ∀ items,
          (PyText.splitChars ':' (bare (line current entries))).map bare = items →
          envDeletePart host key value world.profile =
            (if partOf value ∈ items then
              saving host true (world.profile.withLine key
                (stripChar ':' ([':'].intercalate (items.erase (partOf value)))))
            else .ok () world.profile) := by
        intro items parted
        rw [envDeletePart, drops.text, if_neg Bool.false_ne_true]
        simp only [get_seq, isLine, parted]
        split
        case isTrue => rfl
        case isFalse => rfl
      have unchanged : partOf value ∉ entries →
          envDeletePart host key value world.profile = .ok () world.profile →
            Inv kinds { world with
              profile := final (envDeletePart host key value) world.profile
              lists := removed world key (partOf value) } := by
        intro absent done
        rw [final_of_ok done, removed_of_absent (by rwa [entered])]
        exact inv
      by_cases semicolon : ';' ∈ line current entries
      case pos =>
        have kept := (drops.colons _ isLine).resolve_left (not_not.mpr semicolon)
        have absent : partOf value ∉ entries := by
          intro member
          exact (present member).2.1 _ isLine semicolon
        have isSemicolon : Separator.semicolon = current :=
          ((mem_line_iff holds.clean .semicolon).mp semicolon).1
        have noColon : ':' ∉ line current entries := by
          intro colon
          have isColon : Separator.colon = current :=
            ((mem_line_iff holds.clean .colon).mp colon).1
          rw [← isSemicolon] at isColon
          cases isColon
        apply unchanged absent
        rw [items [line current entries]]
        · rw [if_neg]
          rw [List.mem_singleton]
          intro same
          rw [same] at kept
          exact kept semicolon
        · rw [bare_line holds.clean, VFS.splitChars_of_not_mem noColon, List.map_singleton,
            bare_line holds.clean]
      case neg =>
        have same := @line_eq_of_absent .colon entries current holds.clean semicolon
        have parted : (PyText.splitChars ':' (bare (line current entries))).map bare =
            entries := by
          have colons : PyText.splitChars ':' (line .colon entries) = entries :=
            @split_line .colon _ holds.clean holds.some
          rw [bare_line holds.clean, same, colons, map_bare holds.clean]
        by_cases member : partOf value ∈ entries
        case neg =>
          apply unchanged member
          rw [items entries parted, if_neg member]
        case pos =>
          obtain ⟨many, -, settled⟩ := present member
          have cleanErased : ∀ entry ∈ entries.erase (partOf value), Clean entry := by
            intro entry inside
            exact holds.clean entry (List.mem_of_mem_erase inside)
          have someErased : entries.erase (partOf value) ≠ [] := by
            intro empty
            have length := List.length_erase_of_mem member
            rw [empty, List.length_nil] at length
            omega
          have joined : stripChar ':' ([':'].intercalate (entries.erase (partOf value))) =
              line .colon (entries.erase (partOf value)) :=
            @stripChar_line .colon _ cleanErased
          have lists : removed world key (partOf value) =
              Function.update world.lists key (some (entries.erase (partOf value))) := by
            rw [removed, entered, Option.map_some]
          have erased : Holds (some (line .colon (entries.erase (partOf value))))
              (entries.erase (partOf value)) :=
            ⟨⟨.colon, rfl⟩, cleanErased, holds.once.erase _, someErased⟩
          have put := inv_withLine inv isListed erased
          rw [← lists] at put
          have saved := @inv_saving host kinds _ true put (fun _ => settled)
          have done : final (envDeletePart host key value) world.profile =
              final (saving host true) (world.profile.withLine key
                (line .colon (entries.erase (partOf value)))) := by
            rw [final, items entries parted, if_pos member, joined, ← final]
          rw [done]
          exact saved

theorem inv_envSet (inv : Inv kinds world) (notListed : kinds.listed key = false)
    (settled : isSaved = true → Settled host world.lists) :
    Inv kinds { world with
      profile := final (envSet (saving host isSaved) key value quote) world.profile
      values := Function.update world.values key
        (some (if quote then quoted value else value)) } := by
  have put : Inv kinds { world with
      profile := world.profile.withLine key (if quote then quoted value else value)
      values := Function.update world.values key
        (some (if quote then quoted value else value)) } := by
    obtain ⟨profile, lists, values, isLoaded⟩ := world
    have differ : ∀ other, kinds.listed other = true → other ≠ key := by
      rintro other isListed rfl
      rw [isListed] at notListed
      cases notListed
    constructor
    case none =>
      intro other isListed entered
      dsimp only at entered ⊢
      rw [get_withLine, if_neg (differ other isListed)]
      exact inv.none other isListed entered
    case holds =>
      intro other entries isListed entered
      dsimp only at entered ⊢
      rw [get_withLine, if_neg (differ other isListed)]
      exact inv.holds other entries isListed entered
    case values =>
      intro other otherNot
      dsimp only
      rw [get_withLine]
      by_cases same : other = key
      · rw [if_pos same, same, Function.update_self]
      · rw [if_neg same, Function.update_of_ne same]
        exact inv.values other otherNot
  exact inv_saving put settled

end

/-! ## Reloading -/

section

variable {env : Dict Text Text} {paths : List Text} {content : Text}

theorem lineVar_eq_none {word text : Text} (absent : '=' ∉ text) : lineVar word text = none := by
  induction text generalizing word with
  | nil => rfl
  | cons char text induction =>
      rw [List.mem_cons, not_or] at absent
      rw [lineVar]
      split
      case isTrue => exact induction absent.2
      case isFalse =>
        rw [if_neg (fun isSign => absent.1 isSign.1.symm)]
        exact induction absent.2

theorem lineVar_word {word name value : Text} (chars : ∀ char ∈ name, isWord char = true)
    (some : word ++ name ≠ []) :
    lineVar word (name ++ '=' :: value) = .some (word ++ name, value) := by
  induction name generalizing word with
  | nil =>
      have isSign : isWord '=' = false := by decide
      rw [List.append_nil] at some ⊢
      rw [List.nil_append, lineVar, isSign, if_neg Bool.false_ne_true, if_pos ⟨rfl, some⟩]
  | cons char name induction =>
      obtain ⟨first, others⟩ := List.forall_mem_cons.mp chars
      rw [List.cons_append, lineVar, if_pos first, induction others (by simp)]
      simp

/-- A line of a saved profile is read back. -/
theorem lineVar_export {name value : Text} (chars : ∀ char ∈ name, isWord char = true)
    (some : name ≠ []) :
    lineVar [] ("export ".toList ++ name ++ '=' :: value) = .some (name, value) := by
  have read := @lineVar_word [] name value chars some
  rw [List.nil_append] at read
  rw [← read, List.append_assoc]
  rfl

/-- The variables that a shell leaves are those of the file, within quotes. -/
theorem get_loadedEnv (content name : Text) :
    (loadedEnv host content).get name =
      if (envVarsFind content).get name ≠ none then
        ((envVarsFind (host.printenv content)).get name).map quoted
      else none := by
  have general := Dict.get_foldl_put_if (fun name => (envVarsFind content).get name ≠ none)
    quoted (envVarsFind (host.printenv content)) Dict.empty name
  rw [Dict.get_empty, Option.or_none] at general
  exact general

theorem split_written {lines : List Text} (clean : ∀ line ∈ lines, '\n' ∉ line) :
    PyText.splitChars '\n' (written lines) = lines ++ [[]] := by
  induction lines with
  | nil => rfl
  | cons line lines induction =>
      obtain ⟨first, others⟩ := List.forall_mem_cons.mp clean
      have shape : written (line :: lines) = line ++ '\n' :: written lines := by
        simp [written]
      rw [shape, VFS.splitChars_append _ first, induction others, List.cons_append]

theorem Quoted.no_break {value : Text} (isQuoted : Quoted value) : '\n' ∉ value := by
  obtain ⟨inner, rfl, apart⟩ := isQuoted
  intro member
  rcases List.mem_cons.mp member with impossible | behind
  · cases impossible
  · rcases List.mem_append.mp behind with inside | last
    · exact apart _ inside (by simp)
    · simp at last

theorem Plain.no_break (plain : Plain env paths) :
    ∀ line ∈ profileLines env paths, '\n' ∉ line := by
  intro line member
  rw [profileLines, List.mem_append, List.mem_append, List.mem_append] at member
  rcases member with ((header | isVar) | includes) | isPath
  · rw [List.mem_singleton.mp header]
    decide
  · obtain ⟨var, inEnv, rfl⟩ := List.mem_map.mp isVar
    have held := Dict.get_eq_some_iff.mpr inEnv
    have key : var.1 ∈ env.keys := List.mem_map_of_mem inEnv
    have word : '\n' ∉ var.1 := by
      intro inside
      have isChar := (plain.names var.1 key).2 _ inside
      revert isChar
      decide
    have value := (plain.values var.1 var.2 held).no_break
    have front : '\n' ∉ "export ".toList := by decide
    simp [word, value] at front ⊢
  · rw [List.mem_singleton.mp includes]
    decide
  · obtain ⟨path, inPaths, rfl⟩ := List.mem_map.mp isPath
    have absent := (plain.paths path inPaths).1
    have front : '\n' ∉ "source ".toList := by decide
    rw [List.mem_append, not_or]
    exact ⟨front, absent⟩

/-- The lines of a saved profile have the variables of the profile. -/
theorem filterMap_lineVar (plain : Plain env paths) :
    (profileLines env paths).filterMap (lineVar []) = env.entries := by
  have headers : lineVar [] "# environment variables".toList = none := lineVar_eq_none (by decide)
  have includes : lineVar [] "# includes".toList = none := lineVar_eq_none (by decide)
  have sources : (paths.map (fun path => "source ".toList ++ path)).filterMap (lineVar []) =
      [] := by
    apply List.filterMap_eq_nil_iff.mpr
    intro line member
    obtain ⟨path, isPath, rfl⟩ := List.mem_map.mp member
    apply lineVar_eq_none
    have front : '=' ∉ "source ".toList := by decide
    rw [List.mem_append, not_or]
    exact ⟨front, (plain.paths path isPath).2⟩
  have exports : (env.entries.map (fun var => "export ".toList ++ var.1 ++ '=' :: var.2)).filterMap
      (lineVar []) = env.entries := by
    rw [List.filterMap_map]
    calc
      env.entries.filterMap (lineVar [] ∘ fun var => "export ".toList ++ var.1 ++ '=' :: var.2) =
          env.entries.filterMap some := by
        apply List.filterMap_congr
        intro var member
        have names := plain.names var.1 (List.mem_map_of_mem member)
        exact lineVar_export names.2 names.1
      _ = env.entries := List.filterMap_some
  rw [profileLines, List.filterMap_append, List.filterMap_append, List.filterMap_append, exports,
    sources]
  simp only [List.filterMap_cons, List.filterMap_nil, headers, includes, List.append_nil,
    List.nil_append]

/-- The variables that are found in a saved profile are those of the profile. -/
theorem get_envVarsFind_written (plain : Plain env paths) (name : Text) :
    (envVarsFind (written (profileLines env paths))).get name = env.get name := by
  rw [envVarsFind, split_written plain.no_break, List.dropLast_concat, filterMap_lineVar plain]
  exact Dict.get_foldl_put env name

/-- A saved profile is loaded as it is, when its values are within quotes. -/
theorem get_loadedEnv_written (plain : Plain env paths)
    (stable : ∀ key value, env.get key = some value → quoted (stripChar '"' value) = value)
    (key : Text) :
    (loadedEnv host (written (profileLines env paths))).get key = env.get key := by
  rw [get_loadedEnv, get_envVarsFind_written plain]
  cases held : env.get key with
  | none => rfl
  | some value =>
      rw [if_pos (Option.some_ne_none value), host.evaluates env paths plain key value held,
        Option.map_some, stable key value held]

end

/-! ## Every sequence of operations -/

/-- The variables of a profile that was just loaded. -/
theorem env_load (profile : Profile) :
    (final (load host) profile).env = loadedVars host profile.file := by
  obtain ⟨env, includes, file⟩ := profile
  cases file with
  | none => rfl
  | some content => rfl

theorem inv_reload {world : World} (inv : Inv kinds world)
    (sound : Sound host world (.reload : Action kinds)) :
    Inv kinds (step host world (.reload : Action kinds)) := by
  have env := @env_load host world.profile
  have loaded : (step host world (.reload : Action kinds)).profile.env =
      loadedVars host world.profile.file := env
  cases isLoaded : world.isLoaded with
  | false =>
      rw [Sound, isLoaded, if_neg Bool.false_ne_true] at sound
      have lists : (step host world (.reload : Action kinds)).lists = fun key =>
          ((loadedVars host world.profile.file).get key).map
            (fun value => entriesOf (stripChar '"' value)) := by
        show listsAfter host world (.reload : Action kinds) = _
        rw [listsAfter, isLoaded, if_neg Bool.false_ne_true]
      have values : (step host world (.reload : Action kinds)).values =
          (loadedVars host world.profile.file).get := by
        show valuesAfter host world (.reload : Action kinds) = _
        rw [valuesAfter, isLoaded, if_neg Bool.false_ne_true]
      constructor
      case none =>
        intro key isListed _
        rw [loaded, sound key isListed]
      case holds =>
        intro key entries isListed entered
        rw [lists] at entered
        dsimp only at entered
        rw [sound key isListed] at entered
        cases entered
      case values =>
        intro key _
        rw [loaded, values]
  | true =>
      rw [Sound, isLoaded, if_pos rfl] at sound
      obtain ⟨saved, plain, stable⟩ := sound
      apply inv.of_env
      · intro key
        rw [loaded, saved, loadedVars, Profile.text]
        exact get_loadedEnv_written plain (fun key value held => (stable key value held).2) key
      · show listsAfter host world (.reload : Action kinds) = _
        rw [listsAfter, isLoaded, if_pos rfl]
      · show valuesAfter host world (.reload : Action kinds) = _
        rw [valuesAfter, isLoaded, if_pos rfl]

theorem inv_pathAdd {world : World} {path : Text} {atEnd checkExists isSaved : Bool}
    (inv : Inv kinds world)
    (sound : Sound host world (.pathAdd path atEnd checkExists isSaved : Action kinds)) :
    Inv kinds { world with
      profile := final (pathAdd host (saving host isSaved) path atEnd checkExists) world.profile
      lists :=
        listsAfter host world (.pathAdd path atEnd checkExists isSaved : Action kinds) } := by
  rw [listsAfter]
  by_cases absent : checkExists = true ∧ host.pathExists path = false
  case pos =>
    rw [if_pos absent, final_of_ok (pathAdd_absent absent.1 absent.2)]
    exact inv
  case neg =>
    obtain ⟨takes, settled⟩ := sound.resolve_left absent
    have entered : pathAdd host (saving host isSaved) path atEnd checkExists =
        envSetPart (saving host isSaved) "PATH".toList (pathClean path) atEnd true .colon := by
      rw [pathAdd, if_neg absent]
    rw [if_neg absent, entered]
    exact inv_envSetPart inv kinds.path takes settled

theorem inv_pathDelete {world : World} {path : Text} (inv : Inv kinds world)
    (sound : Sound host world (.pathDelete path : Action kinds)) :
    Inv kinds { world with
      profile := final (pathDelete host path) world.profile
      lists := listsAfter host world (.pathDelete path : Action kinds) } := by
  rw [listsAfter, pathDelete]
  exact inv_envDeletePart inv kinds.path sound

theorem Inv.later {world : World} (inv : Inv kinds world) (isLoaded : Bool) :
    Inv kinds { world with isLoaded := isLoaded } where
  none := inv.none
  holds := inv.holds
  values := inv.values

theorem inv_step {world : World} {action : Action kinds} (inv : Inv kinds world)
    (sound : Sound host world action) : Inv kinds (step host world action) := by
  cases action with
  | pathAdd path atEnd checkExists isSaved => exact (inv_pathAdd inv sound).later true
  | pathDelete path =>
      have kept := (@inv_pathDelete host kinds world path inv sound).later true
      dsimp only at kept
      exact kept
  | envSetPart key value atEnd quote isSaved separator isListed =>
      exact (inv_envSetPart inv isListed sound.1 sound.2).later true
  | envDeletePart key value isListed => exact (inv_envDeletePart inv isListed sound).later true
  | envSet key value quote isSaved notListed => exact (inv_envSet inv notListed sound).later true
  | reload => exact inv_reload inv sound

/-- From the loading of a file on, lists keep their entries once and the other variables their
values, along every sequence of operations that meet the condition. -/
theorem entries_kept (host : Host) (kinds : Kinds) (file : Option Text)
    (actions : List (Action kinds))
    (sound : Along (Sound host) (step host) (unloaded file) (.reload :: actions)) :
    Along (AsClaimed host) (step host) (unloaded file) (.reload :: actions) := by
  apply along_imp_of_invariant (Inv kinds) (inv_unloaded file) _ _ sound
  · intro world action inv isSound
    exact represents_of_inv (inv_step inv isSound)
  · intro world action inv isSound
    exact inv_step inv isSound

/-! ## A host -/

/-- What `printenv` prints of the variables of a file. -/
def printed (content : Text) : Text :=
  written ((envVarsFind content).entries.map (fun var => var.1 ++ '=' :: stripChar '"' var.2))

theorem get_printed {env : Dict Text Text} {paths : List Text} (plain : Plain env paths)
    {name value : Text} (held : env.get name = some value) :
    (envVarsFind (printed (written (profileLines env paths)))).get name =
      some (stripChar '"' value) := by
  have vars : ∀ var ∈ (envVarsFind (written (profileLines env paths))).entries,
      env.get var.1 = some var.2 := by
    intro var member
    rw [← get_envVarsFind_written plain]
    exact Dict.get_eq_some_iff.mpr member
  have names : ∀ var ∈ (envVarsFind (written (profileLines env paths))).entries,
      var.1 ≠ [] ∧ ∀ char ∈ var.1, isWord char = true := by
    intro var member
    apply plain.names
    rw [Dict.mem_keys_iff, vars var member]
    exact Option.some_ne_none _
  have clean : ∀ line ∈ (envVarsFind (written (profileLines env paths))).entries.map
      (fun var => var.1 ++ '=' :: stripChar '"' var.2), '\n' ∉ line := by
    intro line member
    obtain ⟨var, inVars, rfl⟩ := List.mem_map.mp member
    have value := (plain.values var.1 var.2 (vars var inVars)).no_break
    have word : '\n' ∉ var.1 := by
      intro inside
      have isChar := (names var inVars).2 _ inside
      revert isChar
      decide
    have inner : '\n' ∉ stripChar '"' var.2 := fun inside => value (strip_sublist.subset inside)
    simp [word, inner]
  have read : ((envVarsFind (written (profileLines env paths))).entries.map
      (fun var => var.1 ++ '=' :: stripChar '"' var.2)).filterMap (lineVar []) =
        (envVarsFind (written (profileLines env paths))).entries.map
          (fun var => (var.1, stripChar '"' var.2)) := by
    rw [List.filterMap_map, ← List.filterMap_eq_map]
    apply List.filterMap_congr
    intro var member
    have word := names var member
    exact lineVar_word word.2 (by simpa using word.1)
  have general := Dict.get_foldl_put_if (fun _ => True) (stripChar '"')
    (envVarsFind (written (profileLines env paths))) Dict.empty name
  rw [get_envVarsFind_written plain, held] at general
  rw [printed, envVarsFind, split_written clean, List.dropLast_concat, read, List.foldl_map]
  simpa using general

/-- A host without the system directories. -/
def plainHost : Host where
  pathExists _ := false
  executorExists _ := true
  printenv := printed
  isBase := false
  evaluates _ _ plain _ _ held := get_printed plain held

/-- The path is the only list. -/
def pathOnly : Kinds where
  listed key := decide (key = "PATH".toList)
  path := by decide

/-- A directory is added to the path of an empty profile. -/
theorem path_kept : Along (AsClaimed plainHost) (step plainHost) (unloaded none)
    [(.reload : Action pathOnly), .pathAdd "/opt/bin".toList false false true] := by
  apply entries_kept plainHost pathOnly none
  have clean : Clean (partOf (pathClean "/opt/bin".toList)) :=
    ⟨by decide, by decide, by decide, by decide⟩
  refine ⟨?_, .inr ⟨⟨by decide, clean, ?_, ?_⟩, ?_⟩, trivial⟩
  · intro key _
    rfl
  · intro _ _
    rfl
  · intro line held
    cases held
  · intro _ entries _
    rfl

/-- The first and the last entry of a path that is loaded keep a quote. -/
theorem loaded_path_is_quoted :
    ¬ Along (AsClaimed plainHost) (step plainHost)
      (unloaded (some "export PATH=/bin:/sbin\n".toList)) [(.reload : Action pathOnly)] := by
  rintro ⟨represents, -⟩
  have parts := represents.parts "PATH".toList (by decide)
  revert parts
  decide

end JumpscaleX.Profiles
