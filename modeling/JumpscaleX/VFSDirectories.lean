import JumpscaleX.VFSKeys

/-!
# Directories of the virtual file system

What the deletion of a directory comes to, item by item, when the key of the
directory is turned back into a path; and what holds between paths and keys.
-/

namespace JumpscaleX.VFS

open Separated

section Located

variable {names : List Text} {current : Text} {target : Target}

/-! ## The paths of items -/

/-- What an item of a directory is. -/
def Target.child : Target → Item → Option Target
  | .root, .str name => some (.bcdb name)
  | .bcdb name, .str text =>
      if text = dataText then some (.data name)
      else if text = schemasText then some (.schemas name)
      else if text = infoText then some (.info name)
      else none
  | .data name, .int number => some (.nid name number)
  | .nid name space, .str address => some (.url name space address)
  | .url name space address, .obj id => some (.obj name space address id)
  | _, _ => none

/-- Deleting a directory comes to this item of it. -/
def Target.Reaches (names : List Text) (current : Text) (directory : Target) (item : Item) :
    Prop :=
  ∃ child ∈ directory.child item, ∃ reached,
    deleteItem names current directory.key item = .ok (reached, child)

/-- When it does. -/
def Target.ReachesWhen : Target → Item → Prop
  | .nid name _, .str address => name ≠ infoText ∧ CleanUrl address
  | .url name _ address, .obj _ => name ≠ infoText ∧ '_' ∉ address
  | _, _ => False

/-- A path into the data of a database. -/
theorem locate_data {path name : Text} {rest : List Text}
    (walkable : ∀ name ∈ names, Walkable name) (known : name ∈ names)
    (free : dataText ∉ names) (split : parts '/' (lower path) = name :: dataText :: rest) :
    locate names current path = (_get_data name rest).map fun target => (name, target) := by
  have other : dataText ≠ name := fun same => free (same ▸ known)
  have inside : cleanParts names name (dataText :: rest) = .ok (name, dataText :: rest) := by
    rw [cleanParts, if_neg other, if_neg free, if_pos (by decide)]
  have cleaned : _split_clean_path names current path = .ok (name, dataText :: rest) := by
    rw [_split_clean_path, split, cleanParts]
    by_cases same : name = current
    · rw [if_pos same, if_neg (by simp), ← same, inside]
    · rw [if_neg same, if_pos known, if_neg (walkable name known).noUnderscore,
        if_neg (by simp), inside]
  rw [locate, cleaned]
  have branch : (if dataText = dataText then do
        let target ← _get_data name rest
        .ok (name, target)
      else if dataText = schemasText then .ok (name, _get_schemas name rest)
      else if dataText = infoText then .ok (name, .info name)
      else if rest = [] ∧ dataText = name then .ok (name, .bcdb name)
      else
        .error (.base
          "should not happen if _split_clean_path has done properly its job") :
        Except Exn (Text × Target)) =
      (_get_data name rest).map fun target => (name, target) := by
    rw [if_pos rfl]
    cases _get_data name rest <;> rfl
  exact branch

theorem lower_replace (text : Text) :
    lower (replace '_' '/' text) = replace '_' '/' (lower text) := by
  simp only [lower, replace, List.map_map]
  apply List.map_congr_left
  intro char _
  by_cases same : char = '_'
  · subst same
    decide
  · have kept : char.toLower ≠ '_' := by
      rw [ne_eq, Letters.toLower_eq_iff (by decide) (by decide)]
      exact same
    simp [same, kept]

theorem slash_not_mem_join {texts : List Text} (clean : ∀ text ∈ texts, '/' ∉ text) :
    '/' ∉ join '_' texts := by
  induction texts with
  | nil => simp [join]
  | cons text texts induction =>
      obtain ⟨first, rest⟩ := List.forall_mem_cons.mp clean
      cases texts with
      | nil => simpa using first
      | cons next others =>
          rw [join_cons text (by simp), List.mem_append, List.mem_cons]
          simp [first, induction rest]

/-- The parts of the path that a directory makes for an item. -/
theorem parts_itemPath (walkable : ∀ name ∈ names, Walkable name)
    (located : target.Located names) (text : Text) :
    parts '/' (lower (replace '_' '/' target.key ++ '/' :: text)) =
      target.keyParts.flatMap (parts '_') ++ parts '/' (lower text) := by
  have clean : '/' ∉ target.key := by
    apply slash_not_mem_join
    have data : '/' ∉ dataText := by decide
    have info : '/' ∉ infoText := by decide
    have schemas : '/' ∉ schemasText := by decide
    cases target with
    | root => exact (by decide : ∀ text ∈ [rootText], '/' ∉ text)
    | bcdb name => exact (by decide : ∀ text ∈ [rootsText], '/' ∉ text)
    | info name => simp [Target.keyParts, info, (walkable name located).noSlash]
    | data name => simp [Target.keyParts, data, (walkable name located).noSlash]
    | nid name space =>
        simp [Target.keyParts, data, (walkable name located.1).noSlash, slash_not_mem_str]
    | url name space address =>
        simp [Target.keyParts, data, (walkable name located.1).noSlash, slash_not_mem_str,
          located.2.2.noSlash]
    | obj name space address id =>
        simp [Target.keyParts, data, (walkable name located.1).noSlash, slash_not_mem_str,
          located.2.2.noSlash]
    | schemas name => exact (by decide : ∀ text ∈ [schemasText], '/' ∉ text)
    | schema name address => simp [Target.keyParts, schemas, located.2.noSlash]
  have lowered : lower target.key = target.key := by
    rw [Target.key, lower_join, lower_keyParts walkable located]
  have slash : lower ('/' :: text) = '/' :: lower text := rfl
  rw [lower_append, slash, parts_append_separator, lower_replace, lowered,
    parts_replace clean, Target.key, parts_join]

/-- An element that is no name and no directory ends the walk. -/
theorem cleanParts_unknown {first : Text} (known : current ∈ names) (unnamed : first ∉ names)
    (other : first ∉ directories_under_root) (rest : List Text) :
    ∃ problem, cleanParts names current (first :: rest) = .error problem := by
  have different : first ≠ current := fun same => unnamed (same ▸ known)
  exact ⟨_, by rw [cleanParts, if_neg different, if_neg unnamed, if_neg other]⟩

/-- A database name in front of a path makes its database the current one. -/
theorem cleanParts_name {first : Text} (walkable : ∀ name ∈ names, Walkable name)
    (named : first ∈ names) {rest : List Text} (more : rest ≠ []) :
    cleanParts names current (first :: rest) = cleanParts names first rest := by
  by_cases same : first = current
  · rw [cleanParts, if_pos same, if_neg more, same]
  · rw [cleanParts, if_neg same, if_pos named, if_neg (walkable first named).noUnderscore,
      if_neg more]

theorem locate_of_cleaned_error {path : Text} {problem : Exn}
    (cleaned : cleanParts names current (parts '/' (lower path)) = .error problem) :
    locate names current path = .error problem := by
  rw [locate, _split_clean_path, cleaned]
  rfl

/-- The directory of the databases is not found again under its key. -/
theorem root_not_reached (known : current ∈ names) (rest : List Text) :
    extractParts names current none [rootText] = none ∨
      ∃ problem, cleanParts names current (rootText :: rest) = .error problem := by
  by_cases named : rootText ∈ names
  · left
    rw [extractParts_name named (by decide)]
    rfl
  · right
    exact cleanParts_unknown known named (by decide) rest

/-- Neither is the directory of one database. -/
theorem bcdb_not_reached (walkable : ∀ name ∈ names, Walkable name) (known : current ∈ names)
    (rest : List Text) :
    extractParts names current none [directoriesText, underText, rootText] = none ∨
      ∃ problem, cleanParts names current
        (directoriesText :: underText :: rootText :: rest) = .error problem := by
  by_cases first : directoriesText ∈ names
  · rw [extractParts_name first (by decide), cleanParts_name walkable first (by simp)]
    by_cases second : underText ∈ names
    · rw [extractParts_name second (by decide), cleanParts_name walkable second (by simp)]
      by_cases third : rootText ∈ names
      · left
        rw [extractParts_name third (by decide)]
        rfl
      · right
        exact cleanParts_unknown second third (by decide) rest
    · right
      exact cleanParts_unknown first second (by decide) _
  · right
    exact cleanParts_unknown known first (by decide) _

/-- The key of a directory of data says that it is data, unless the database is
called like another directory. -/
theorem type_of_data_key (current : Text) {name : Text} (known : name ∈ names) (number : Int)
    (rest : List Text) :
    ∃ info, extractParts names current none (name :: dataText :: str number :: rest) =
        some info ∧ (info.type = infoText ↔ name = infoText) := by
  have other : dataText ≠ infoText := by decide
  by_cases directory : name ∈ directories_under_root
  · by_cases data : name = dataText
    · subst data
      exact ⟨_, extractParts_data none _, by simp [other]⟩
    · exact ⟨_, extractParts_other directory data none _, Iff.rfl⟩
  · have notInfo : name ≠ infoText := fun same =>
      directory (directory_names.mpr (.inr (.inr same)))
    exact ⟨_, decodes_data known directory, by simp [other, notInfo]⟩

theorem parts_lower_eq_iff {url : Text} : parts '/' (lower url) = [url] ↔ CleanUrl url := by
  constructor
  · intro alone
    have member : url ∈ parts '/' (lower url) := by
      rw [alone]
      exact List.mem_singleton_self url
    exact cleanUrl_of_mem member
  · intro clean
    rw [clean.lowered]
    exact parts_of_not_mem clean.some clean.noSlash

theorem getData_eq_url_iff {name url : Text} {nid : Int} {rest : List Text} :
    _get_data name (str nid :: rest) = .ok (.url name nid url) ↔ rest = [url] := by
  rw [_get_data, int_str]
  rcases rest with _ | ⟨other, _ | ⟨last, _ | ⟨more, rest⟩⟩⟩
  · simp [bind, Except.bind]
  · simp [bind, Except.bind]
  · simp only [bind, Except.bind]
    cases int last "fourth id element of path must be an integer" <;> simp
  · simp [bind, Except.bind]

theorem getData_eq_obj_iff {name url : Text} {nid id : Int} {rest : List Text} :
    _get_data name (str nid :: (rest ++ [str id])) = .ok (.obj name nid url id) ↔
      rest = [url] := by
  rw [_get_data, int_str]
  rcases rest with _ | ⟨other, _ | ⟨last, rest⟩⟩
  · simp [bind, Except.bind]
  · simp [bind, Except.bind, int_str]
  · simp [bind, Except.bind]

/-- The deletion of an item of a directory of data follows the path that the key
of the directory is turned into. -/
theorem deleteItem_data {directory : Target} {item : Item} {name text : Text} {nid : Int}
    {rest : List Text} (walkable : ∀ name ∈ names, Walkable name)
    (located : directory.Located names) (known : name ∈ names) (free : dataText ∉ names)
    (split : directory.keyParts.flatMap (parts '_') = name :: dataText :: str nid :: rest)
    (isItem : item = .str text ∨ ∃ id, item = .obj id ∧ text = str id) (child : Target) :
    (∃ reached, deleteItem names current directory.key item = .ok (reached, child)) ↔
      name ≠ infoText ∧
        _get_data name (str nid :: (rest ++ parts '/' (lower text))) = .ok child := by
  obtain ⟨info, found, type⟩ := type_of_data_key current known nid rest
  have read : _extract_info_from_key names current directory.key = some info := by
    rw [extract_key walkable located, split, found]
  have path : locate names current (replace '_' '/' directory.key ++ '/' :: text) =
      (_get_data name (str nid :: (rest ++ parts '/' (lower text)))).map
        fun target => (name, target) := by
    apply locate_data walkable known free
    rw [parts_itemPath walkable located, split]
    rfl
  have step : deleteItem names current directory.key item =
      if info.type = infoText then
        .error (.base "that data directory can't be deleted")
      else locate names current (replace '_' '/' directory.key ++ '/' :: text) := by
    rw [deleteItem.eq_def, read]
    rcases isItem with same | ⟨id, same, isId⟩
    · rw [same]
    · rw [same, isId]
  rw [step, path]
  by_cases isInfo : name = infoText
  · simp [type.mpr isInfo, isInfo]
  · rw [if_neg (fun same => isInfo (type.mp same))]
    cases _get_data name (str nid :: (rest ++ parts '/' (lower text))) with
    | error problem => simp [Except.map]
    | ok found => simp [Except.map, isInfo]

/-- A directory whose key is read as something else, or leads nowhere, reaches
no item. -/
theorem not_deleteItem {directory : Target} {item : Item} {text : Text}
    (walkable : ∀ name ∈ names, Walkable name) (located : directory.Located names)
    (astray : extractParts names current none (directory.keyParts.flatMap (parts '_')) = none ∨
      ∃ problem, cleanParts names current
        (directory.keyParts.flatMap (parts '_') ++ parts '/' (lower text)) = .error problem)
    (isText : item = .str text) (result : Text × Target) :
    deleteItem names current directory.key item ≠ .ok result := by
  rw [deleteItem.eq_def, extract_key walkable located, isText]
  rcases astray with lost | ⟨problem, ended⟩
  · rw [lost]
    simp
  · have missing : locate names current (replace '_' '/' directory.key ++ '/' :: text) =
        .error problem := by
      apply locate_of_cleaned_error
      rw [parts_itemPath walkable located, ended]
    cases extractParts names current none (directory.keyParts.flatMap (parts '_')) with
    | none => simp
    | some info =>
        by_cases isInfo : info.type = infoText
        · simp [isInfo]
        · simp [isInfo, missing]

theorem reaches_iff (walkable : ∀ name ∈ names, Walkable name)
    (located : target.Located names) (known : current ∈ names) (item : Item) :
    target.Reaches names current item ↔ target.ReachesWhen item := by
  have data : parts '_' dataText = [dataText] := by decide
  have fails : target.child item = none → ¬ target.ReachesWhen item →
      (target.Reaches names current item ↔ target.ReachesWhen item) := by
    intro childless never
    simp [Target.Reaches, childless, never]
  cases target with
  | root =>
      cases item with
      | str text =>
          have astray := root_not_reached known (parts '/' (lower text))
          have root : [rootText].flatMap (parts '_') = [rootText] := by decide
          have never := not_deleteItem walkable located
            (by rw [Target.keyParts, root]; exact astray) (Eq.refl (Item.str text))
          simp [Target.Reaches, Target.ReachesWhen, never]
      | obj id => exact fails rfl (fun never => never)
      | int number => exact fails rfl (fun never => never)
  | bcdb name =>
      cases item with
      | str text =>
          have astray := bcdb_not_reached walkable known (parts '/' (lower text))
          have roots : [rootsText].flatMap (parts '_') =
              [directoriesText, underText, rootText] := by decide
          have never := not_deleteItem walkable located
            (by rw [Target.keyParts, roots]; exact astray) (Eq.refl (Item.str text))
          simp [Target.Reaches, Target.ReachesWhen, never]
      | obj id => exact fails rfl (fun never => never)
      | int number => exact fails rfl (fun never => never)
  | data name =>
      cases item with
      | int number =>
          have never : ∀ result,
              deleteItem names current (Target.data name).key (.int number) ≠ .ok result := by
            intro result
            rw [deleteItem]
            cases _extract_info_from_key names current (Target.data name).key with
            | none => simp
            | some info => by_cases isInfo : info.type = infoText <;> simp [isInfo]
          simp [Target.Reaches, Target.ReachesWhen, never]
      | str text => exact fails rfl (fun never => never)
      | obj id => exact fails rfl (fun never => never)
  | nid name space =>
      cases item with
      | str address =>
          have split : (Target.nid name space).keyParts.flatMap (parts '_') =
              name :: dataText :: str space :: [] := by
            simp [Target.keyParts, parts_name (walkable name located.1), data, parts_str]
          simp only [Target.Reaches, Target.child, Option.mem_some_iff, exists_eq_left',
            Target.ReachesWhen]
          rw [deleteItem_data walkable located located.1 located.2 split (.inl rfl),
            List.nil_append, getData_eq_url_iff, parts_lower_eq_iff]
      | obj id => exact fails rfl (fun never => never)
      | int number => exact fails rfl (fun never => never)
  | url name space address =>
      cases item with
      | obj id =>
          have split : (Target.url name space address).keyParts.flatMap (parts '_') =
              name :: dataText :: str space :: parts '_' address := by
            simp [Target.keyParts, parts_name (walkable name located.1), data, parts_str]
          have last : parts '/' (lower (str id)) = [str id] := by
            rw [lower_str, parts_of_not_mem (str_ne_nil id) (slash_not_mem_str id)]
          simp only [Target.Reaches, Target.child, Option.mem_some_iff, exists_eq_left',
            Target.ReachesWhen]
          rw [deleteItem_data walkable located located.1 located.2.1 split
            (.inr ⟨id, rfl, rfl⟩), last, getData_eq_obj_iff, parts_eq_self_iff]
          simp [located.2.2.some]
      | str text => exact fails rfl (fun never => never)
      | int number => exact fails rfl (fun never => never)
  | info name => exact fails (by cases item <;> rfl) (fun never => never)
  | obj name space address id => exact fails (by cases item <;> rfl) (fun never => never)
  | schemas name => exact fails (by cases item <;> rfl) (fun never => never)
  | schema name address => exact fails (by cases item <;> rfl) (fun never => never)

end Located

/-! ## Paths and keys -/

/-- What a path names is decoded from its key, shares its key with nothing else
that a path names, and its items are reached again from it. -/
structure OneForOne (names : List Text) (current reached : Text) (target other : Target)
    (item : Item) : Prop where
  decodes : target.Decodes names reached
  apart : target.Apart other
  reaches : (target.child item).isSome → target.Reaches names current item

section Paths

variable {names : List Text} {current reached path : Text} {target : Target}
variable {otherCurrent otherReached otherPath : Text} {other : Target}

theorem one_for_one_iff (walkable : ∀ name ∈ names, Walkable name)
    (known : current ∈ names) (located : locate names current path = .ok (reached, target))
    (otherKnown : otherCurrent ∈ names)
    (otherLocated : locate names otherCurrent otherPath = .ok (otherReached, other))
    {now : Text} (nowKnown : now ∈ names) (item : Item) :
    OneForOne names now reached target other item ↔
      target.DecodesWhen names ∧ (target = other ∨ ¬ target.Shares other) ∧
        ((target.child item).isSome → target.ReachesWhen item) := by
  obtain ⟨_, within, inside⟩ := locate_spec located known
  obtain ⟨_, otherWithin, _⟩ := locate_spec otherLocated otherKnown
  have decodes := decodes_iff walkable within inside
  have apart := apart_iff walkable within otherWithin
  have reaches := reaches_iff walkable within nowKnown item
  constructor
  · intro holds
    exact ⟨decodes.mp holds.decodes, apart.mp holds.apart,
      fun isItem => reaches.mp (holds.reaches isItem)⟩
  · rintro ⟨decoded, separate, reachable⟩
    exact ⟨decodes.mpr decoded, apart.mpr separate,
      fun isItem => reaches.mpr (reachable isItem)⟩

end Paths

/-- A database of this name. -/
def testText : Text := "test".toList

theorem walkable_test : ∀ name ∈ [testText], Walkable name := by
  intro name member
  rw [List.mem_singleton.mp member]
  exact ⟨by decide, by decide, by decide, by decide⟩

theorem locate_test :
    locate [testText] testText "/test/data/1/ben.test.1".toList =
      .ok (testText, .url testText 1 "ben.test.1".toList) := by
  rfl

/-- The directory of a url without an underscore. -/
theorem one_for_one_url :
    OneForOne [testText] testText testText (.url testText 1 "ben.test.1".toList)
      (.url testText 1 "ben.test.1".toList) (.obj 7) :=
  (one_for_one_iff walkable_test (List.mem_singleton_self testText) locate_test
    (List.mem_singleton_self testText) locate_test (List.mem_singleton_self testText)
    (.obj 7)).mpr
    ⟨⟨by decide, by decide⟩, .inl rfl, fun _ => ⟨by decide, by decide⟩⟩

/-- The directory of a url with an underscore is taken for an object. -/
theorem not_one_for_one_underscore :
    ¬ ∀ (names : List Text) (current path reached : Text) (target : Target) (item : Item),
      (∀ name ∈ names, Walkable name) → current ∈ names →
        locate names current path = .ok (reached, target) →
          OneForOne names current reached target target item := by
  intro always
  have holds := always [testText] testText "/test/data/1/my_wallet".toList testText
    (.url testText 1 "my_wallet".toList) (.obj 7) walkable_test
    (List.mem_singleton_self testText) (by rfl)
  exact absurd holds.decodes (by unfold Target.Decodes; decide)

end JumpscaleX.VFS
