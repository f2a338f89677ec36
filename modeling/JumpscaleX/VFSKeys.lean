import JumpscaleX.Library.Letters
import JumpscaleX.VFSPaths

/-!
# Paths and cache keys, one for one

When a cache key is decoded to what its path names, when two paths share a key,
and when a directory finds the paths of its items again.
-/

namespace JumpscaleX.VFS

open Separated
open Letters (toLower_toLower toLower_eq_iff toLower_of_isDigit)

/-! ## Texts -/

@[simp] theorem lower_append (first second : Text) :
    lower (first ++ second) = lower first ++ lower second :=
  List.map_append

/-! ## Numbers -/

theorem str_ofNat (number : Nat) : str (Int.ofNat number) = Nat.toDigits 10 number := by
  change (toString number).toList = _
  rw [Nat.toString_eq_ofList_toDigits, String.toList_ofList]

theorem str_negSucc (number : Nat) :
    str (Int.negSucc number) = '-' :: Nat.toDigits 10 (number + 1) := by
  change ("-" ++ toString (number + 1)).toList = _
  rw [String.toList_append, Nat.toString_eq_ofList_toDigits, String.toList_ofList]
  exact congrArg (List.cons '-') String.toList_ofList

theorem isDigit_of_mem {char : Char} {number : Nat} (member : char ∈ Nat.toDigits 10 number) :
    char.isDigit = true :=
  Nat.isDigit_of_mem_toDigits (by decide) (by decide) member

/-- The characters of a number are digits and the sign. -/
theorem of_mem_str {char : Char} {number : Int} (member : char ∈ str number) :
    char = '-' ∨ char.isDigit = true := by
  cases number with
  | ofNat number =>
      rw [str_ofNat] at member
      exact .inr (isDigit_of_mem member)
  | negSucc number =>
      rw [str_negSucc, List.mem_cons] at member
      exact member.imp id isDigit_of_mem

theorem str_injective {left right : Int} (same : str left = str right) : left = right :=
  TextBytes.toString_int_injective (String.toList_inj.mp same)

theorem str_ne_nil (number : Int) : str number ≠ [] := by
  cases number with
  | ofNat number =>
      rw [str_ofNat]
      exact Nat.toDigits_ne_nil
  | negSucc number => simp [str_negSucc]

theorem underscore_not_mem_str (number : Int) : '_' ∉ str number := by
  intro member
  rcases of_mem_str member with same | digit
  · exact absurd same (by decide)
  · exact absurd digit (by decide)

theorem slash_not_mem_str (number : Int) : '/' ∉ str number := by
  intro member
  rcases of_mem_str member with same | digit
  · exact absurd same (by decide)
  · exact absurd digit (by decide)

@[simp] theorem lower_str (number : Int) : lower (str number) = str number := by
  have kept : ∀ char ∈ str number, char.toLower = char := by
    intro char member
    rcases of_mem_str member with same | digit
    · subst same
      decide
    · exact toLower_of_isDigit digit
  rw [lower, List.map_congr_left kept, List.map_id']

theorem splitChars_of_not_mem {separator : Char} {chars : List Char}
    (absent : separator ∉ chars) : PyText.splitChars separator chars = [chars] := by
  induction chars with
  | nil => rfl
  | cons char chars induction =>
      rw [List.mem_cons, not_or] at absent
      rw [PyText.splitChars, if_neg (Ne.symm absent.1), induction absent.2]

theorem splitChars_append {separator : Char} {first : List Char} (rest : List Char)
    (absent : separator ∉ first) :
    PyText.splitChars separator (first ++ separator :: rest) =
      first :: PyText.splitChars separator rest := by
  induction first with
  | nil => rw [List.nil_append, PyText.splitChars, if_pos rfl]
  | cons char chars induction =>
      rw [List.mem_cons, not_or] at absent
      rw [List.cons_append, PyText.splitChars, if_neg (Ne.symm absent.1), induction absent.2]

theorem digits_toDigits (number : Nat) :
    PyText.digits (Nat.toDigits 10 number) = some number := by
  have absent : '_' ∉ Nat.toDigits 10 number := Nat.underscore_not_in_toDigits
  have some : (Nat.toDigits 10 number).isEmpty = false := by
    simpa using Nat.toDigits_ne_nil
  have digits : (Nat.toDigits 10 number).all Char.isDigit = true :=
    List.all_eq_true.mpr (fun _ => isDigit_of_mem)
  simp only [PyText.digits, splitChars_of_not_mem absent, List.all_cons, List.all_nil, some,
    digits, Bool.not_false, Bool.and_true, if_true, List.flatten_cons, List.flatten_nil,
    List.append_nil, Nat.ofDigitChars_ten_toDigits]

theorem strip_of_forall_not {drop : Char → Bool} {chars : List Char}
    (kept : ∀ char ∈ chars, drop char = false) : StringType.strip drop chars = chars := by
  have walk : ∀ list : List Char, (∀ char ∈ list, drop char = false) →
      list.dropWhile drop = list := by
    intro list kept
    cases list with
    | nil => rfl
    | cons char list => rw [List.dropWhile_cons_of_neg (by simp [kept char])]
  rw [StringType.strip, walk chars kept, walk _ (by simpa using kept), List.reverse_reverse]

theorem isSpace_of_isDigit {char : Char} (digit : char.isDigit = true) :
    StringType.isSpace char = false := by
  simp only [Char.isDigit, Bool.and_eq_true, decide_eq_true_eq, ge_iff_le,
    UInt32.le_iff_toNat_le] at digit
  have least : 48 ≤ char.toNat := digit.1
  have most : char.toNat ≤ 57 := digit.2
  simp only [StringType.isSpace, List.mem_cons, List.not_mem_nil, or_false,
    decide_eq_false_iff_not]
  omega

/-- `int` reads a number back. -/
theorem pyInt_str (number : Int) : PyText.int (String.ofList (str number)) = .ok number := by
  have stripped : StringType.strip StringType.isSpace (str number) = str number := by
    apply strip_of_forall_not
    intro char member
    rcases of_mem_str member with same | digit
    · subst same
      decide
    · exact isSpace_of_isDigit digit
  cases number with
  | ofNat number =>
      cases digits : Nat.toDigits 10 number with
      | nil => exact (Nat.toDigits_ne_nil digits).elim
      | cons first rest =>
          have isDigit : first.isDigit = true :=
            isDigit_of_mem (show first ∈ Nat.toDigits 10 number by
              rw [digits]
              exact List.mem_cons_self)
          have minus : first ≠ '-' := by
            rintro rfl
            exact absurd isDigit (by decide)
          have plus : first ≠ '+' := by
            rintro rfl
            exact absurd isDigit (by decide)
          rw [PyText.int, String.toList_ofList, stripped, str_ofNat, digits]
          have read := digits_toDigits number
          rw [digits] at read
          simp [minus, plus, read]
  | negSucc number =>
      rw [PyText.int, String.toList_ofList, stripped, str_negSucc]
      simp only [digits_toDigits]
      rfl

theorem int_str (number : Int) (problem : String) : int (str number) problem = .ok number := by
  rw [int, pyInt_str]

/-! ## What paths can name -/

/-- A database name that a path can carry and that the file system walks to. -/
structure Walkable (name : Text) : Prop where
  some : name ≠ []
  noUnderscore : '_' ∉ name
  noSlash : '/' ∉ name
  lowered : lower name = name

/-- A url that a path can carry. -/
structure CleanUrl (url : Text) : Prop where
  some : url ≠ []
  noSlash : '/' ∉ url
  lowered : lower url = url

/-- The database that something is in. -/
def Target.name? : Target → Option Text
  | .root => none
  | .bcdb name | .info name | .data name | .nid name _ | .url name _ _ | .obj name _ _ _
  | .schemas name | .schema name _ => some name

/-- What a path names when the databases have these names. -/
def Target.Located (names : List Text) : Target → Prop
  | .root => True
  | .bcdb name | .info name | .data name | .schemas name => name ∈ names
  | .nid name _ => name ∈ names ∧ dataText ∉ names
  | .url name _ address | .obj name _ address _ =>
      name ∈ names ∧ dataText ∉ names ∧ CleanUrl address
  | .schema name address => name ∈ names ∧ CleanUrl address

theorem cleanParts_spec {names : List Text} {current reached : Text}
    {path splitted : List Text}
    (cleaned : cleanParts names current path = .ok (reached, splitted))
    (known : current ∈ names) :
    reached ∈ names ∧
      (splitted = [] ∨ splitted = [reached] ∨
        ∃ first rest, splitted = first :: rest ∧ first ∉ names ∧
          first ∈ directories_under_root ∧ ∀ part ∈ rest, part ∈ path) := by
  induction path generalizing current with
  | nil =>
      cases cleaned
      exact ⟨known, .inl rfl⟩
  | cons first rest induction =>
      have later : ∀ {other : Text}, other ∈ names →
          cleanParts names other rest = .ok (reached, splitted) →
          reached ∈ names ∧
            (splitted = [] ∨ splitted = [reached] ∨
              ∃ head tail, splitted = head :: tail ∧ head ∉ names ∧
                head ∈ directories_under_root ∧ ∀ part ∈ tail, part ∈ first :: rest) := by
        intro other member cleaned
        obtain ⟨known, shape⟩ := induction cleaned member
        refine ⟨known, shape.imp id (Or.imp id ?_)⟩
        rintro ⟨head, tail, same, unnamed, directory, within⟩
        exact ⟨head, tail, same, unnamed, directory,
          fun part member => List.mem_cons_of_mem _ (within part member)⟩
      rw [cleanParts] at cleaned
      split at cleaned
      · split at cleaned
        · cases cleaned
          exact ⟨known, .inr (.inl rfl)⟩
        · exact later known cleaned
      · split at cleaned
        · rename_i named
          split at cleaned
          · cases cleaned
          · split at cleaned
            · cases cleaned
              exact ⟨named, .inr (.inl rfl)⟩
            · exact later named cleaned
        · rename_i unnamed
          split at cleaned
          · rename_i directory
            cases cleaned
            exact ⟨known, .inr (.inr ⟨first, rest, rfl, unnamed, directory,
              fun part member => List.mem_cons_of_mem _ member⟩)⟩
          · cases cleaned

theorem cleanUrl_of_mem {path url : Text} (member : url ∈ parts '/' (lower path)) :
    CleanUrl url := by
  obtain ⟨some, noSlash⟩ := of_mem_parts member
  refine ⟨some, noSlash, ?_⟩
  have kept : ∀ char ∈ url, char.toLower = char := by
    intro char inside
    have split := (List.mem_filter.mp member).1
    obtain ⟨original, _, same⟩ := List.mem_map.mp (mem_of_mem_splitOn split inside)
    rw [← same, toLower_toLower]
  rw [lower, List.map_congr_left kept, List.map_id']

theorem getData_spec {name : Text} {rest : List Text} {target : Target}
    (found : _get_data name rest = .ok target) :
    target = .data name ∨
      (∃ nid, target = .nid name nid ∧ rest ≠ []) ∨
      (∃ nid url, target = .url name nid url ∧ url ∈ rest) ∨
      ∃ nid url id, target = .obj name nid url id ∧ url ∈ rest := by
  match rest with
  | [] =>
      cases found
      exact .inl rfl
  | first :: rest =>
      rw [_get_data, Fallible.bind_eq_ok_iff] at found
      obtain ⟨nid, _, found⟩ := found
      match rest with
      | [] =>
          cases found
          exact .inr (.inl ⟨nid, rfl, by simp⟩)
      | [url] =>
          cases found
          exact .inr (.inr (.inl ⟨nid, url, rfl, by simp⟩))
      | [url, last] =>
          obtain ⟨id, _, found⟩ := Fallible.bind_eq_ok_iff.mp found
          cases found
          exact .inr (.inr (.inr ⟨nid, url, id, rfl, by simp⟩))
      | _ :: _ :: _ :: _ => cases found

/-- What a path names lies in the database that becomes the current one. -/
theorem locate_spec {names : List Text} {current path reached : Text} {target : Target}
    (located : locate names current path = .ok (reached, target)) (known : current ∈ names) :
    reached ∈ names ∧ target.Located names ∧ ∀ name ∈ target.name?, name = reached := by
  rw [locate, Fallible.bind_eq_ok_iff] at located
  obtain ⟨⟨middle, splitted⟩, cleaned, located⟩ := located
  obtain ⟨named, shape⟩ := cleanParts_spec cleaned known
  rcases shape with empty | alone | ⟨first, rest, same, unnamed, directory, within⟩
  · subst empty
    cases located
    exact ⟨named, trivial, by simp [Target.name?]⟩
  · subst alone
    simp only at located
    split at located
    · cases located
      exact ⟨named, named, by simp [Target.name?]⟩
    · split at located
      · cases located
        exact ⟨named, named, by simp [Target.name?, _get_schemas]⟩
      · split at located
        · cases located
          exact ⟨named, named, by simp [Target.name?]⟩
        · simp only [and_self, if_true] at located
          cases located
          exact ⟨named, named, by simp [Target.name?]⟩
  · subst same
    simp only at located
    split at located
    · rename_i isData
      obtain ⟨found, read, located⟩ := Fallible.bind_eq_ok_iff.mp located
      cases located
      rw [isData] at unnamed
      rcases getData_spec read with same | ⟨nid, same, _⟩ | ⟨nid, url, same, inside⟩ |
        ⟨nid, url, id, same, inside⟩ <;> subst same
      · exact ⟨named, named, by simp [Target.name?]⟩
      · exact ⟨named, ⟨named, unnamed⟩, by simp [Target.name?]⟩
      · exact ⟨named, ⟨named, unnamed, cleanUrl_of_mem (within url inside)⟩,
          by simp [Target.name?]⟩
      · exact ⟨named, ⟨named, unnamed, cleanUrl_of_mem (within url inside)⟩,
          by simp [Target.name?]⟩
    · split at located
      · cases located
        cases rest with
        | nil => exact ⟨named, named, by simp [Target.name?, _get_schemas]⟩
        | cons url rest =>
            exact ⟨named, ⟨named, cleanUrl_of_mem (within url List.mem_cons_self)⟩,
              by simp [Target.name?, _get_schemas]⟩
      · split at located
        · cases located
          exact ⟨named, named, by simp [Target.name?]⟩
        · split at located
          · cases located
            exact ⟨named, named, by simp [Target.name?]⟩
          · cases located

/-! ## Decoding a key -/

/-- The parts of the key of a database. -/
def directoriesText : Text := "directories".toList

def underText : Text := "under".toList

/-- What a key says, and what it should say. -/
structure Meaning where
  bcdb_name : Option Text
  nid : Option Text
  url : Option Text
  obj_id : Option Text
  is_dir : Bool
  deriving DecidableEq

def Info.meaning (info : Info) : Meaning :=
  ⟨info.bcdb_name, info.nid, info.url, info.obj_id, info.is_dir⟩

def Target.meaning : Target → Meaning
  | .root => ⟨none, none, none, none, true⟩
  | .bcdb name | .data name | .schemas name => ⟨some name, none, none, none, true⟩
  | .info name => ⟨some name, none, none, none, false⟩
  | .nid name space => ⟨some name, some (str space), none, none, true⟩
  | .url name space address => ⟨some name, some (str space), some address, none, true⟩
  | .obj name space address id => ⟨some name, some (str space), some address, some (str id), false⟩
  | .schema name address => ⟨some name, none, some address, none, false⟩

/-- The key of what a path names is decoded to the same. -/
def Target.Decodes (names : List Text) (current : Text) (target : Target) : Prop :=
  (_extract_info_from_key names current target.key).map Info.meaning = some target.meaning

/-- When it is. -/
def Target.DecodesWhen (names : List Text) : Target → Prop
  | .root => rootText ∉ names
  | .bcdb name =>
      name = directoriesText ∧ underText ∉ names ∨
        name = underText ∧ directoriesText ∈ names ∧ rootText ∉ names
  | .info _ | .schema _ _ => False
  | .data name => name ≠ dataText
  | .nid name _ => name ∉ directories_under_root
  | .url name _ address | .obj name _ address _ =>
      name ∉ directories_under_root ∧ '_' ∉ address
  | .schemas _ => True

theorem lower_join (texts : List Text) :
    lower (join '_' texts) = join '_' (texts.map lower) := by
  induction texts with
  | nil => rfl
  | cons text texts induction =>
      cases texts with
      | nil => simp
      | cons next rest =>
          rw [List.map_cons, join_cons text (by simp), join_cons (lower text) (by simp),
            lower_append, ← induction]
          rfl

section Located

variable {names : List Text} {current : Text} {target : Target}

theorem lower_keyParts (walkable : ∀ name ∈ names, Walkable name)
    (located : target.Located names) : target.keyParts.map lower = target.keyParts := by
  have data : lower dataText = dataText := by decide
  have info : lower infoText = infoText := by decide
  have schemas : lower schemasText = schemasText := by decide
  cases target with
  | root => decide
  | bcdb name => exact (by decide : [rootsText].map lower = [rootsText])
  | info name => simp [Target.keyParts, (walkable name located).lowered, info]
  | data name => simp [Target.keyParts, (walkable name located).lowered, data]
  | nid name nid => simp [Target.keyParts, (walkable name located.1).lowered, data]
  | url name nid url =>
      simp [Target.keyParts, (walkable name located.1).lowered, data, located.2.2.lowered]
  | obj name nid url id =>
      simp [Target.keyParts, (walkable name located.1).lowered, data, located.2.2.lowered]
  | schemas name => exact (by decide : [schemasText].map lower = [schemasText])
  | schema name url => simp [Target.keyParts, schemas, located.2.lowered]

theorem extract_key (walkable : ∀ name ∈ names, Walkable name)
    (located : target.Located names) :
    _extract_info_from_key names current target.key =
      extractParts names current none (target.keyParts.flatMap (parts '_')) := by
  rw [_extract_info_from_key, Target.key, lower_join, lower_keyParts walkable located,
    parts_join]

theorem parts_name {name : Text} (walkable : Walkable name) : parts '_' name = [name] :=
  parts_of_not_mem walkable.some walkable.noUnderscore

theorem parts_str (number : Int) : parts '_' (str number) = [str number] :=
  parts_of_not_mem (str_ne_nil number) (underscore_not_mem_str number)

theorem directory_names {name : Text} :
    name ∈ directories_under_root ↔
      name = dataText ∨ name = schemasText ∨ name = infoText := by
  simp [directories_under_root]

/-- A key that starts with a database name goes on behind it. -/
theorem extractParts_name {name : Text} (known : name ∈ names)
    (plain : name ∉ directories_under_root) (bcdb_name : Option Text) (rest : List Text) :
    extractParts names current bcdb_name (name :: rest) =
      extractParts names current (some name) rest := by
  rw [extractParts, if_neg plain, if_pos known]

theorem extractParts_data (bcdb_name : Option Text) (rest : List Text) :
    extractParts names current bcdb_name (dataText :: rest) =
      some ⟨some (bcdb_name.getD current), dataText, rest[0]?, rest[1]?, rest[2]?,
        rest.length < 3⟩ := by
  rw [extractParts, if_pos (by decide), if_pos rfl]

theorem extractParts_other {first : Text} (directory : first ∈ directories_under_root)
    (other : first ≠ dataText) (bcdb_name : Option Text) (rest : List Text) :
    extractParts names current bcdb_name (first :: rest) =
      some ⟨some (bcdb_name.getD current), first, none, rest[1]?, none,
        rest.length < 2⟩ := by
  rw [extractParts, if_pos directory, if_neg other]

/-- A database that is called like a directory is taken for the directory: its
key has no number where the namespace stands. -/
theorem extractParts_directory (names : List Text) (current : Text) {name : Text}
    (directory : name ∈ directories_under_root)
    (number : Int) (rest : List Text) :
    ∃ info, extractParts names current none (name :: dataText :: str number :: rest) =
        some info ∧ info.nid ≠ some (str number) := by
  by_cases data : name = dataText
  · subst data
    refine ⟨_, extractParts_data none _, ?_⟩
    simp only [List.getElem?_cons_zero, ne_eq, Option.some.injEq]
    intro same
    have member : 'd' ∈ str number := by
      rw [← same]
      decide
    rcases of_mem_str member with sign | digit
    · exact absurd sign (by decide)
    · exact absurd digit (by decide)
  · exact ⟨_, extractParts_other directory data none _, by simp⟩

/-- What stands for the url in a key has no underscore. -/
theorem no_underscore_of_found {url : Text} (rest : List Text)
    (clean : ∀ text ∈ rest, '_' ∉ text)
    (found : (parts '_' url ++ rest)[0]? = some url) : '_' ∉ url := by
  have member : url ∈ parts '_' url ++ rest := List.mem_of_getElem? found
  rcases List.mem_append.mp member with own | other
  · exact (of_mem_parts own).2
  · exact clean url other

theorem decodes_data {name : Text} {nid : Int} {rest : List Text} (known : name ∈ names)
    (plain : name ∉ directories_under_root) :
    extractParts names current none (name :: dataText :: str nid :: rest) =
      some ⟨some name, dataText, some (str nid), rest[0]?, rest[1]?,
        rest.length < 2⟩ := by
  rw [extractParts_name known plain, extractParts_data]
  simp [Nat.succ_lt_succ_iff]

theorem decodes_iff (walkable : ∀ name ∈ names, Walkable name)
    (located : target.Located names) (inside : ∀ name ∈ target.name?, name = current) :
    target.Decodes names current ↔ target.DecodesWhen names := by
  rw [Target.Decodes, extract_key walkable located]
  have data : parts '_' dataText = [dataText] := by decide
  have info : parts '_' infoText = [infoText] := by decide
  have schemas : parts '_' schemasText = [schemasText] := by decide
  cases target with
  | root =>
      have root : parts '_' rootText = [rootText] := by decide
      simp only [Target.keyParts, List.flatMap_cons, List.flatMap_nil, root, List.append_nil,
        Target.DecodesWhen]
      by_cases named : rootText ∈ names
      · rw [extractParts_name named (by decide)]
        simp [extractParts, named]
      · rw [extractParts, if_neg (by decide), if_neg named]
        simp [named, Info.meaning, Target.meaning]
  | bcdb name =>
      have split : parts '_' rootsText =
          [directoriesText, underText, rootText] := by decide
      simp only [Target.keyParts, List.flatMap_cons, List.flatMap_nil, split,
        List.append_nil, Target.DecodesWhen]
      by_cases first : directoriesText ∈ names
      · rw [extractParts_name first (by decide)]
        by_cases second : underText ∈ names
        · rw [extractParts_name second (by decide)]
          by_cases third : rootText ∈ names
          · rw [extractParts_name third (by decide)]
            simp [extractParts, second, third]
          · rw [extractParts, if_neg (by decide), if_neg third]
            simp [Info.meaning, Target.meaning, first, second, third, eq_comm]
        · rw [extractParts, if_neg (by decide), if_neg second]
          have named : name ∈ names := located
          have other : name ≠ underText := fun same => second (same ▸ named)
          simp [Info.meaning, Target.meaning, second, other, eq_comm]
      · rw [extractParts, if_neg (by decide), if_neg first]
        have named : name ∈ names := located
        have other : name ≠ directoriesText := fun same => first (same ▸ named)
        simp [Info.meaning, Target.meaning, first, other]
  | info name =>
      simp only [Target.keyParts, List.flatMap_cons, List.flatMap_nil, info,
        parts_name (walkable name located), List.append_nil, List.singleton_append,
        Target.DecodesWhen, iff_false]
      by_cases directory : name ∈ directories_under_root
      · by_cases isData : name = dataText
        · rw [isData, extractParts_data]
          simp [Info.meaning, Target.meaning]
        · rw [extractParts_other directory isData]
          simp [Info.meaning, Target.meaning]
      · rw [extractParts_name located directory,
          extractParts_other (by decide) (by decide)]
        simp [Info.meaning, Target.meaning]
  | data name =>
      simp only [Target.keyParts, List.flatMap_cons, List.flatMap_nil, data,
        parts_name (walkable name located), List.append_nil, List.singleton_append,
        Target.DecodesWhen]
      have same : name = current := inside name rfl
      by_cases directory : name ∈ directories_under_root
      · by_cases isData : name = dataText
        · rw [isData, extractParts_data]
          simp [Info.meaning, Target.meaning]
        · rw [extractParts_other directory isData, ← same]
          simp [Info.meaning, Target.meaning, isData]
      · have other : name ≠ dataText := fun isData =>
          directory (directory_names.mpr (.inl isData))
        rw [extractParts_name located directory, extractParts_data]
        simp [Info.meaning, Target.meaning, other]
  | nid name nid =>
      simp only [Target.keyParts, List.flatMap_cons, List.flatMap_nil, data, parts_str,
        parts_name (walkable name located.1), List.append_nil, List.singleton_append,
        Target.DecodesWhen]
      by_cases directory : name ∈ directories_under_root
      · obtain ⟨info, found, differs⟩ := extractParts_directory names current directory nid []
        rw [found]
        simp [Info.meaning, Target.meaning, differs, directory]
      · rw [decodes_data located.1 directory]
        simp [Info.meaning, Target.meaning, directory]
  | url name nid url =>
      simp only [Target.keyParts, List.flatMap_cons, List.flatMap_nil, data, parts_str,
        parts_name (walkable name located.1), List.append_nil, List.singleton_append,
        Target.DecodesWhen]
      by_cases directory : name ∈ directories_under_root
      · obtain ⟨info, found, differs⟩ := extractParts_directory names current directory nid (parts '_' url)
        rw [found]
        simp [Info.meaning, Target.meaning, differs, directory]
      · rw [decodes_data located.1 directory]
        simp only [Info.meaning, Target.meaning, Option.map_some, Option.some.injEq,
          Meaning.mk.injEq, directory, not_false_eq_true, true_and]
        constructor
        · rintro ⟨found, _⟩
          apply no_underscore_of_found [] (by simp)
          rw [List.append_nil]
          exact found
        · intro plain
          rw [parts_of_not_mem located.2.2.some plain]
          simp
  | obj name nid url id =>
      simp only [Target.keyParts, List.flatMap_cons, List.flatMap_nil, data, parts_str,
        parts_name (walkable name located.1), List.append_nil, List.singleton_append,
        Target.DecodesWhen]
      by_cases directory : name ∈ directories_under_root
      · obtain ⟨info, found, differs⟩ := extractParts_directory names current directory nid (parts '_' url ++ [str id])
        rw [found]
        simp [Info.meaning, Target.meaning, differs, directory]
      · rw [decodes_data located.1 directory]
        simp only [Info.meaning, Target.meaning, Option.map_some, Option.some.injEq,
          Meaning.mk.injEq, directory, not_false_eq_true, true_and]
        constructor
        · rintro ⟨found, _⟩
          exact no_underscore_of_found [str id] (by simpa using underscore_not_mem_str id) found
        · intro plain
          rw [parts_of_not_mem located.2.2.some plain]
          simp
  | schemas name =>
      have same : name = current := inside name rfl
      simp only [Target.keyParts, List.flatMap_cons, List.flatMap_nil, schemas,
        List.append_nil, Target.DecodesWhen, iff_true]
      rw [extractParts_other (by decide) (by decide)]
      simp [Info.meaning, Target.meaning, same]
  | schema name url =>
      simp only [Target.keyParts, List.flatMap_cons, List.flatMap_nil, schemas,
        List.append_nil, List.singleton_append, Target.DecodesWhen, iff_false]
      rw [extractParts_other (by decide) (by decide)]
      simp only [Info.meaning, Target.meaning, Option.map_some, Option.some.injEq,
        Meaning.mk.injEq, not_and]
      intro _ _ found
      have member : url ∈ parts '_' url := List.mem_of_getElem? found
      rw [parts_of_not_mem located.2.some (of_mem_parts member).2] at found
      simp at found

/-! ## Shared keys -/

/-- A key without the database name. -/
def Target.inside : Target → Option (List Text)
  | .root | .bcdb _ | .schemas _ | .schema _ _ => none
  | .info _ => some [infoText]
  | .data _ => some [dataText]
  | .nid _ space => some [dataText, str space]
  | .url _ space address => some [dataText, str space, address]
  | .obj _ space address id => some [dataText, str space, address, str id]

/-- Two things whose keys are the same text. -/
def Target.Shares : Target → Target → Prop
  | .bcdb _, .bcdb _ => True
  | .schemas _, .schemas _ => True
  | .schema _ left, .schema _ right => left = right
  | .url left space address, .obj right space' address' id
  | .obj right space' address' id, .url left space address =>
      left = right ∧ space = space' ∧ address = join '_' [address', str id]
  | .schema _ address, other | other, .schema _ address =>
      other.name? = some schemasText ∧ ∃ texts ∈ other.inside, address = join '_' texts
  | _, _ => False

/-- Different things have different keys. -/
def Target.Apart (left right : Target) : Prop :=
  left ≠ right → left.key ≠ right.key

theorem key_eq_iff {left right : Target} :
    left.key = right.key ↔
      left.keyParts.flatMap (fun text => text.splitOn '_') =
        right.keyParts.flatMap (fun text => text.splitOn '_') := by
  have some : ∀ target : Target, target.keyParts ≠ [] := by
    intro target
    cases target <;> simp [Target.keyParts]
  rw [← splitOn_join (some left), ← splitOn_join (some right), splitOn_inj]
  rfl

/-- The pieces between the underscores of a key. -/
def Target.pieces : Target → List Text
  | .root => [rootText]
  | .bcdb _ => [directoriesText, underText, rootText]
  | .info name => [name, infoText]
  | .data name => [name, dataText]
  | .nid name space => [name, dataText, str space]
  | .url name space address => name :: dataText :: str space :: address.splitOn '_'
  | .obj name space address id =>
      name :: dataText :: str space :: (address.splitOn '_' ++ [str id])
  | .schemas _ => [schemasText]
  | .schema _ address => schemasText :: address.splitOn '_'

theorem splitOn_str (number : Int) : (str number).splitOn '_' = [str number] :=
  List.splitOn_eq_singleton (underscore_not_mem_str number)

theorem pieces_eq (walkable : ∀ name ∈ names, Walkable name)
    (located : target.Located names) :
    target.keyParts.flatMap (fun text => text.splitOn '_') = target.pieces := by
  have data : dataText.splitOn '_' = [dataText] := by decide
  have info : infoText.splitOn '_' = [infoText] := by decide
  have schemas : schemasText.splitOn '_' = [schemasText] := by decide
  have named : ∀ name ∈ names, name.splitOn '_' = [name] := fun name member =>
    List.splitOn_eq_singleton (walkable name member).noUnderscore
  cases target with
  | root => exact (by decide : [rootText].flatMap (fun text => text.splitOn '_') = [rootText])
  | bcdb name =>
      exact (by decide : [rootsText].flatMap (fun text => text.splitOn '_') =
        [directoriesText, underText, rootText])
  | info name => simp [Target.keyParts, Target.pieces, named name located, info]
  | data name => simp [Target.keyParts, Target.pieces, named name located, data]
  | nid name space =>
      simp [Target.keyParts, Target.pieces, named name located.1, data, splitOn_str]
  | url name space address =>
      simp [Target.keyParts, Target.pieces, named name located.1, data, splitOn_str]
  | obj name space address id =>
      simp [Target.keyParts, Target.pieces, named name located.1, data, splitOn_str]
  | schemas name =>
      exact (by decide : [schemasText].flatMap (fun text => text.splitOn '_') = [schemasText])
  | schema name address => simp [Target.keyParts, Target.pieces, schemas]

/-- A url is split like joined texts when it is these texts, joined. -/
theorem splitOn_eq_iff {address : Text} {texts pieces : List Text} (some : texts ≠ [])
    (split : texts.flatMap (fun text => text.splitOn '_') = pieces) :
    address.splitOn '_' = pieces ↔ address = join '_' texts := by
  rw [← split, ← splitOn_join some, splitOn_inj]

theorem str_inj {left right : Int} : str left = str right ↔ left = right :=
  ⟨str_injective, fun same => by rw [same]⟩

theorem pieces_eq_iff {left right : Target} :
    left.pieces = right.pieces ↔ left = right ∨ left.Shares right := by
  have dataInfo : dataText ≠ infoText := by decide
  have underData : underText ≠ dataText := by decide
  have underInfo : underText ≠ infoText := by decide
  have rootSchemas : rootText ≠ schemasText := by decide
  have directoriesSchemas : directoriesText ≠ schemasText := by decide
  have dataAlone : dataText.splitOn '_' = [dataText] := by decide
  have infoAlone : infoText.splitOn '_' = [infoText] := by decide
  -- what a url must be to be split like the rest of a key
  have isInfo : ∀ address : Text, address.splitOn '_' = [infoText] ↔ address = infoText := by
    intro address
    rw [splitOn_eq_iff (List.cons_ne_nil infoText []) (by simp [infoAlone]), join_singleton]
  have isData : ∀ address : Text, address.splitOn '_' = [dataText] ↔ address = dataText := by
    intro address
    rw [splitOn_eq_iff (List.cons_ne_nil dataText []) (by simp [dataAlone]), join_singleton]
  have isNid : ∀ (address : Text) (space : Int),
      address.splitOn '_' = [dataText, str space] ↔ address = join '_' [dataText, str space] :=
    fun address space => splitOn_eq_iff (by simp) (by simp [dataAlone, splitOn_str])
  have isUrl : ∀ (address other : Text) (space : Int),
      address.splitOn '_' = dataText :: str space :: other.splitOn '_' ↔
        address = join '_' [dataText, str space, other] :=
    fun address other space => splitOn_eq_iff (by simp) (by simp [dataAlone, splitOn_str])
  have isObj : ∀ (address other : Text) (space id : Int),
      address.splitOn '_' = dataText :: str space :: (other.splitOn '_' ++ [str id]) ↔
        address = join '_' [dataText, str space, other, str id] :=
    fun address other space id =>
      splitOn_eq_iff (by simp) (by simp [dataAlone, splitOn_str])
  have isLast : ∀ (address other : Text) (id : Int),
      address.splitOn '_' = other.splitOn '_' ++ [str id] ↔
        address = join '_' [other, str id] :=
    fun address other id => splitOn_eq_iff (by simp) (by simp [splitOn_str])
  cases left <;> cases right <;>
    simp [Target.pieces, Target.Shares, Target.name?, Target.inside, splitOn_inj, str_inj,
      dataInfo, dataInfo.symm, underData, underData.symm, underInfo, underInfo.symm,
      rootSchemas, rootSchemas.symm, directoriesSchemas, directoriesSchemas.symm,
      isInfo, isData, isNid, isUrl, isObj, isLast] <;>
    grind

theorem apart_iff (walkable : ∀ name ∈ names, Walkable name) {left right : Target}
    (leftLocated : left.Located names) (rightLocated : right.Located names) :
    left.Apart right ↔ left = right ∨ ¬ left.Shares right := by
  rw [Target.Apart, ne_eq, ne_eq, key_eq_iff, pieces_eq walkable leftLocated,
    pieces_eq walkable rightLocated, pieces_eq_iff]
  by_cases same : left = right
  · simp [same]
  · simp [same]

end Located

end JumpscaleX.VFS
