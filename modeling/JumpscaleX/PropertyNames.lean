import JumpscaleX.ConfigRounds

/-!
# Names of properties

`name_camel` of a property: the underscores of its name are left out, the first word is in
small letters, and the others are capitalised.
-/

namespace JumpscaleX.PropertyNames

open Letters
open Separated (join)

abbrev Text := List Char

/-- A character of ASCII. -/
def IsAscii (char : Char) : Prop :=
  char.toNat < 128

instance (char : Char) : Decidable (IsAscii char) :=
  inferInstanceAs (Decidable (char.toNat < 128))

/-- `str.capitalize` of a text of ASCII characters. -/
def capitalizeAscii : Text → Text
  | [] => []
  | first :: rest => first.toUpper :: rest.map Char.toLower

/-- `str.lower` and `str.capitalize`.  Besides the letters of ASCII they know only few, such as
`ß`, of which they make characters of ASCII. -/
structure Casing where
  lower : Text → Text
  capitalize : Text → Text
  toAscii : Char → Bool
  lower_ascii : ∀ text, (∀ char ∈ text, IsAscii char) → lower text = text.map Char.toLower
  capitalize_ascii : ∀ text, (∀ char ∈ text, IsAscii char) → capitalize text = capitalizeAscii text
  lower_foreign : ∀ text, ∀ char ∈ text, ¬ IsAscii char → toAscii char = false →
    ∃ cased ∈ lower text, ¬ IsAscii cased
  capitalize_foreign : ∀ text, ∀ char ∈ text, ¬ IsAscii char → toAscii char = false →
    ∃ cased ∈ capitalize text, ¬ IsAscii cased

variable (casing : Casing)

/-- One turn of the loop of `name_camel`. -/
def camelStep (out item : Text) : Text :=
  if out = [] then casing.lower item else out ++ casing.capitalize item

/-- `name_camel` -/
def nameCamel (name : Text) : Text :=
  (name.splitOn '_').foldl (camelStep casing) []

/-- A field name of Cap'n Proto: a small letter, and letters and digits behind it. -/
def ValidField (name : Text) : Prop :=
  (∃ first, name.head? = some first ∧ first.isLower = true) ∧
    ∀ char ∈ name, char.isAlphanum = true

/-! ## Words -/

/-- The letters and digits of a name, in small letters. -/
def letters (name : Text) : Text :=
  (name.filter (fun char => decide (char ≠ '_'))).map Char.toLower

/-- For each letter and digit whether it is a letter that starts another word than the first.
`started` tells that the first word has started, and `fresh` that an underscore came last. -/
def capitals (started fresh : Bool) : Text → List Bool
  | [] => []
  | char :: name =>
      if char = '_' then capitals started true name
      else (started && fresh && char.isAlpha) :: capitals true false name

/-- Two names that differ in underscores and case only, with words at the same places. -/
def Alike (left right : Text) : Prop :=
  letters left = letters right ∧ capitals false true left = capitals false true right

/-- A name of letters, digits and underscores that does not start with a digit. -/
def Wordy (name : Text) : Prop :=
  (∀ char ∈ name, char = '_' ∨ char.isAlphanum = true) ∧
    ∃ first, (name.dropWhile (· = '_')).head? = some first ∧ first.isAlpha = true

/-- The camel-cased text of the characters of a name. -/
def camel (started fresh : Bool) : Text → Text
  | [] => []
  | char :: name =>
      if char = '_' then camel started true name
      else (if started && fresh then char.toUpper else char.toLower) :: camel true false name

section

variable {started fresh : Bool} {name : Text}

theorem camel_append_word {word : Text} (plain : '_' ∉ word) (rest : Text) :
    camel true false (word ++ rest) = word.map Char.toLower ++ camel true false rest := by
  induction word with
  | nil => rfl
  | cons char word induction =>
      rw [List.mem_cons, not_or] at plain
      rw [List.cons_append, camel, if_neg (Ne.symm plain.1), induction plain.2]
      simp

theorem camel_underscore (rest : Text) : camel true false ('_' :: rest) = camel true true rest := by
  rw [camel, if_pos rfl]

/-- A word behind the first one. -/
theorem camel_later {word : Text} (plain : '_' ∉ word) (rest : Text) :
    camel true true (word ++ '_' :: rest) = capitalizeAscii word ++ camel true true rest := by
  cases word with
  | nil => rw [List.nil_append, camel, if_pos rfl]; rfl
  | cons first word =>
      rw [List.mem_cons, not_or] at plain
      rw [List.cons_append, camel, if_neg (Ne.symm plain.1), camel_append_word plain.2,
        camel_underscore]
      simp [capitalizeAscii]

theorem camel_last {word : Text} (plain : '_' ∉ word) :
    camel true true word = capitalizeAscii word := by
  cases word with
  | nil => rfl
  | cons first word =>
      rw [List.mem_cons, not_or] at plain
      have rest := camel_append_word plain.2 []
      rw [List.append_nil] at rest
      rw [camel, if_neg (Ne.symm plain.1), rest, camel, List.append_nil]
      simp [capitalizeAscii]

/-- The first word, or an empty text before it. -/
theorem camel_first {word : Text} (plain : '_' ∉ word) (rest : Text) :
    camel false true (word ++ '_' :: rest) =
      word.map Char.toLower ++ camel (!word.isEmpty) true rest := by
  cases word with
  | nil => rw [List.nil_append, camel, if_pos rfl]; rfl
  | cons first word =>
      rw [List.mem_cons, not_or] at plain
      rw [List.cons_append, camel, if_neg (Ne.symm plain.1), camel_append_word plain.2,
        camel_underscore]
      simp

theorem camel_only {word : Text} (plain : '_' ∉ word) :
    camel false true word = word.map Char.toLower := by
  cases word with
  | nil => rfl
  | cons first word =>
      rw [List.mem_cons, not_or] at plain
      have rest := camel_append_word plain.2 []
      rw [List.append_nil] at rest
      rw [camel, if_neg (Ne.symm plain.1), rest, camel, List.append_nil]
      simp

/-- The loop over the texts between underscores writes the camel-cased name. -/
theorem foldl_camelStep {items : List Text} (some : items ≠ [])
    (ascii : ∀ item ∈ items, ∀ char ∈ item, IsAscii char)
    (plain : ∀ item ∈ items, '_' ∉ item) (out : Text) :
    items.foldl (camelStep casing) out = out ++ camel (!out.isEmpty) true (join '_' items) := by
  induction items generalizing out with
  | nil => exact absurd rfl some
  | cons item items induction =>
      obtain ⟨asciiItem, asciiItems⟩ := List.forall_mem_cons.mp ascii
      obtain ⟨plainItem, plainItems⟩ := List.forall_mem_cons.mp plain
      have step : camelStep casing out item =
          out ++ (if out = [] then item.map Char.toLower else capitalizeAscii item) := by
        rw [camelStep, casing.lower_ascii item asciiItem, casing.capitalize_ascii item asciiItem]
        split
        · rename_i empty
          rw [empty, List.nil_append]
        · rfl
      rw [List.foldl_cons, step]
      by_cases last : items = []
      · rw [last, List.foldl_nil, Separated.join_singleton]
        cases out with
        | nil => exact congrArg ([] ++ ·) (camel_only plainItem).symm
        | cons first out => exact congrArg (first :: out ++ ·) (camel_last plainItem).symm
      · rw [induction last asciiItems plainItems, Separated.join_cons item last, List.append_assoc]
        cases out with
        | nil =>
            rw [if_pos rfl, List.nil_append, List.nil_append, List.isEmpty_nil, Bool.not_true,
              camel_first plainItem]
            simp
        | cons first out =>
            rw [if_neg (List.cons_ne_nil first out)]
            simp only [List.cons_append, List.isEmpty_cons, Bool.not_false]
            rw [camel_later plainItem]

theorem nameCamel_of_ascii (ascii : ∀ char ∈ name, IsAscii char) :
    nameCamel casing name = camel false true name := by
  have items : ∀ item ∈ name.splitOn '_', ∀ char ∈ item, IsAscii char := fun _ member _ inside =>
    ascii _ (Separated.mem_of_mem_splitOn member inside)
  have whole := foldl_camelStep casing (List.splitOn_ne_nil '_' name) items
    (fun _ member => Separated.not_mem_of_mem_splitOn member) []
  rw [join, List.intercalate_splitOn] at whole
  exact whole

theorem letters_cons (char : Char) (name : Text) :
    letters (char :: name) = if char = '_' then letters name else char.toLower :: letters name := by
  by_cases line : char = '_'
  · simp [letters, line]
  · simp [letters, line]

theorem map_toLower_camel : (camel started fresh name).map Char.toLower = letters name := by
  induction name generalizing started fresh with
  | nil => rfl
  | cons char name induction =>
      rw [camel, letters_cons]
      split
      · exact induction
      · rw [List.map_cons, induction]
        split
        · rw [toLower_toUpper]
        · rw [toLower_toLower]

theorem map_isUpper_camel : (camel started fresh name).map Char.isUpper = capitals started fresh name := by
  induction name generalizing started fresh with
  | nil => rfl
  | cons char name induction =>
      rw [camel, capitals]
      split
      · exact induction
      · rw [List.map_cons, induction]
        split
        · rename_i upper
          rw [isUpper_toUpper, upper, Bool.true_and]
        · rename_i lower
          rw [Bool.not_eq_true] at lower
          rw [isUpper_toLower, lower, Bool.false_and]

/-- A camel-cased text is its letters and where they are capital. -/
theorem camel_eq_zipWith : camel started fresh name =
    List.zipWith (fun letter capital => if capital then letter.toUpper else letter)
      (letters name) (capitals started fresh name) := by
  induction name generalizing started fresh with
  | nil => rfl
  | cons char name induction =>
      rw [camel, letters_cons, capitals]
      split
      · exact induction
      · rw [List.zipWith_cons_cons, induction]
        congr 1
        cases both : started && fresh with
        | false => simp
        | true =>
            by_cases alpha : char.isAlpha = true
            · simp [alpha, toUpper_toLower]
            · simp [alpha, toUpper_of_not_isAlpha alpha]

end

section

variable {started fresh : Bool} {name : Text}

theorem head?_camel : (camel false true name).head? =
    ((name.dropWhile (· = '_')).head?).map Char.toLower := by
  induction name with
  | nil => rfl
  | cons char name induction =>
      rw [camel]
      split
      · rename_i line
        rw [List.dropWhile_cons_of_pos (by simp [line])]
        exact induction
      · rename_i letter
        rw [List.dropWhile_cons_of_neg (by simp [letter])]
        rfl

theorem forall_camel_iff : (∀ char ∈ camel started fresh name, char.isAlphanum = true) ↔
    ∀ char ∈ name, char = '_' ∨ char.isAlphanum = true := by
  induction name generalizing started fresh with
  | nil => simp [camel]
  | cons char name induction =>
      rw [camel, List.forall_mem_cons]
      split
      · rename_i line
        rw [induction]
        simp [line]
      · rename_i letter
        have same : (if (started && fresh) = true then char.toUpper else char.toLower).isAlphanum =
            char.isAlphanum := by
          split
          · exact isAlphanum_toUpper char
          · exact isAlphanum_toLower char
        rw [List.forall_mem_cons, induction, same]
        simp [letter]

theorem validField_camel_iff : ValidField (camel false true name) ↔ Wordy name := by
  rw [ValidField, Wordy, forall_camel_iff, head?_camel, and_comm]
  refine and_congr Iff.rfl ?_
  cases first : (name.dropWhile (· = '_')).head? with
  | none => simp
  | some char => simp [isLower_toLower]

theorem Wordy.ascii (wordy : Wordy name) : ∀ char ∈ name, IsAscii char := by
  intro char member
  rcases wordy.1 char member with line | alphanum
  · rw [line]
    decide
  · rw [isAlphanum_iff] at alphanum
    rw [IsAscii]
    omega

end

/-- A character outside of ASCII leaves a trace in the camel-cased name. -/
theorem foreign_of_foldl {items : List Text} {out : Text}
    (foreign : (∃ char ∈ out, ¬ IsAscii char) ∨
      ∃ item ∈ items, ∃ char ∈ item, ¬ IsAscii char ∧ casing.toAscii char = false) :
    ∃ char ∈ items.foldl (camelStep casing) out, ¬ IsAscii char := by
  induction items generalizing out with
  | nil =>
      rcases foreign with former | ⟨item, absurdity, _⟩
      · exact former
      · exact absurd absurdity (by simp)
  | cons item items induction =>
      apply induction
      rcases foreign with ⟨char, member, notAscii⟩ | ⟨other, inItems, char, inside, notAscii, kept⟩
      · left
        refine ⟨char, ?_, notAscii⟩
        have some : out ≠ [] := List.ne_nil_of_mem member
        rw [camelStep, if_neg some]
        exact List.mem_append_left _ member
      · rcases List.mem_cons.mp inItems with isItem | later
        · left
          rw [isItem] at inside
          rw [camelStep]
          split
          · exact casing.lower_foreign item char inside notAscii kept
          · obtain ⟨cased, member, foreign⟩ :=
              casing.capitalize_foreign item char inside notAscii kept
            exact ⟨cased, List.mem_append_right _ member, foreign⟩
        · exact .inr ⟨other, later, char, inside, notAscii, kept⟩

theorem mem_of_mem_join {items : List Text} {char : Char} (letter : char ≠ '_')
    (member : char ∈ join '_' items) : ∃ item ∈ items, char ∈ item := by
  induction items with
  | nil => simp [join] at member
  | cons item items induction =>
      by_cases last : items = []
      · rw [last, Separated.join_singleton] at member
        exact ⟨item, List.mem_cons_self, member⟩
      · rw [Separated.join_cons item last, List.mem_append, List.mem_cons] at member
        rcases member with first | line | later
        · exact ⟨item, List.mem_cons_self, first⟩
        · exact absurd line letter
        · obtain ⟨other, inItems, inside⟩ := induction later
          exact ⟨other, List.mem_cons_of_mem _ inItems, inside⟩

/-- A field name has no trace of a character outside of ASCII. -/
theorem ascii_of_validField {name : Text} (valid : ValidField (nameCamel casing name))
    (kept : ∀ char ∈ name, ¬ IsAscii char → casing.toAscii char = false) :
    ∀ char ∈ name, IsAscii char := by
  intro char member
  by_contra notAscii
  have letter : char ≠ '_' := by
    intro line
    rw [line] at notAscii
    exact notAscii (by decide)
  have whole : char ∈ join '_' (name.splitOn '_') := by
    rwa [join, List.intercalate_splitOn]
  obtain ⟨item, inItems, inside⟩ : ∃ item ∈ name.splitOn '_', char ∈ item := by
    exact mem_of_mem_join letter whole
  obtain ⟨cased, inCamel, foreign⟩ := @foreign_of_foldl casing _ []
    (.inr ⟨item, inItems, char, inside, notAscii, kept char member notAscii⟩)
  have alphanum := valid.2 cased inCamel
  rw [isAlphanum_iff] at alphanum
  rw [IsAscii] at foreign
  omega

/-- Two names of ASCII characters have the same camel-cased name when they are alike. -/
theorem nameCamel_eq_iff {left right : Text} (asciiLeft : ∀ char ∈ left, IsAscii char)
    (asciiRight : ∀ char ∈ right, IsAscii char) :
    nameCamel casing left = nameCamel casing right ↔ Alike left right := by
  rw [nameCamel_of_ascii casing asciiLeft, nameCamel_of_ascii casing asciiRight]
  constructor
  · intro same
    refine ⟨?_, ?_⟩
    · have lowered := congrArg (List.map Char.toLower) same
      rwa [map_toLower_camel, map_toLower_camel] at lowered
    · have raised := congrArg (List.map Char.isUpper) same
      rwa [map_isUpper_camel, map_isUpper_camel] at raised
  · rintro ⟨sameLetters, sameCapitals⟩
    rw [camel_eq_zipWith, camel_eq_zipWith, sameLetters, sameCapitals]

/-! ## The names of a schema -/

/-- The names are mapped to different field names. -/
def MapApart (names : List Text) : Prop :=
  (names.map (nameCamel casing)).Nodup ∧ ∀ name ∈ names, ValidField (nameCamel casing name)

/-- The names are words, and no two of them are alike. -/
def ApartNames (names : List Text) : Prop :=
  (∀ name ∈ names, Wordy name) ∧ names.Pairwise (fun left right => ¬ Alike left right)

theorem nodup_map_iff {names : List Text} (ascii : ∀ name ∈ names, ∀ char ∈ name, IsAscii char) :
    (names.map (nameCamel casing)).Nodup ↔
      names.Pairwise (fun left right => ¬ Alike left right) := by
  rw [List.Nodup, List.pairwise_map]
  apply List.Pairwise.iff_of_mem
  intro left right inLeft inRight
  exact not_congr (nameCamel_eq_iff casing (ascii left inLeft) (ascii right inRight))

theorem validField_iff {name : Text} (ascii : ∀ char ∈ name, IsAscii char) :
    ValidField (nameCamel casing name) ↔ Wordy name := by
  rw [nameCamel_of_ascii casing ascii]
  exact validField_camel_iff

theorem ApartNames.mapApart {names : List Text} (apart : ApartNames names) :
    MapApart casing names := by
  have ascii : ∀ name ∈ names, ∀ char ∈ name, IsAscii char := fun name member =>
    (apart.1 name member).ascii
  refine ⟨(nodup_map_iff casing ascii).mpr apart.2, ?_⟩
  intro name member
  exact (validField_iff casing (ascii name member)).mpr (apart.1 name member)

theorem MapApart.apartNames {names : List Text} (apart : MapApart casing names)
    (kept : ∀ name ∈ names, ∀ char ∈ name, ¬ IsAscii char → casing.toAscii char = false) :
    ApartNames names := by
  have ascii : ∀ name ∈ names, ∀ char ∈ name, IsAscii char := fun name member =>
    ascii_of_validField casing (apart.2 name member) (kept name member)
  refine ⟨?_, (nodup_map_iff casing ascii).mp apart.1⟩
  intro name member
  exact (validField_iff casing (ascii name member)).mp (apart.2 name member)

end JumpscaleX.PropertyNames
