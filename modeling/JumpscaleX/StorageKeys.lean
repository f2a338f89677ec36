import Mathlib.Data.List.TakeDrop
import Mathlib.Tactic.FinCases
import JumpscaleX.Schema

/-!
# The names of a model's storage

`Schema.key` names the index table and the data directory of a model.  What it
keeps of a url are the letters and digits in their order, and how wide the gaps
between them are.
-/

namespace JumpscaleX

/-- `Schema.key` of a schema with the url. -/
def storageKey (url : String) : String :=
  String.ofList ((stripToAsciiDense url).toList.map
    (fun char => if char = '.' then '_' else char))

theorem Schema.key_eq (schema : Schema) : schema.key = storageKey schema.url := rfl

/-- `sql_table_name` of a model. -/
def sqlTableName (url : String) : String :=
  "index_" ++ storageKey url

/-- `_data_dir` of a model below that of its database. -/
def dataDir (base url : String) : String :=
  base ++ "/" ++ storageKey url

/-! ## What a url is made of -/

/-- The letters and digits. -/
abbrev WordChar : Type :=
  { char : Char // char.isDigit = true ∨ char.isLower = true }

theorem wordChar_ne_underscore (char : WordChar) : char.1 ≠ '_' := by
  intro same
  have kind := char.2
  rw [same] at kind
  exact absurd kind (by decide)

theorem wordChar_ne_dot (char : WordChar) : char.1 ≠ '.' := by
  intro same
  have kind := char.2
  rw [same] at kind
  exact absurd kind (by decide)

/-- What a character of a url stands for: a letter or digit, a dot, or one of
the characters that become an underscore. -/
inductive UrlMark where
  | word (char : WordChar)
  | dot
  | dash
  deriving DecidableEq

namespace UrlMark

/-- White space and all characters not named here stand for nothing. -/
def ofChar (char : Char) : Option UrlMark :=
  let lower := char.toLower
  if lower = '.' then some .dot
  else if lower ∈ "_-/\\=;!+()".toList then some .dash
  else if kind : lower.isDigit = true ∨ lower.isLower = true then
    some (.word ⟨lower, kind⟩)
  else none

def char : UrlMark → Char
  | .word char => char.1
  | .dot => '.'
  | .dash => '_'

end UrlMark

/-- The marks of a url. -/
def urlMarks (url : String) : List UrlMark :=
  url.toList.filterMap UrlMark.ofChar

/-- A letter or digit with the width of the gap in front of it. -/
abbrev Spaced := Nat × WordChar

/-- The letters and digits with their gaps, and the width of the gap at the end.
A gap is as wide as it has dots and runs of dashes; a run at the very end does
not count.  `dashed` tells that the gap ends in a dash so far. -/
def spread (dashed : Bool) (width : Nat) : List UrlMark → List Spaced × Nat
  | [] => ([], if dashed then width - 1 else width)
  | .word char :: rest =>
      let (spaced, tail) := spread false 0 rest
      ((width, char) :: spaced, tail)
  | .dot :: rest => spread false (width + 1) rest
  | .dash :: rest => spread true (if dashed then width else width + 1) rest

/-- What two urls have in common when their models share their storage. -/
def urlSkeleton (url : String) : List Spaced × Nat :=
  spread false 0 (urlMarks url)

/-! ## The key of a url -/

/-- The characters of the key. -/
def renderSpaced : List Spaced → Nat → List Char
  | [], tail => List.replicate tail '_'
  | (width, char) :: rest, tail =>
      List.replicate width '_' ++ char.1 :: renderSpaced rest tail

def renderGaps (skeleton : List Spaced × Nat) : List Char :=
  renderSpaced skeleton.1 skeleton.2

/-- The end of a gap is where the first letter or digit stands. -/
theorem gap_injective {width width' : Nat} {char char' : WordChar} {rest rest' : List Char}
    (same : List.replicate width '_' ++ char.1 :: rest =
      List.replicate width' '_' ++ char'.1 :: rest') :
    width = width' ∧ char = char' ∧ rest = rest' := by
  induction width generalizing width' with
  | zero =>
      cases width' with
      | zero =>
          simp only [List.replicate_zero, List.nil_append, List.cons.injEq] at same
          exact ⟨rfl, Subtype.ext same.1, same.2⟩
      | succ width' =>
          rw [List.replicate_succ] at same
          exact absurd (List.cons.inj same).1 (wordChar_ne_underscore char)
  | succ width induction =>
      cases width' with
      | zero =>
          rw [List.replicate_succ] at same
          exact absurd (List.cons.inj same).1.symm (wordChar_ne_underscore char')
      | succ width' =>
          rw [List.replicate_succ, List.replicate_succ] at same
          obtain ⟨widths, chars, rests⟩ := induction (List.cons.inj same).2
          exact ⟨by rw [widths], chars, rests⟩

theorem gap_ne_tail {width tail : Nat} {char : WordChar} {rest : List Char} :
    List.replicate width '_' ++ char.1 :: rest ≠ List.replicate tail '_' := by
  intro same
  have member : char.1 ∈ List.replicate tail '_' := by
    rw [← same]
    simp
  exact (wordChar_ne_underscore char) (List.eq_of_mem_replicate member)

theorem renderSpaced_injective {first second : List Spaced} {tail tail' : Nat}
    (same : renderSpaced first tail = renderSpaced second tail') :
    first = second ∧ tail = tail' := by
  induction first generalizing second with
  | nil =>
      cases second with
      | nil => exact ⟨rfl, List.replicate_left_injective '_' same⟩
      | cons spaced rest => exact absurd same.symm gap_ne_tail
  | cons spaced rest induction =>
      cases second with
      | nil => exact absurd same gap_ne_tail
      | cons spaced' rest' =>
          obtain ⟨widths, chars, rests⟩ := gap_injective same
          obtain ⟨later, tails⟩ := induction rests
          exact ⟨by rw [Prod.ext widths chars, later], tails⟩

theorem renderGaps_injective : Function.Injective renderGaps := by
  intro first second same
  obtain ⟨spaced, tails⟩ := renderSpaced_injective same
  exact Prod.ext spaced tails

theorem renderGaps_wider (dashed : Bool) (width : Nat) (marks : List UrlMark)
    (open_ : dashed = true → 0 < width) :
    renderGaps (spread dashed (width + 1) marks) =
      '_' :: renderGaps (spread dashed width marks) := by
  induction marks generalizing dashed width with
  | nil =>
      cases dashed with
      | false => rfl
      | true =>
          have positive := open_ rfl
          have less : width + 1 - 1 = width - 1 + 1 := by omega
          simp only [spread, if_true, renderGaps, renderSpaced, less]
          rfl
  | cons mark rest induction =>
      cases mark with
      | word char => rfl
      | dot => exact induction false (width + 1) nofun
      | dash =>
          cases dashed with
          | false => exact induction true (width + 1) (fun _ => Nat.succ_pos _)
          | true => exact induction true width open_

/-- The characters that become an underscore, the underscore itself left out. -/
def dashChars : List Char := "-/\\= ;!+()".toList

/-- What one character of a url contributes to the name. -/
theorem char_contributes (char : Char) :
    ((([char.toLower].filter (fun char => char ≠ '\n' ∧ char ≠ '\t' ∧ char ≠ ' ')).map
        (fun char => if char ∈ dashChars then '_' else char)).filter
          (fun char => char = '.' ∨ char = '_' ∨ char.isDigit ∨ char.isLower)) =
      ((UrlMark.ofChar char).map UrlMark.char).toList := by
  unfold UrlMark.ofChar
  dsimp only
  generalize char.toLower = lower
  by_cases dot : lower = '.'
  · subst dot
    rfl
  · by_cases dash : lower ∈ "_-/\\=;!+()".toList
    · have listed : lower ∈ ['_', '-', '/', '\\', '=', ';', '!', '+', '(', ')'] := dash
      fin_cases listed <;> rfl
    · have notDash : lower ≠ '_' := fun same => dash (by rw [same]; decide)
      have notListed : lower ∈ dashChars → lower = ' ' := by
        intro listed
        have one : lower ∈ ['-', '/', '\\', '=', ' ', ';', '!', '+', '(', ')'] := listed
        fin_cases one
        all_goals first | rfl | exact absurd (by decide) dash
      rw [if_neg dot, if_neg dash]
      by_cases visible : lower ≠ '\n' ∧ lower ≠ '\t' ∧ lower ≠ ' '
      · have unlisted : lower ∉ dashChars := fun listed => visible.2.2 (notListed listed)
        have shown : [lower].filter (fun char => char ≠ '\n' ∧ char ≠ '\t' ∧ char ≠ ' ') =
            [lower] := by
          simp [visible]
        rw [shown, List.map_singleton, if_neg unlisted]
        by_cases kind : lower.isDigit = true ∨ lower.isLower = true
        · rw [dif_pos kind]
          simpa [UrlMark.char] using .inr (.inr kind)
        · rw [dif_neg kind]
          simpa [dot, notDash] using kind
      · have unkept : ¬ (lower.isDigit = true ∨ lower.isLower = true) := by
          intro kind
          apply visible
          refine ⟨?_, ?_, ?_⟩
          all_goals
            intro same
            rw [same] at kind
            exact absurd kind (by decide)
        have hidden : [lower].filter (fun char => char ≠ '\n' ∧ char ≠ '\t' ∧ char ≠ ' ') =
            [] := by
          simpa using visible
        rw [hidden, dif_neg unkept]
        rfl

theorem stripToAsciiDense_eq (text : String) :
    stripToAsciiDense text = String.ofList (stripToAsciiDense.stripUnderscores
      (stripToAsciiDense.collapse ((urlMarks text).map UrlMark.char))) := by
  have checked : ∀ chars : List Char,
      ((((chars.map Char.toLower).filter
        (fun char => char ≠ '\n' ∧ char ≠ '\t' ∧ char ≠ ' ')).map
          (fun char => if char ∈ dashChars then '_' else char)).filter
            (fun char => char = '.' ∨ char = '_' ∨ char.isDigit ∨ char.isLower)) =
        (chars.filterMap UrlMark.ofChar).map UrlMark.char := by
    intro chars
    induction chars with
    | nil => rfl
    | cons char rest induction =>
        have split : (char :: rest).map Char.toLower =
            [char.toLower] ++ rest.map Char.toLower := rfl
        rw [split, List.filter_append, List.map_append, List.filter_append,
          char_contributes, induction]
        cases mark : UrlMark.ofChar char with
        | none => simp [mark]
        | some other => simp [mark]
  rw [urlMarks, ← checked]
  rfl

/-! ## Collapsing and stripping -/

open stripToAsciiDense

/-- A character that is no underscore keeps what stands in front of it. -/
theorem stripUnderscores_keeps (front : List Char) {char : Char} (different : char ≠ '_')
    (rest : List Char) :
    stripUnderscores (front ++ char :: rest) = front ++ char :: stripUnderscores rest := by
  have reversed : (front ++ char :: rest).reverse =
      rest.reverse ++ char :: front.reverse := by simp
  simp only [stripUnderscores, reversed, List.dropWhile_append]
  split
  · rename_i empty
    have nothing : rest.reverse.dropWhile (fun char => decide (char = '_')) = [] := by
      simpa using empty
    simp [nothing, different]
  · simp

theorem collapse_cons {char : Char} (different : char ≠ '_') (rest : List Char) :
    collapse (char :: rest) = char :: collapse rest := by
  rw [collapse]
  intro _ same
  exact absurd same different

theorem collapse_underscore {char : Char} (different : char ≠ '_') (rest : List Char) :
    collapse ('_' :: char :: rest) = '_' :: char :: collapse rest := by
  rw [collapse, collapse_cons different]
  intro rest' _ same
  exact absurd (List.cons.inj same).1 different

/-- The characters of the key that come from some marks. -/
def keyChars (chars : List Char) : List Char :=
  (stripUnderscores (collapse chars)).map (fun char => if char = '.' then '_' else char)

theorem keyChars_word (char : WordChar) (rest : List Char) :
    keyChars (char.1 :: rest) = char.1 :: keyChars rest := by
  have stripped := stripUnderscores_keeps [] (wordChar_ne_underscore char) (collapse rest)
  rw [List.nil_append, List.nil_append] at stripped
  rw [keyChars, collapse_cons (wordChar_ne_underscore char), stripped, List.map_cons,
    if_neg (wordChar_ne_dot char)]
  rfl

theorem keyChars_dash_word (char : WordChar) (rest : List Char) :
    keyChars ('_' :: char.1 :: rest) = '_' :: char.1 :: keyChars rest := by
  have stripped := stripUnderscores_keeps ['_'] (wordChar_ne_underscore char) (collapse rest)
  rw [List.singleton_append, List.singleton_append] at stripped
  rw [keyChars, collapse_underscore (wordChar_ne_underscore char), stripped, List.map_cons,
    List.map_cons, if_neg (wordChar_ne_dot char)]
  rfl

theorem keyChars_dot (rest : List Char) : keyChars ('.' :: rest) = '_' :: keyChars rest := by
  have dot : '.' ≠ '_' := by decide
  have stripped := stripUnderscores_keeps [] dot (collapse rest)
  rw [List.nil_append, List.nil_append] at stripped
  rw [keyChars, collapse_cons dot, stripped]
  rfl

theorem keyChars_dash_dot (rest : List Char) :
    keyChars ('_' :: '.' :: rest) = '_' :: '_' :: keyChars rest := by
  have dot : '.' ≠ '_' := by decide
  have stripped := stripUnderscores_keeps ['_'] dot (collapse rest)
  rw [List.singleton_append, List.singleton_append] at stripped
  rw [keyChars, collapse_underscore dot, stripped]
  rfl

theorem keyChars_dashes (rest : List Char) :
    keyChars ('_' :: '_' :: rest) = keyChars ('_' :: rest) := by
  rw [keyChars, collapse]
  rfl

/-- The key of some marks, alone and behind a dash. -/
theorem keyChars_marks (marks : List UrlMark) :
    keyChars (marks.map UrlMark.char) = renderGaps (spread false 0 marks) ∧
      keyChars ('_' :: marks.map UrlMark.char) = renderGaps (spread true 1 marks) := by
  induction marks with
  | nil => exact ⟨rfl, rfl⟩
  | cons mark rest induction =>
      obtain ⟨alone, behind⟩ := induction
      cases mark with
      | word char =>
          constructor
          · rw [List.map_cons, UrlMark.char, keyChars_word, alone]
            rfl
          · rw [List.map_cons, UrlMark.char, keyChars_dash_word, alone]
            rfl
      | dot =>
          constructor
          · rw [List.map_cons, UrlMark.char, keyChars_dot, alone, spread,
              renderGaps_wider false 0 rest nofun]
          · rw [List.map_cons, UrlMark.char, keyChars_dash_dot, alone, spread,
              renderGaps_wider false 1 rest nofun, renderGaps_wider false 0 rest nofun]
      | dash =>
          constructor
          · rw [List.map_cons, UrlMark.char, behind]
            rfl
          · rw [List.map_cons, UrlMark.char, keyChars_dashes, behind]
            rfl

/-- The key spells the letters, digits and gaps of the url. -/
theorem storageKey_eq (url : String) :
    storageKey url = String.ofList (renderGaps (urlSkeleton url)) := by
  rw [storageKey, stripToAsciiDense_eq, String.toList_ofList]
  exact congrArg String.ofList (keyChars_marks (urlMarks url)).1

/-- Two urls have one key exactly when they have the same letters and digits with
the same gaps. -/
theorem storageKey_eq_iff (url other : String) :
    storageKey url = storageKey other ↔ urlSkeleton url = urlSkeleton other := by
  rw [storageKey_eq, storageKey_eq, String.ofList_inj]
  exact renderGaps_injective.eq_iff

theorem sqlTableName_eq_iff (url other : String) :
    sqlTableName url = sqlTableName other ↔ storageKey url = storageKey other := by
  constructor
  · intro same
    exact String.append_right_inj _ |>.mp same
  · intro same
    rw [sqlTableName, sqlTableName, same]

theorem dataDir_eq_iff (base url other : String) :
    dataDir base url = dataDir base other ↔ storageKey url = storageKey other := by
  constructor
  · intro same
    exact String.append_right_inj _ |>.mp same
  · intro same
    rw [dataDir, dataDir, same]

example : storageKey "A-.b c._" = "a__bc_" := by decide

end JumpscaleX
