import Mathlib.Data.List.Basic

/-!
# Patterns of texts

Regular expressions with a negative lookahead, matched by following every way to
read the text.
-/

namespace JumpscaleX

/-- A pattern, over classes of characters. -/
inductive Pattern where
  | nothing
  | one (accepts : Char → Bool)
  | seq (first second : Pattern)
  | either (first second : Pattern)
  | many (repeated : Pattern)
  | notAhead (ahead : Pattern)

namespace Pattern

/-- What repeated reading leaves.  Each round takes at least one character. -/
def manyRests (rests : List Char → List (List Char)) :
    Nat → List Char → List (List Char)
  | 0, text => [text]
  | fuel + 1, text =>
      text :: ((rests text).filter (fun rest => rest.length < text.length)).flatMap
        (manyRests rests fuel)

/-- What the pattern can leave of a text that it starts to match. -/
def rests : Pattern → List Char → List (List Char)
  | nothing, text => [text]
  | one _, [] => []
  | one accepts, char :: text => if accepts char then [text] else []
  | seq first second, text => (rests first text).flatMap (rests second)
  | either first second, text => rests first text ++ rests second text
  | many repeated, text => manyRests (rests repeated) text.length text
  | notAhead ahead, text => if (rests ahead text).isEmpty then [text] else []

/-- The whole text matches. -/
def fullmatch (pattern : Pattern) (text : String) : Bool :=
  (rests pattern text.toList).any List.isEmpty

/-! ## Common patterns -/

def char (char : Char) : Pattern :=
  one (fun other => other = char)

def word (chars : List Char) : Pattern :=
  chars.foldr (fun next pattern => seq (char next) pattern) nothing

def optional (pattern : Pattern) : Pattern :=
  either pattern nothing

def plus (pattern : Pattern) : Pattern :=
  seq pattern (many pattern)

def times : Nat → Pattern → Pattern
  | 0, _ => nothing
  | count + 1, pattern => seq pattern (times count pattern)

def atLeast (count : Nat) (pattern : Pattern) : Pattern :=
  seq (times count pattern) (many pattern)

/-- Between `least` and `least + more` times. -/
def between (least more : Nat) (pattern : Pattern) : Pattern :=
  seq (times least pattern) (times more (optional pattern))

/-! ## The classes of a pattern -/

/-- Every class of the pattern has a property. -/
def Classes (property : (Char → Bool) → Prop) : Pattern → Prop
  | nothing => True
  | one accepts => property accepts
  | seq first second => Classes property first ∧ Classes property second
  | either first second => Classes property first ∧ Classes property second
  | many repeated => Classes property repeated
  | notAhead ahead => Classes property ahead

section

variable {property : (Char → Bool) → Prop} {pattern : Pattern}

theorem Classes.optional (classes : Classes property pattern) :
    Classes property (optional pattern) :=
  ⟨classes, trivial⟩

theorem Classes.plus (classes : Classes property pattern) :
    Classes property (plus pattern) :=
  ⟨classes, classes⟩

theorem Classes.times (classes : Classes property pattern) (count : Nat) :
    Classes property (times count pattern) := by
  induction count with
  | zero => exact trivial
  | succ count induction => exact ⟨classes, induction⟩

theorem Classes.atLeast (classes : Classes property pattern) (count : Nat) :
    Classes property (atLeast count pattern) :=
  ⟨classes.times count, classes⟩

theorem Classes.between (classes : Classes property pattern) (least more : Nat) :
    Classes property (between least more pattern) :=
  ⟨classes.times least, classes.optional.times more⟩

end

/-! ## Matching a renamed text -/

section

variable {rename : Char → Char}

theorem manyRests_map {reads : List Char → List (List Char)}
    (renamed : ∀ text, reads (text.map rename) = (reads text).map (List.map rename))
    (fuel : Nat) (text : List Char) :
    manyRests reads fuel (text.map rename) =
      (manyRests reads fuel text).map (List.map rename) := by
  induction fuel generalizing text with
  | zero => rfl
  | succ fuel induction =>
      have later : (fun rest => manyRests reads fuel (List.map rename rest)) =
          fun rest => (manyRests reads fuel rest).map (List.map rename) :=
        funext induction
      simp [manyRests, renamed, List.filter_map, List.flatMap_map, List.map_flatMap,
        Function.comp_def, later]

/-- A pattern whose classes do not tell renamed characters apart reads a renamed text in the
same ways. -/
theorem rests_map {pattern : Pattern}
    (blind : Classes (fun accepts => ∀ char, accepts (rename char) = accepts char) pattern)
    (text : List Char) :
    rests pattern (text.map rename) = (rests pattern text).map (List.map rename) := by
  induction pattern generalizing text with
  | nothing => rfl
  | one accepts =>
      cases text with
      | nil => rfl
      | cons char text =>
          have same : accepts (rename char) = accepts char := blind char
          simp only [List.map_cons, rests, same]
          split
          · rfl
          · rfl
  | seq first second ihFirst ihSecond =>
      have later : (fun rest => rests second (List.map rename rest)) =
          fun rest => (rests second rest).map (List.map rename) :=
        funext (ihSecond blind.2)
      simp [rests, ihFirst blind.1, List.flatMap_map, List.map_flatMap, later]
  | either first second ihFirst ihSecond =>
      simp [rests, ihFirst blind.1, ihSecond blind.2]
  | many repeated ih =>
      have renamed := manyRests_map (ih blind) text.length text
      simpa [rests] using renamed
  | notAhead ahead ih =>
      simp only [rests, ih blind, List.isEmpty_map]
      split
      · rfl
      · rfl

theorem fullmatch_map {pattern : Pattern}
    (blind : Classes (fun accepts => ∀ char, accepts (rename char) = accepts char) pattern)
    (text : List Char) :
    fullmatch pattern (String.ofList (text.map rename)) =
      fullmatch pattern (String.ofList text) := by
  simp [fullmatch, rests_map blind, List.any_map, Function.comp_def]

end

/-! ## The characters that a pattern reads -/

section

variable {allowed : Char → Prop}

/-- The characters read from the front of a text are allowed. -/
def Reads (allowed : Char → Prop) (text rest : List Char) : Prop :=
  ∃ front, text = front ++ rest ∧ ∀ char ∈ front, allowed char

theorem Reads.refl (text : List Char) : Reads allowed text text :=
  ⟨[], rfl, by simp⟩

theorem Reads.trans {text middle rest : List Char} (first : Reads allowed text middle)
    (second : Reads allowed middle rest) : Reads allowed text rest := by
  obtain ⟨front, rfl, frontAllowed⟩ := first
  obtain ⟨more, rfl, moreAllowed⟩ := second
  refine ⟨front ++ more, by simp, ?_⟩
  intro char member
  rcases List.mem_append.mp member with before | after
  · exact frontAllowed char before
  · exact moreAllowed char after

theorem manyRests_reads {reads : List Char → List (List Char)}
    (allowedReads : ∀ text, ∀ rest ∈ reads text, Reads allowed text rest)
    (fuel : Nat) (text : List Char) :
    ∀ rest ∈ manyRests reads fuel text, Reads allowed text rest := by
  induction fuel generalizing text with
  | zero =>
      intro rest member
      rw [List.mem_singleton.mp member]
      exact .refl text
  | succ fuel induction =>
      intro rest member
      rcases List.mem_cons.mp member with same | later
      · rw [same]
        exact .refl text
      · obtain ⟨middle, isMiddle, isRest⟩ := List.mem_flatMap.mp later
        have first := allowedReads text middle (List.mem_of_mem_filter isMiddle)
        exact first.trans (induction middle rest isRest)

theorem rests_reads {pattern : Pattern}
    (classes : Classes (fun accepts => ∀ char, accepts char = true → allowed char) pattern)
    (text : List Char) : ∀ rest ∈ rests pattern text, Reads allowed text rest := by
  induction pattern generalizing text with
  | nothing =>
      intro rest member
      rw [List.mem_singleton.mp member]
      exact .refl text
  | one accepts =>
      intro rest member
      cases text with
      | nil => cases member
      | cons char text =>
          by_cases accepted : accepts char = true
          · simp only [rests, accepted, if_true, List.mem_singleton] at member
            exact ⟨[char], by simp [member], by simpa using classes char accepted⟩
          · simp [rests, accepted] at member
  | seq first second ihFirst ihSecond =>
      intro rest member
      obtain ⟨middle, isMiddle, isRest⟩ := List.mem_flatMap.mp member
      exact (ihFirst classes.1 text middle isMiddle).trans
        (ihSecond classes.2 middle rest isRest)
  | either first second ihFirst ihSecond =>
      intro rest member
      rcases List.mem_append.mp member with isFirst | isSecond
      · exact ihFirst classes.1 text rest isFirst
      · exact ihSecond classes.2 text rest isSecond
  | many repeated ih =>
      exact manyRests_reads (ih classes) text.length text
  | notAhead ahead ih =>
      intro rest member
      by_cases none : (rests ahead text).isEmpty = true
      · simp only [rests, none, if_true, List.mem_singleton] at member
        rw [member]
        exact .refl text
      · simp [rests, none] at member

/-- Every character of a matched text is in one of the classes. -/
theorem allowed_of_fullmatch {pattern : Pattern} {text : String}
    (classes : Classes (fun accepts => ∀ char, accepts char = true → allowed char) pattern)
    (matched : fullmatch pattern text = true) : ∀ char ∈ text.toList, allowed char := by
  obtain ⟨rest, isRest, empty⟩ := List.any_eq_true.mp matched
  obtain ⟨front, whole, frontAllowed⟩ := rests_reads classes text.toList rest isRest
  rw [List.isEmpty_iff.mp empty, List.append_nil] at whole
  rw [whole]
  exact frontAllowed

end

end Pattern

end JumpscaleX
