import JumpscaleX.Library.Rounding
import JumpscaleX.PyNumbers

/-!
# Durations

`Duration` of `AdvTypes.py`, and `secondsToHRDelta` and `getDeltaTime` of
`Time.py`: two pairs of a formatter and a parser for a number of seconds.
-/

namespace JumpscaleX

open Fallible PyText

namespace Duration

/-- The units of a duration, with their seconds. -/
def units : List (Char × Nat) :=
  [('d', 86400), ('h', 3600), ('m', 60), ('s', 1)]

/-- `[\.\d]`. -/
def isNumberChar (char : Char) : Bool :=
  char = '.' || char.isDigit

/-- One optional group of the pattern. -/
def matchUnit (unit : Char) (chars : List Char) : Option (List Char) × List Char :=
  let param := chars.takeWhile isNumberChar
  match chars.dropWhile isNumberChar with
  | next :: rest => if param ≠ [] ∧ next = unit then (some param, rest) else (none, chars)
  | [] => (none, chars)

/-- The groups of the pattern one after the other, and the text behind them. -/
def matchUnits : List (Char × Nat) → List Char → List (Nat × Option (List Char)) × List Char
  | [], chars => ([], chars)
  | (unit, seconds) :: units, chars =>
      let group := matchUnit unit chars
      let later := matchUnits units group.2
      ((seconds, group.1) :: later.1, later.2)

/-- `float` of the groups that are there. -/
def timeParams : List (Nat × Option (List Char)) → Except Exn (List (Nat × PyFloat))
  | [] => .ok []
  | (_, none) :: groups => timeParams groups
  | (seconds, some param) :: groups => do
      let value ← float (String.ofList param)
      let later ← timeParams groups
      return (seconds, value) :: later

/-- The sum of the parts in seconds. -/
def totalOf : List (Nat × PyFloat) → Except Exn Rat
  | [] => .ok 0
  | (seconds, .finite value) :: params => do
      let later ← totalOf params
      return value * seconds + later
  | _ => .error .overflowError

/-- `timedelta(**time_params)`, in microseconds. -/
def timedelta (params : List (Nat × PyFloat)) : Except Exn Int := do
  let total ← totalOf params
  let micros := Rounding.halfEven (total * 1000000)
  if -999999999 ≤ micros / 86400000000 ∧ micros / 86400000000 ≤ 999999999 then return micros
  else throw .overflowError

/-- The characters without quotes and blanks around them. -/
def bare (text : String) : List Char :=
  StringType.strip StringType.isSpace
    (text.toList.filter (fun char => char ≠ '\'' && char ≠ '"'))

/-- `clean` of a text. -/
def cleanText (text : String) : Except Exn Int :=
  if text = "0" ∨ text = "" then .ok 0
  else
    let v := bare text
    if v ≠ [] ∧ v.all Char.isDigit = true then .ok (number v)
    else
      let parts := matchUnits units v
      if parts.2 ≠ [] then
        .error (.valueError "Could not parse any time information")
      else do
        let params ← timeParams parts.1
        let micros ← timedelta params
        return micros.tdiv 1000000

/-- `clean`. -/
def clean : PyVal → Except Exn Int
  | .none => .ok 0
  | .bool value => .ok (if value then 1 else 0)
  | .int value => .ok value
  | .float value =>
      if value = 0 then .ok 0 else .error (.valueError "Input needs to be string or int")
  | .str text => cleanText text
  | _ => .error (.valueError "Input needs to be string or int")

/-- `toString`. -/
def toText (value : PyVal) : Except Exn String := do
  let val ← clean value
  if val = 0 then return ""
  else
    let days := val / 86400
    let hours := (val - days * 86400) / 3600
    let minutes := (val - days * 86400 - hours * 3600) / 60
    let seconds := val - days * 86400 - hours * 3600 - minutes * 60
    return [(days, "d"), (hours, "h"), (minutes, "m"), (seconds, "s")].foldl
      (fun text part => if 0 < part.1 then text ++ toString part.1 ++ part.2 else text) ""

/-! ## Reading parts -/

/-- A unit with its digits, or nothing. -/
def partText (part : (Char × Nat) × Option (List Char)) : List Char :=
  match part.2 with
  | some digits => digits ++ [part.1.1]
  | none => []

/-- What a part counts in seconds. -/
def partSeconds (part : (Char × Nat) × Option (List Char)) : Nat :=
  match part.2 with
  | some digits => number digits * part.1.2
  | none => 0

/-- The units in the text are letters, each one once, and their numbers are digits. -/
structure Parts (parts : List ((Char × Nat) × Option (List Char))) : Prop where
  letters : ∀ part ∈ parts, isNumberChar part.1.1 = false
  distinct : (parts.map (fun part => part.1.1)).Nodup
  spelled : ∀ part ∈ parts, ∀ digits, part.2 = some digits → Digits digits

theorem Parts.tail {part : (Char × Nat) × Option (List Char)}
    {parts : List ((Char × Nat) × Option (List Char))} (all : Parts (part :: parts)) :
    Parts parts :=
  ⟨fun other member => all.letters other (List.mem_cons_of_mem _ member),
    (List.nodup_cons.mp all.distinct).2,
    fun other member => all.spelled other (List.mem_cons_of_mem _ member)⟩

theorem Digits.numberChars {digits : List Char} (spelled : Digits digits) :
    ∀ digit ∈ digits, isNumberChar digit = true := by
  intro digit member
  simp [isNumberChar, spelled.2 digit member]

/-- Behind the first digits of a text stands one of its units. -/
theorem dropWhile_parts {parts : List ((Char × Nat) × Option (List Char))}
    (all : Parts parts) {next : Char} {rest : List Char}
    (drops : (parts.flatMap partText).dropWhile isNumberChar = next :: rest) :
    next ∈ parts.map (fun part => part.1.1) := by
  induction parts with
  | nil => cases drops
  | cons part parts induction =>
      obtain ⟨⟨unit, seconds⟩, digits?⟩ := part
      cases digits? with
      | none => exact List.mem_cons_of_mem _ (induction all.tail drops)
      | some digits =>
          have spelled := all.spelled _ List.mem_cons_self digits rfl
          have letter : isNumberChar unit = false := all.letters _ List.mem_cons_self
          rw [List.flatMap_cons, partText, List.append_assoc,
            List.dropWhile_append_of_pos (Digits.numberChars spelled), List.singleton_append,
            List.dropWhile_cons_of_neg (by simp [letter])] at drops
          cases drops
          exact List.mem_cons_self

/-- The pattern takes the parts apart. -/
theorem matchUnits_parts {parts : List ((Char × Nat) × Option (List Char))}
    (all : Parts parts) :
    matchUnits (parts.map Prod.fst) (parts.flatMap partText) =
      (parts.map (fun part => (part.1.2, part.2)), []) := by
  induction parts with
  | nil => rfl
  | cons part parts induction =>
      obtain ⟨⟨unit, seconds⟩, digits?⟩ := part
      have later := induction all.tail
      cases digits? with
      | none =>
          -- The digits that follow belong to a later unit.
          have skipped : matchUnit unit (parts.flatMap partText) =
              (none, parts.flatMap partText) := by
            unfold matchUnit
            split
            · rename_i next rest drops
              have isLater := dropWhile_parts all.tail drops
              rw [if_neg]
              rintro ⟨_, rfl⟩
              exact (List.nodup_cons.mp all.distinct).1 isLater
            · rfl
          simp only [List.map_cons, matchUnits, List.flatMap_cons, partText, List.nil_append,
            skipped, later]
      | some digits =>
          have spelled := all.spelled _ List.mem_cons_self digits rfl
          have letter : isNumberChar unit = false := all.letters _ List.mem_cons_self
          have taken : matchUnit unit (digits ++ [unit] ++ parts.flatMap partText) =
              (some digits, parts.flatMap partText) := by
            have digitsOnly := Digits.numberChars spelled
            rw [List.append_assoc, List.singleton_append, matchUnit,
              List.takeWhile_append_of_pos digitsOnly, List.dropWhile_append_of_pos digitsOnly,
              List.takeWhile_cons_of_neg (by simp [letter]), List.append_nil,
              List.dropWhile_cons_of_neg (by simp [letter])]
            simp [spelled.1]
          simp only [List.map_cons, matchUnits, List.flatMap_cons, partText, taken, later]

/-- The numbers of the parts that are there. -/
theorem timeParams_parts {parts : List ((Char × Nat) × Option (List Char))}
    (all : Parts parts) :
    timeParams (parts.map (fun part => (part.1.2, part.2))) =
      .ok (parts.filterMap (fun part =>
        part.2.map (fun digits => (part.1.2, .finite (number digits))))) := by
  induction parts with
  | nil => rfl
  | cons part parts induction =>
      obtain ⟨⟨unit, seconds⟩, digits?⟩ := part
      have later := induction all.tail
      cases digits? with
      | none => exact later
      | some digits =>
          have spelled := all.spelled _ List.mem_cons_self digits rfl
          have read : float (String.ofList digits) = .ok (.finite (number digits)) :=
            spelled.float String.toList_ofList
          exact bind_eq_ok_iff.mpr ⟨_, read, bind_eq_ok_iff.mpr ⟨_, later, rfl⟩⟩

/-- The weighted sum of the parts. -/
def total (parts : List ((Char × Nat) × Option (List Char))) : Nat :=
  (parts.map partSeconds).sum

theorem totalOf_parts (parts : List ((Char × Nat) × Option (List Char))) :
    totalOf (parts.filterMap (fun part =>
      part.2.map (fun digits => (part.1.2, .finite (number digits))))) =
        .ok (total parts : Rat) := by
  induction parts with
  | nil => rfl
  | cons part parts induction =>
      obtain ⟨⟨unit, seconds⟩, digits?⟩ := part
      cases digits? with
      | none =>
          rw [List.filterMap_cons_none rfl, induction, total, total, List.map_cons,
            List.sum_cons, partSeconds, Nat.zero_add]
      | some digits =>
          refine bind_eq_ok_iff.mpr ⟨_, induction, ?_⟩
          rw [total, total, List.map_cons, List.sum_cons, partSeconds]
          push_cast
          rfl

/-- The days that a `timedelta` can count. -/
def range : Nat := 86400 * 1000000000

theorem timedelta_total {params : List (Nat × PyFloat)} {seconds : Nat}
    (sum : totalOf params = .ok (seconds : Rat)) :
    timedelta params =
      if seconds < range then .ok ((seconds : Int) * 1000000) else .error .overflowError := by
  have micros : Rounding.halfEven ((seconds : Rat) * 1000000) = (seconds : Int) * 1000000 := by
    have whole : (seconds : Rat) * 1000000 = (((seconds : Int) * 1000000 : Int) : Rat) := by
      push_cast
      rfl
    rw [whole, Rounding.halfEven_intCast]
  have inRange : (-999999999 ≤ (seconds : Int) * 1000000 / 86400000000 ∧
      (seconds : Int) * 1000000 / 86400000000 ≤ 999999999) ↔ seconds < range := by
    rw [range]
    omega
  rw [timedelta, sum]
  change (if -999999999 ≤ Rounding.halfEven ((seconds : Rat) * 1000000) / 86400000000 ∧
      Rounding.halfEven ((seconds : Rat) * 1000000) / 86400000000 ≤ 999999999 then _ else _) = _
  rw [micros]
  by_cases below : seconds < range
  · rw [if_pos (inRange.mpr below), if_pos below]
    rfl
  · rw [if_neg (fun both => below (inRange.mp both)), if_neg below]
    rfl

/-- The characters of a text of parts. -/
theorem of_mem_parts {parts : List ((Char × Nat) × Option (List Char))}
    (all : Parts parts) {char : Char} (member : char ∈ parts.flatMap partText) :
    char.isDigit = true ∨ char ∈ parts.map (fun part => part.1.1) := by
  obtain ⟨part, inParts, member⟩ := List.mem_flatMap.mp member
  obtain ⟨⟨unit, seconds⟩, digits?⟩ := part
  cases digits? with
  | none => cases member
  | some digits =>
      rcases List.mem_append.mp member with digit | isUnit
      · exact .inl ((all.spelled _ inParts digits rfl).2 char digit)
      · rw [List.mem_singleton] at isUnit
        subst isUnit
        exact .inr (List.mem_map_of_mem inParts)

/-- A text of parts that is not empty has a letter. -/
theorem exists_letter {parts : List ((Char × Nat) × Option (List Char))}
    (all : Parts parts) (some : parts.flatMap partText ≠ []) :
    ∃ char ∈ parts.flatMap partText, isNumberChar char = false := by
  obtain ⟨char, member⟩ := List.exists_mem_of_ne_nil _ some
  obtain ⟨part, inParts, member⟩ := List.mem_flatMap.mp member
  obtain ⟨⟨unit, seconds⟩, digits?⟩ := part
  cases digits? with
  | none => cases member
  | some digits =>
      exact ⟨unit, List.mem_flatMap.mpr ⟨_, inParts, by simp [partText]⟩,
        all.letters _ inParts⟩

/-- Quotes and blanks are not removed from a text of digits and units. -/
theorem bare_parts {parts : List ((Char × Nat) × Option (List Char))} (all : Parts parts)
    (isUnits : parts.map Prod.fst = units) :
    bare (String.ofList (parts.flatMap partText)) = parts.flatMap partText := by
  have letters : parts.map (fun part => part.1.1) = ['d', 'h', 'm', 's'] := by
    have same := congrArg (List.map Prod.fst) isUnits
    rw [List.map_map] at same
    exact same
  have plain : ∀ char ∈ parts.flatMap partText,
      StringType.isSpace char = false ∧ char ≠ '\'' ∧ char ≠ '"' := by
    intro char member
    rcases of_mem_parts all member with digit | isUnit
    · refine ⟨VFS.isSpace_of_isDigit digit, ?_, ?_⟩ <;> rintro rfl <;>
        exact absurd digit (by decide)
    · rw [letters] at isUnit
      simp only [List.mem_cons, List.not_mem_nil, or_false] at isUnit
      rcases isUnit with rfl | rfl | rfl | rfl <;> decide
  rw [bare, String.toList_ofList, List.filter_eq_self.mpr, VFS.strip_of_forall_not]
  · exact fun char member => (plain char member).1
  · intro char member
    simp [(plain char member).2]

/-- A text without parts counts nothing. -/
theorem total_of_empty {parts : List ((Char × Nat) × Option (List Char))}
    (empty : parts.flatMap partText = []) : total parts = 0 := by
  have none : ∀ part ∈ parts, partSeconds part = 0 := by
    intro part member
    have nothing := List.flatMap_eq_nil_iff.mp empty part member
    obtain ⟨⟨unit, seconds⟩, digits?⟩ := part
    cases digits? with
    | none => rfl
    | some digits => simp [partText] at nothing
  rw [total, List.map_congr_left none]
  simp

/-- A text of integer parts counts their weighted sum, as far as a `timedelta` can. -/
theorem cleanText_parts {parts : List ((Char × Nat) × Option (List Char))}
    (all : Parts parts) (isUnits : parts.map Prod.fst = units) :
    cleanText (String.ofList (parts.flatMap partText)) =
      if total parts < range then .ok (total parts : Int) else .error .overflowError := by
  by_cases empty : parts.flatMap partText = []
  · rw [empty, total_of_empty empty]
    rfl
  · obtain ⟨letter, member, notNumber⟩ := exists_letter all empty
    have notZero : ¬ (String.ofList (parts.flatMap partText) = "0" ∨
        String.ofList (parts.flatMap partText) = "") := by
      rintro (isZero | isEmpty)
      · have chars := congrArg String.toList isZero
        rw [String.toList_ofList] at chars
        have isZero : letter ∈ ['0'] := by
          rw [chars] at member
          exact member
        rw [List.mem_singleton] at isZero
        subst isZero
        exact absurd notNumber (by decide)
      · have chars := congrArg String.toList isEmpty
        rw [String.toList_ofList] at chars
        exact empty chars
    have notDigits : ¬ (parts.flatMap partText ≠ [] ∧
        (parts.flatMap partText).all Char.isDigit = true) := by
      rintro ⟨_, digits⟩
      have digit := List.all_eq_true.mp digits letter member
      simp [isNumberChar, digit] at notNumber
    have matched := matchUnits_parts all
    rw [isUnits] at matched
    have micros := timedelta_total (totalOf_parts parts)
    rw [cleanText, if_neg notZero]
    simp only [bare_parts all isUnits, if_neg notDigits, matched, ne_eq, not_true_eq_false,
      if_false]
    have params := timeParams_parts all
    by_cases below : total parts < range
    · rw [if_pos below] at micros ⊢
      refine bind_eq_ok_iff.mpr ⟨_, params, bind_eq_ok_iff.mpr ⟨_, micros, ?_⟩⟩
      rw [Int.mul_tdiv_cancel _ (by decide)]
      rfl
    · rw [if_neg below] at micros ⊢
      exact bind_eq_error_iff.mpr (.inr ⟨_, params, bind_eq_error_iff.mpr (.inl micros)⟩)

end Duration

/-! ## Greedy parts -/

/-- As much of each unit as fits into what the units before it left over. -/
def greedy : List (Char × Nat) → Nat → List ((Char × Nat) × Nat)
  | [], _ => []
  | unit :: units, seconds => (unit, seconds / unit.2) :: greedy units (seconds % unit.2)

/-- What no unit takes. -/
def leftOver (units : List (Char × Nat)) (seconds : Nat) : Nat :=
  units.foldl (fun rest unit => rest % unit.2) seconds

/-- What the parts count together. -/
def weighted (parts : List ((Char × Nat) × Nat)) : Nat :=
  (parts.map (fun part => part.2 * part.1.2)).sum

theorem weighted_greedy (units : List (Char × Nat)) (seconds : Nat) :
    weighted (greedy units seconds) + leftOver units seconds = seconds := by
  induction units generalizing seconds with
  | nil => simp [greedy, weighted, leftOver]
  | cons unit units induction =>
      have later := induction (seconds % unit.2)
      have split := Nat.div_add_mod seconds unit.2
      rw [Nat.mul_comm] at split
      rw [weighted] at later
      rw [leftOver] at later
      rw [greedy, weighted, List.map_cons, List.sum_cons, leftOver, List.foldl_cons,
        Nat.add_assoc, later]
      exact split

@[simp] theorem greedy_fst (units : List (Char × Nat)) (seconds : Nat) :
    (greedy units seconds).map Prod.fst = units := by
  induction units generalizing seconds with
  | nil => rfl
  | cons unit units induction => rw [greedy, List.map_cons, induction]

namespace Duration

/-- An amount as its digits, unless it is zero. -/
def spelled (part : (Char × Nat) × Nat) : (Char × Nat) × Option (List Char) :=
  (part.1, if 0 < part.2 then some (Nat.toDigits 10 part.2) else none)

/-- The parts of a number of seconds that are not zero, with their units. -/
def textOf (parts : List ((Char × Nat) × Nat)) : List Char :=
  (parts.map spelled).flatMap partText

theorem spelled_parts {parts : List ((Char × Nat) × Nat)} (isUnits : parts.map Prod.fst = units) :
    Parts (parts.map spelled) := by
  have letters : (parts.map spelled).map (fun part => part.1.1) = ['d', 'h', 'm', 's'] := by
    have same := congrArg (List.map Prod.fst) isUnits
    rw [List.map_map] at same
    rw [List.map_map]
    exact same
  refine ⟨?_, ?_, ?_⟩
  · intro part member
    have isLetter : part.1.1 ∈ ['d', 'h', 'm', 's'] := letters ▸ List.mem_map_of_mem member
    simp only [List.mem_cons, List.not_mem_nil, or_false] at isLetter
    rcases isLetter with same | same | same | same <;> rw [same] <;> decide
  · rw [letters]
    decide
  · intro part member digits isDigits
    obtain ⟨amount, _, rfl⟩ := List.mem_map.mp member
    rw [spelled] at isDigits
    simp only at isDigits
    split at isDigits
    · cases isDigits
      exact digits_toDigits amount.2
    · cases isDigits

theorem total_spelled (parts : List ((Char × Nat) × Nat)) :
    total (parts.map spelled) = weighted parts := by
  have each : ∀ part : (Char × Nat) × Nat, partSeconds (spelled part) = part.2 * part.1.2 := by
    intro part
    by_cases positive : 0 < part.2
    · simp [spelled, partSeconds, positive, number_toDigits]
    · have zero : part.2 = 0 := by omega
      simp [spelled, partSeconds, zero]
  rw [total, weighted, List.map_map]
  exact congrArg List.sum (List.map_congr_left (fun part _ => each part))

/-- The loop of `toString` adds the parts that are not zero. -/
theorem foldl_parts (parts : List ((Char × Nat) × Nat)) (text : String) :
    (parts.map (fun part => ((part.2 : Int), String.singleton part.1.1))).foldl
      (fun text part => if 0 < part.1 then text ++ toString part.1 ++ part.2 else text) text =
        text ++ String.ofList (textOf parts) := by
  induction parts generalizing text with
  | nil => simp [textOf]
  | cons part parts induction =>
      rw [List.map_cons, List.foldl_cons, induction]
      by_cases positive : 0 < part.2
      · have isPositive : (0 : Int) < part.2 := by exact_mod_cast positive
        have digits : toString (part.2 : Int) = String.ofList (Nat.toDigits 10 part.2) := by
          have chars := VFS.str_ofNat part.2
          rw [← chars, VFS.str, String.ofList_toList]
          rfl
        simp only [if_pos isPositive, digits]
        apply String.toList_inj.mp
        simp [textOf, spelled, partText, positive]
      · have notPositive : ¬ (0 : Int) < part.2 := by exact_mod_cast positive
        simp only [if_neg notPositive]
        apply String.toList_inj.mp
        simp [textOf, spelled, partText, positive]

/-- A number of seconds is written as its greedy parts. -/
theorem toText_int (seconds : Nat) :
    toText (.int seconds) = .ok (String.ofList (textOf (greedy units seconds))) := by
  have cleaned : clean (.int seconds) = .ok (seconds : Int) := rfl
  refine bind_eq_ok_iff.mpr ⟨_, cleaned, ?_⟩
  by_cases zero : seconds = 0
  · subst zero
    rfl
  · have notZero : (seconds : Int) ≠ 0 := by exact_mod_cast zero
    have days : (seconds : Int) / 86400 = ((seconds / 86400 : Nat) : Int) := by omega
    have hours : ((seconds : Int) - ((seconds / 86400 : Nat) : Int) * 86400) / 3600 =
        ((seconds % 86400 / 3600 : Nat) : Int) := by omega
    have minutes : ((seconds : Int) - ((seconds / 86400 : Nat) : Int) * 86400 -
        ((seconds % 86400 / 3600 : Nat) : Int) * 3600) / 60 =
          ((seconds % 86400 % 3600 / 60 : Nat) : Int) := by omega
    have rest : (seconds : Int) - ((seconds / 86400 : Nat) : Int) * 86400 -
        ((seconds % 86400 / 3600 : Nat) : Int) * 3600 -
          ((seconds % 86400 % 3600 / 60 : Nat) : Int) * 60 =
            ((seconds % 86400 % 3600 % 60 / 1 : Nat) : Int) := by omega
    have loop := foldl_parts (greedy units seconds) ""
    rw [String.empty_append] at loop
    rw [if_neg notZero]
    simp only [days]
    simp only [hours]
    simp only [minutes]
    simp only [rest]
    exact congrArg Except.ok loop

end Duration

end JumpscaleX
