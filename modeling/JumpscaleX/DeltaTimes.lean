import JumpscaleX.Durations
import JumpscaleX.HostEntries

/-!
# Delta times

`secondsToHRDelta` and `getDeltaTime` of `Time.py`, and the round trips of both
notations for a number of seconds.
-/

namespace JumpscaleX

open Fallible PyText

namespace Time

/-- The units of a delta time, with their seconds. -/
def TIMES : List (Char × Nat) :=
  [('Y', 3600 * 24 * 365), ('M', 3600 * 24 * 365 / 12), ('w', 3600 * 24 * 7), ('d', 3600 * 24),
    ('h', 3600), ('m', 60), ('s', 1)]

/-- One part of a delta time, in seconds. -/
def partValue (txt : List Char) : Except Exn Int :=
  -- No part of a split text is empty, it has a last character.
  match TIMES.lookup (txt.getLastD ' ') with
  | some unit => do
      let value ← float (String.ofList txt.dropLast)
      (value.scale unit).int
  | none => .error (.runtime ("Cannot find time, needs to be in format have time indicator " ++
      "['Y', 'M', 'w', 'd', 'h', 'm', 's'] "))

def getDeltaTime (txt : String) : Except Exn Int :=
  (HostFile.split (StringType.strip HostFile.isspace txt.toList)).foldlM
    (fun seconds txt => do
      let value ← partValue txt
      return seconds + value) 0

/-- One unit of the loop of `secondsToHRDelta`: the text so far, and the seconds left. -/
def addUnit (walk : String × Int) (unit : Char × Nat) : String × Int :=
  let decimal := walk.2.tdiv unit.2
  (if 0 < decimal then walk.1 ++ toString decimal ++ String.singleton unit.1 ++ " " else walk.1,
    walk.2 - decimal * unit.2)

def secondsToHRDelta (seconds : Int) : String :=
  String.ofList (StringType.strip HostFile.isspace
    (TIMES.foldl addUnit ("", seconds)).1.toList)

/-- The words of the parts that are not zero. -/
def wordsOf (parts : List ((Char × Nat) × Nat)) : List (List Char) :=
  parts.filterMap (fun part =>
    if 0 < part.2 then some (Nat.toDigits 10 part.2 ++ [part.1.1]) else none)

/-- The loop writes the greedy parts. -/
theorem foldl_addUnit (units : List (Char × Nat)) (text : String) (seconds : Nat) :
    units.foldl addUnit (text, (seconds : Int)) =
      (text ++ String.ofList ((wordsOf (greedy units seconds)).flatMap (· ++ [' '])),
        (leftOver units seconds : Int)) := by
  induction units generalizing text seconds with
  | nil => simp [wordsOf, greedy, leftOver]
  | cons unit units induction =>
      obtain ⟨key, value⟩ := unit
      have rest : (seconds : Int) - ((seconds / value : Nat) : Int) * value =
          ((seconds % value : Nat) : Int) := by
        have split := Nat.div_add_mod' seconds value
        omega
      have decimal : (seconds : Int).tdiv value = ((seconds / value : Nat) : Int) := rfl
      rw [List.foldl_cons, addUnit]
      simp only [decimal, rest]
      rw [induction, leftOver, leftOver, List.foldl_cons]
      refine Prod.ext ?_ rfl
      by_cases positive : 0 < seconds / value
      · have isPositive : (0 : Int) < ((seconds / value : Nat) : Int) := by exact_mod_cast positive
        have digits : toString ((seconds / value : Nat) : Int) =
            String.ofList (Nat.toDigits 10 (seconds / value)) := by
          rw [← VFS.str_ofNat, VFS.str, String.ofList_toList]
          rfl
        apply String.toList_inj.mp
        simp only [if_pos isPositive, digits]
        simp [wordsOf, greedy, positive]
      · have notPositive : ¬ (0 : Int) < ((seconds / value : Nat) : Int) := by
          exact_mod_cast positive
        apply String.toList_inj.mp
        simp only [if_neg notPositive]
        simp [wordsOf, greedy, positive]

/-- Words with a blank behind each are the parts of their text. -/
theorem split_blanks {words : List (List Char)}
    (plain : ∀ word ∈ words, word ≠ [] ∧ ∀ char ∈ word, HostFile.isspace char = false) :
    HostFile.split (words.flatMap (· ++ [' '])) = words := by
  induction words with
  | nil => rfl
  | cons word words induction =>
      obtain ⟨⟨nonempty, clean⟩, others⟩ := List.forall_mem_cons.mp plain
      have space : HostFile.isspace ' ' = true := by decide
      rw [List.flatMap_cons, List.append_assoc, List.singleton_append,
        HostFile.split_append_cons word space, HostFile.split_word nonempty clean,
        induction others]
      rfl

theorem words_plain {parts : List ((Char × Nat) × Nat)}
    (letters : ∀ part ∈ parts, HostFile.isspace part.1.1 = false) :
    ∀ word ∈ wordsOf parts, word ≠ [] ∧ ∀ char ∈ word, HostFile.isspace char = false := by
  intro word member
  obtain ⟨part, inParts, isWord⟩ := List.mem_filterMap.mp member
  split at isWord
  · cases isWord
    refine ⟨by simp, ?_⟩
    intro char member
    rcases List.mem_append.mp member with digit | isUnit
    · exact HostFile.isspace_of_digit (.inl ((digits_toDigits part.2).2 char digit))
    · rw [List.mem_singleton.mp isUnit]
      exact letters part inParts
  · cases isWord

/-- A unit with its digits counts as much as they say. -/
theorem partValue_digits {unit : Char} {value : Nat} (isUnit : TIMES.lookup unit = some value)
    (amount : Nat) :
    partValue (Nat.toDigits 10 amount ++ [unit]) = .ok ((amount * value : Nat) : Int) := by
  have last : (Nat.toDigits 10 amount ++ [unit]).getLastD ' ' = unit := by simp
  have front : (Nat.toDigits 10 amount ++ [unit]).dropLast = Nat.toDigits 10 amount := by simp
  have read : float (String.ofList (Nat.toDigits 10 amount)) = .ok (.finite (amount : Rat)) := by
    rw [(digits_toDigits amount).float String.toList_ofList, number_toDigits]
  have scaled : (PyFloat.finite (amount : Rat)).scale value =
      .finite (((amount * value : Nat) : Int) : Rat) := by
    rw [PyFloat.scale]
    push_cast
    rfl
  rw [partValue, last, isUnit, front]
  refine bind_eq_ok_iff.mpr ⟨_, read, ?_⟩
  rw [scaled, PyFloat.int, Rat.num_intCast, Rat.den_intCast]
  simp

/-- Adding up the words of parts. -/
theorem foldlM_words {parts : List ((Char × Nat) × Nat)}
    (known : ∀ part ∈ parts, TIMES.lookup part.1.1 = some part.1.2) (seconds : Nat) :
    (wordsOf parts).foldlM (fun seconds txt => do
      let value ← partValue txt
      return seconds + value) (seconds : Int) =
        (.ok ((seconds + weighted parts : Nat) : Int) : Except Exn Int) := by
  induction parts generalizing seconds with
  | nil => rfl
  | cons part parts induction =>
      obtain ⟨isUnit, others⟩ := List.forall_mem_cons.mp known
      obtain ⟨⟨unit, value⟩, amount⟩ := part
      have sum : weighted (((unit, value), amount) :: parts) =
          amount * value + weighted parts := by
        rw [weighted, weighted, List.map_cons, List.sum_cons]
      rw [sum, ← Nat.add_assoc]
      by_cases positive : 0 < amount
      · have words : wordsOf (((unit, value), amount) :: parts) =
            (Nat.toDigits 10 amount ++ [unit]) :: wordsOf parts := by
          simp [wordsOf, positive]
        rw [words, List.foldlM_cons]
        refine bind_eq_ok_iff.mpr ⟨((seconds + amount * value : Nat) : Int), ?_,
          induction others (seconds + amount * value)⟩
        exact bind_eq_ok_iff.mpr ⟨_, partValue_digits isUnit amount, rfl⟩
      · have zero : amount = 0 := by omega
        have words : wordsOf (((unit, value), amount) :: parts) = wordsOf parts := by
          simp [wordsOf, positive]
        rw [words, zero, Nat.zero_mul, Nat.add_zero]
        exact induction others seconds

/-- The units of greedy parts are the units they were made for. -/
theorem mem_units_of_greedy {units : List (Char × Nat)} (seconds : Nat)
    {part : (Char × Nat) × Nat} (member : part ∈ greedy units seconds) : part.1 ∈ units := by
  rw [← greedy_fst units seconds]
  exact List.mem_map_of_mem member

/-- The parts of a delta time are the greedy ones. -/
theorem split_secondsToHRDelta (seconds : Nat) :
    HostFile.split (secondsToHRDelta seconds).toList = wordsOf (greedy TIMES seconds) := by
  have letters : ∀ unit ∈ TIMES, HostFile.isspace unit.1 = false := by decide
  have plain := words_plain (fun part member => letters part.1 (mem_units_of_greedy seconds member))
  rw [secondsToHRDelta, foldl_addUnit, String.toList_ofList, HostFile.split_strip,
    String.empty_append, String.toList_ofList, split_blanks plain]

/-- A delta time in greedy parts is read as the seconds that it was written for. -/
theorem getDeltaTime_secondsToHRDelta (seconds : Nat) :
    getDeltaTime (secondsToHRDelta seconds) = .ok (seconds : Int) := by
  have known : ∀ unit ∈ TIMES, TIMES.lookup unit.1 = some unit.2 := by decide
  have whole := weighted_greedy TIMES seconds
  have nothing : leftOver TIMES seconds = 0 := Nat.mod_one _
  rw [nothing, Nat.add_zero] at whole
  have sum := foldlM_words
    (fun part member => known part.1 (mem_units_of_greedy seconds member)) 0
  rw [Nat.zero_add, whole] at sum
  rw [getDeltaTime, HostFile.split_strip, split_secondsToHRDelta]
  exact sum

end Time

namespace Duration

/-- A duration is read as the seconds that it was written for. -/
theorem cleanText_greedy {seconds : Nat} (inRange : seconds < range) :
    cleanText (String.ofList (textOf (greedy units seconds))) = .ok (seconds : Int) := by
  have isUnits : ((greedy units seconds).map spelled).map Prod.fst = units := by
    rw [List.map_map]
    exact greedy_fst units seconds
  have whole := weighted_greedy units seconds
  have nothing : leftOver units seconds = 0 := Nat.mod_one _
  rw [nothing, Nat.add_zero] at whole
  rw [textOf, cleanText_parts (spelled_parts (greedy_fst units seconds)) isUnits, total_spelled,
    whole, if_pos inRange]

/-- The text of days, hours, minutes and seconds, without those that are zero. -/
def unitText (days hours minutes seconds : Nat) : String :=
  String.ofList (textOf
    [(('d', 86400), days), (('h', 3600), hours), (('m', 60), minutes), (('s', 1), seconds)])

/-- Both notations are lossless for a number of seconds. -/
structure Lossless (count : Nat) : Prop where
  cleaned : ∃ days hours minutes seconds, hours < 24 ∧ minutes < 60 ∧ seconds < 60 ∧
    toText (.int count) = .ok (unitText days hours minutes seconds) ∧
      clean (.str (unitText days hours minutes seconds)) = .ok (count : Int)
  greedyParts :
    HostFile.split (Time.secondsToHRDelta count).toList = Time.wordsOf (greedy Time.TIMES count)
  delta : Time.getDeltaTime (Time.secondsToHRDelta count) = .ok (count : Int)

theorem lossless_of_lt {count : Nat} (inRange : count < range) : Lossless count := by
  refine ⟨?_, Time.split_secondsToHRDelta count, Time.getDeltaTime_secondsToHRDelta count⟩
  refine ⟨count / 86400, count % 86400 / 3600, count % 86400 % 3600 / 60,
    count % 86400 % 3600 % 60 / 1, ?_, ?_, ?_, toText_int count, cleanText_greedy inRange⟩
  all_goals omega

/-- A text with integer parts for its units. -/
structure UnitsText where
  parts : List ((Char × Nat) × Option (List Char))
  all : Parts parts
  isUnits : parts.map Prod.fst = units

def UnitsText.text (written : UnitsText) : String :=
  String.ofList (written.parts.flatMap partText)

/-- The seconds of a number of days that no `timedelta` counts. -/
def tooLong : UnitsText where
  parts := [(('d', 86400), some "1000000000".toList), (('h', 3600), none), (('m', 60), none),
    (('s', 1), none)]
  all := by
    refine ⟨by decide, by decide, ?_⟩
    intro part member digits isDigits
    simp only [List.mem_cons, List.not_mem_nil, or_false] at member
    rcases member with rfl | rfl | rfl | rfl <;> cases isDigits
    exact ⟨by decide, List.all_eq_true.mp rfl⟩
  isUnits := rfl

/-- Both notations are lossless for each number of seconds below `2 ^ 32`, and a text
with integer parts counts their weighted sum as far as a `timedelta` reaches. -/
theorem durations_lossless (count : Fin (2 ^ 32)) (written : UnitsText) :
    Lossless count ∧
      clean (.str written.text) =
        if total written.parts < range then .ok (total written.parts : Int)
        else .error .overflowError := by
  have below : (count : Nat) < range := Nat.lt_trans count.isLt (by decide)
  exact ⟨lossless_of_lt below, cleanText_parts written.all written.isUnits⟩

/-- A thousand million days are not read as their seconds. -/
theorem tooLong_not_counted :
    ¬ ∀ written : UnitsText, clean (.str written.text) = .ok (total written.parts : Int) := by
  intro counted
  have read : clean (.str tooLong.text) = _ := cleanText_parts tooLong.all tooLong.isUnits
  rw [counted tooLong, if_neg (by decide)] at read
  cases read

end Duration

end JumpscaleX
