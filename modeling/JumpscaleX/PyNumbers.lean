import Mathlib.Data.List.TakeWhile
import Mathlib.Data.Rat.Floor
import JumpscaleX.VFSKeys

/-!
# Numbers as texts

`float` of a text and `round` of a number.  Floats are exact rationals here, with
the infinities and the value that is no number beside them.
-/

namespace JumpscaleX

/-- What `float` returns. -/
inductive PyFloat where
  | finite (value : Rat)
  | infinite (negative : Bool)
  | nan
  deriving DecidableEq

namespace PyFloat

def neg : PyFloat → PyFloat
  | .finite value => .finite (-value)
  | .infinite negative => .infinite (!negative)
  | .nan => .nan

/-- `int` of a float. -/
def int : PyFloat → Except Exn Int
  | .finite value => .ok (value.num.tdiv value.den)
  | .infinite _ => .error .overflowError
  | .nan => .error (.valueError "cannot convert float NaN to integer")

/-- A float times a number that is not negative. -/
def scale (float : PyFloat) (number : Nat) : PyFloat :=
  match float with
  | .finite value => .finite (value * number)
  | .infinite negative => if number = 0 then .nan else .infinite negative
  | .nan => .nan

end PyFloat

namespace PyText

/-- Decimal digits with single underscores between them, or none at all. -/
def digitPart (chars : List Char) : Option (List Char) :=
  if chars = [] then some [] else (digits chars).map (fun _ => chars.filter (· ≠ '_'))

/-- The exponent behind an `e`. -/
def exponent : List Char → Option Int
  | '-' :: chars => (digits chars).map (fun number => -number)
  | '+' :: chars => (digits chars).map (fun number => number)
  | chars => (digits chars).map (fun number => number)

/-- Ten to the power of an exponent. -/
def tenTo (exponent : Int) : Rat :=
  (10 : Rat) ^ exponent

/-- The number before an exponent. -/
def mantissa (chars : List Char) : Option Rat :=
  let whole := chars.takeWhile (· ≠ '.')
  let fraction := (chars.dropWhile (· ≠ '.')).drop 1
  match digitPart whole, digitPart fraction with
  | some front, some back =>
      if front = [] ∧ back = [] then none
      else some ((Nat.ofDigitChars 10 (front ++ back) 0 : Nat) * tenTo (-(back.length : Int)))
  | _, _ => none

/-- A number without a sign. -/
def unsigned (chars : List Char) : Option PyFloat :=
  let lowered := chars.map Char.toLower
  if lowered = "inf".toList ∨ lowered = "infinity".toList then some (.infinite false)
  else if lowered = "nan".toList then some .nan
  else
    let isExponent (char : Char) : Bool := char = 'e' || char = 'E'
    let front := chars.takeWhile (fun char => !isExponent char)
    match chars.dropWhile (fun char => !isExponent char) with
    | [] => (mantissa front).map .finite
    | _ :: power =>
        match mantissa front, exponent power with
        | some number, some power => some (.finite (number * tenTo power))
        | _, _ => none

/-- `float`, of a text with ASCII digits. -/
def float (text : String) : Except Exn PyFloat :=
  let number : Option PyFloat :=
    match StringType.strip StringType.isSpace text.toList with
    | '-' :: chars => (unsigned chars).map PyFloat.neg
    | '+' :: chars => unsigned chars
    | chars => unsigned chars
  match number with
  | some number => .ok number
  | none => .error (.valueError "could not convert string to float")

/-- A text of decimal digits. -/
def Digits (chars : List Char) : Prop :=
  chars ≠ [] ∧ ∀ char ∈ chars, char.isDigit = true

/-- The number that digits spell. -/
def number (chars : List Char) : Nat :=
  Nat.ofDigitChars 10 chars 0

theorem digits_toDigits (number : Nat) : Digits (Nat.toDigits 10 number) :=
  ⟨Nat.toDigits_ne_nil, fun _ member => VFS.isDigit_of_mem member⟩

theorem number_toDigits (count : Nat) : number (Nat.toDigits 10 count) = count :=
  Nat.ofDigitChars_ten_toDigits

section

variable {chars : List Char} (spelled : Digits chars)
include spelled

/-- No character of a number is one that is not a digit. -/
theorem Digits.not_mem {char : Char} (other : char.isDigit = false) : char ∉ chars := by
  intro member
  rw [spelled.2 char member] at other
  cases other

/-- Every character of a number differs from one that is not a digit. -/
theorem Digits.differs (char : Char) (other : char.isDigit = false) :
    ∀ digit ∈ chars, decide (digit ≠ char) = true := by
  intro digit member
  rw [decide_eq_true_iff]
  rintro rfl
  exact spelled.not_mem other member

theorem Digits.stripped : StringType.strip StringType.isSpace chars = chars :=
  VFS.strip_of_forall_not (fun char member => VFS.isSpace_of_isDigit (spelled.2 char member))

theorem Digits.digits : PyText.digits chars = some (number chars) := by
  have all : chars.all Char.isDigit = true := List.all_eq_true.mpr spelled.2
  have some : chars.isEmpty = false := by simpa using spelled.1
  have whole : splitChars '_' chars = [chars] :=
    VFS.splitChars_of_not_mem (spelled.not_mem (by decide))
  simp only [PyText.digits, whole, List.all_cons, List.all_nil, some, all, Bool.not_false,
    Bool.and_true, if_true, List.flatten_cons, List.flatten_nil, List.append_nil]
  rfl

theorem Digits.mantissa : PyText.mantissa chars = some (number chars : Rat) := by
  have noPoint := spelled.differs '.' (by decide)
  have whole : chars.takeWhile (· ≠ '.') = chars := List.takeWhile_eq_self_iff.mpr noPoint
  have nothing : chars.dropWhile (· ≠ '.') = [] := List.dropWhile_eq_nil_iff.mpr noPoint
  have kept : chars.filter (· ≠ '_') = chars :=
    List.filter_eq_self.mpr (spelled.differs '_' (by decide))
  have front : digitPart chars = some chars := by
    rw [digitPart, if_neg spelled.1, spelled.digits, Option.map_some, kept]
  have back : digitPart [] = some [] := rfl
  rw [PyText.mantissa]
  simp only [whole, nothing, List.drop_nil, front, back]
  rw [if_neg (fun both => spelled.1 both.1)]
  simp [tenTo, number]

/-- Digits are read as the number that they spell. -/
theorem Digits.unsigned : PyText.unsigned chars = some (.finite (number chars)) := by
  have noExponent : ∀ digit ∈ chars, (!(decide (digit = 'e') || decide (digit = 'E'))) = true := by
    intro digit member
    have small := spelled.differs 'e' (by decide) digit member
    have large := spelled.differs 'E' (by decide) digit member
    simp_all
  have word : ∀ {first : Char} {rest : List Char}, first.isDigit = false →
      chars.map Char.toLower ≠ first :: rest := by
    intro first rest other same
    have kept : chars.map Char.toLower = chars := by
      rw [List.map_congr_left (fun char member =>
        Letters.toLower_of_isDigit (spelled.2 char member)), List.map_id']
    rw [kept] at same
    exact spelled.not_mem other (same ▸ List.mem_cons_self)
  have front := List.takeWhile_eq_self_iff.mpr noExponent
  have nothing := List.dropWhile_eq_nil_iff.mpr noExponent
  rw [PyText.unsigned]
  simp only [front, nothing, spelled.mantissa, Option.map_some]
  have noNan : chars.map Char.toLower ≠ "nan".toList := word (by decide)
  have noInf : chars.map Char.toLower ≠ "inf".toList := word (by decide)
  have noInfinity : chars.map Char.toLower ≠ "infinity".toList := word (by decide)
  rw [if_neg (not_or.mpr ⟨noInf, noInfinity⟩), if_neg noNan]

theorem Digits.float {text : String} (isText : text.toList = chars) :
    PyText.float text = .ok (.finite (number chars)) := by
  rw [PyText.float, isText, spelled.stripped]
  have minus := spelled.not_mem (by decide : '-'.isDigit = false)
  have plus := spelled.not_mem (by decide : '+'.isDigit = false)
  have read := spelled.unsigned
  cases chars with
  | nil => exact (spelled.1 rfl).elim
  | cons first rest =>
      rw [List.mem_cons, not_or] at minus plus
      simp [Ne.symm minus.1, Ne.symm plus.1, read]

end

/-- Nothing is stripped from a text whose ends stay. -/
theorem strip_eq_self {drop : Char → Bool} {first : Char} {rest : List Char}
    (head : drop first = false)
    (last : ∀ char, (first :: rest).getLast? = some char → drop char = false) :
    StringType.strip drop (first :: rest) = first :: rest := by
  have front : (first :: rest).dropWhile drop = first :: rest :=
    List.dropWhile_cons_of_neg (by simp [head])
  rw [StringType.strip, front]
  cases isReversed : (first :: rest).reverse with
  | nil => simp at isReversed
  | cons final others =>
      have isLast : (first :: rest).getLast? = some final := by
        rw [← List.head?_reverse, isReversed, List.head?_cons]
      rw [List.dropWhile_cons_of_neg (by simp [last final isLast]), ← isReversed,
        List.reverse_reverse]

end PyText

end JumpscaleX
