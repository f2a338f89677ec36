import Mathlib.Tactic.Common
import Mathlib.Tactic.SplitIfs

/-!
# Letters of ASCII

The kinds of characters and their changes of case, told by the numbers of the characters.
-/

namespace Letters

variable {char : Char}

theorem toLower_of_not_upper (other : ¬ (char.val ≥ 'A'.val ∧ char.val ≤ 'Z'.val)) :
    char.toLower = char := by
  unfold Char.toLower
  rw [dif_neg other]

theorem toNat_toLower (char : Char) :
    char.toLower.toNat =
      if 65 ≤ char.toNat ∧ char.toNat ≤ 90 then char.toNat + 32 else char.toNat := by
  by_cases upper : char.val ≥ 'A'.val ∧ char.val ≤ 'Z'.val
  · have lowered : char.toLower.val = char.val + 32 := by
      unfold Char.toLower
      rw [dif_pos upper]
      rfl
    have bounds : 65 ≤ char.toNat ∧ char.toNat ≤ 90 := upper
    rw [if_pos bounds]
    show char.toLower.val.toNat = char.val.toNat + 32
    have most : char.val.toNat ≤ 90 := bounds.2
    rw [lowered, UInt32.toNat_add]
    show (char.val.toNat + 32) % 2 ^ 32 = char.val.toNat + 32
    omega
  · have bounds : ¬ (65 ≤ char.toNat ∧ char.toNat ≤ 90) := upper
    rw [toLower_of_not_upper upper, if_neg bounds]

theorem toNat_toUpper (char : Char) :
    char.toUpper.toNat =
      if 97 ≤ char.toNat ∧ char.toNat ≤ 122 then char.toNat - 32 else char.toNat := by
  by_cases lower : 'a'.val ≤ char.val ∧ char.val ≤ 'z'.val
  · have raised : char.toUpper.val = char.val + ('A'.val - 'a'.val) := by
      unfold Char.toUpper
      rw [dif_pos lower]
    have bounds : 97 ≤ char.toNat ∧ char.toNat ≤ 122 := lower
    rw [if_pos bounds]
    show char.toUpper.val.toNat = char.val.toNat - 32
    have least : 97 ≤ char.val.toNat := bounds.1
    have most : char.val.toNat ≤ 122 := bounds.2
    have step : ('A'.val - 'a'.val).toNat = 4294967264 := rfl
    rw [raised, UInt32.toNat_add, step]
    omega
  · have bounds : ¬ (97 ≤ char.toNat ∧ char.toNat ≤ 122) := lower
    unfold Char.toUpper
    rw [dif_neg lower, if_neg bounds]

theorem isLower_iff (char : Char) :
    char.isLower = true ↔ 97 ≤ char.toNat ∧ char.toNat ≤ 122 := by
  unfold Char.isLower
  rw [Bool.and_eq_true, decide_eq_true_eq, decide_eq_true_eq]
  exact Iff.rfl

theorem isUpper_iff (char : Char) :
    char.isUpper = true ↔ 65 ≤ char.toNat ∧ char.toNat ≤ 90 := by
  unfold Char.isUpper
  rw [decide_eq_true_eq]
  exact Iff.rfl

theorem isDigit_iff (char : Char) :
    char.isDigit = true ↔ 48 ≤ char.toNat ∧ char.toNat ≤ 57 := by
  unfold Char.isDigit
  rw [Bool.and_eq_true, decide_eq_true_eq, decide_eq_true_eq]
  exact Iff.rfl

theorem isAlpha_iff (char : Char) : char.isAlpha = true ↔
    (65 ≤ char.toNat ∧ char.toNat ≤ 90) ∨ (97 ≤ char.toNat ∧ char.toNat ≤ 122) := by
  unfold Char.isAlpha
  rw [Bool.or_eq_true, isUpper_iff, isLower_iff]

theorem isAlphanum_iff (char : Char) : char.isAlphanum = true ↔
    ((65 ≤ char.toNat ∧ char.toNat ≤ 90) ∨ (97 ≤ char.toNat ∧ char.toNat ≤ 122)) ∨
      (48 ≤ char.toNat ∧ char.toNat ≤ 57) := by
  unfold Char.isAlphanum
  rw [Bool.or_eq_true, isAlpha_iff, isDigit_iff]

theorem toLower_toLower (char : Char) : char.toLower.toLower = char.toLower := by
  apply Char.toNat_inj.mp
  rw [toNat_toLower, toNat_toLower]
  split_ifs <;> omega

theorem toLower_toUpper (char : Char) : char.toUpper.toLower = char.toLower := by
  apply Char.toNat_inj.mp
  rw [toNat_toLower, toNat_toLower, toNat_toUpper]
  split_ifs <;> omega

theorem toUpper_toLower (char : Char) : char.toLower.toUpper = char.toUpper := by
  apply Char.toNat_inj.mp
  rw [toNat_toUpper, toNat_toUpper, toNat_toLower]
  split_ifs <;> omega

/-- A character that is no letter comes from itself alone. -/
theorem toLower_eq_iff {mark : Char} (before : mark.toNat < 97) (same : mark.toLower = mark) :
    char.toLower = mark ↔ char = mark := by
  constructor
  · intro lowered
    have code := toNat_toLower char
    rw [lowered] at code
    split at code
    · omega
    · exact (Char.toNat_inj.mp code).symm
  · intro equal
    rw [equal, same]

theorem toLower_of_isDigit (digit : char.isDigit = true) : char.toLower = char := by
  have code := toNat_toLower char
  rw [isDigit_iff] at digit
  rw [if_neg (by omega)] at code
  exact Char.toNat_inj.mp code

theorem isUpper_toUpper (char : Char) : char.toUpper.isUpper = char.isAlpha := by
  rw [Bool.eq_iff_iff, isUpper_iff, isAlpha_iff, toNat_toUpper]
  split <;> omega

theorem isUpper_toLower (char : Char) : char.toLower.isUpper = false := by
  rw [← Bool.not_eq_true, isUpper_iff, toNat_toLower]
  split <;> omega

theorem isLower_toLower (char : Char) : char.toLower.isLower = char.isAlpha := by
  rw [Bool.eq_iff_iff, isLower_iff, isAlpha_iff, toNat_toLower]
  split <;> omega

theorem isAlphanum_toLower (char : Char) : char.toLower.isAlphanum = char.isAlphanum := by
  rw [Bool.eq_iff_iff, isAlphanum_iff, isAlphanum_iff, toNat_toLower]
  split <;> omega

theorem isAlphanum_toUpper (char : Char) : char.toUpper.isAlphanum = char.isAlphanum := by
  rw [Bool.eq_iff_iff, isAlphanum_iff, isAlphanum_iff, toNat_toUpper]
  split <;> omega

/-- What is no letter has no case. -/
theorem toUpper_of_not_isAlpha (noLetter : ¬ char.isAlpha = true) :
    char.toUpper = char.toLower := by
  rw [isAlpha_iff] at noLetter
  apply Char.toNat_inj.mp
  rw [toNat_toUpper, toNat_toLower]
  split_ifs <;> omega

end Letters
