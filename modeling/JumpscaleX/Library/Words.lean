import Mathlib.Data.Nat.Digits.Defs

/-!
# Numbers in a fixed number of bytes

The bytes of a number with the least significant one first, and the number that
bytes stand for.
-/

namespace Words

/-- The lowest bytes of a number. -/
def bytes : Nat → Nat → List Nat
  | 0, _ => []
  | width + 1, number => number % 256 :: bytes width (number / 256)

/-- The number that bytes stand for. -/
def value (data : List Nat) : Nat :=
  Nat.ofDigits 256 data

@[simp] theorem length_bytes (width number : Nat) : (bytes width number).length = width := by
  induction width generalizing number with
  | zero => rfl
  | succ width induction => rw [bytes, List.length_cons, induction]

theorem value_bytes_mod (width number : Nat) :
    value (bytes width number) = number % 256 ^ width := by
  induction width generalizing number with
  | zero => simp [bytes, value, Nat.mod_one]
  | succ width induction =>
      have step := induction (number / 256)
      rw [value] at step
      rw [bytes, value, Nat.ofDigits_cons, step, Nat.pow_succ', Nat.mod_mul]

/-- A number that has enough bytes is read back. -/
theorem value_bytes {width number : Nat} (small : number < 256 ^ width) :
    value (bytes width number) = number := by
  rw [value_bytes_mod, Nat.mod_eq_of_lt small]

theorem bytes_append (width more number : Nat) :
    bytes (width + more) number = bytes width number ++ bytes more (number / 256 ^ width) := by
  induction width generalizing number with
  | zero => simp [bytes]
  | succ width induction =>
      rw [Nat.succ_add, bytes, induction, bytes, List.cons_append, Nat.div_div_eq_div_mul,
        Nat.pow_succ']

/-- The low and the high part of a number. -/
theorem value_append_bytes {width low : Nat} (more high : Nat) (small : low < 256 ^ width)
    (smallHigh : high < 256 ^ more) :
    value (bytes width low ++ bytes more high) = low + 256 ^ width * high := by
  have first := value_bytes small
  have second := value_bytes smallHigh
  rw [value] at first second
  rw [value, Nat.ofDigits_append, first, second, length_bytes]

end Words
