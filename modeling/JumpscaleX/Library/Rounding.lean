import Mathlib.Data.Rat.Floor

/-!
# Rounding to the nearest whole number

The nearest whole number of a rational, and the even one of two that are equally
near.
-/

namespace Rounding

/-- The nearest whole number. -/
def halfEven (number : Rat) : Int :=
  let low := number.floor
  let rest := number - low
  if rest < 1 / 2 then low
  else if 1 / 2 < rest then low + 1
  else if low % 2 = 0 then low
  else low + 1

/-- A whole number is its nearest one. -/
@[simp] theorem halfEven_intCast (number : Int) : halfEven number = number := by
  have low : ((number : Rat)).floor = number := Rat.floor_intCast number
  simp [halfEven, low]

@[simp] theorem halfEven_natCast (number : Nat) : halfEven number = number := by
  have whole := halfEven_intCast number
  simpa using whole

end Rounding
