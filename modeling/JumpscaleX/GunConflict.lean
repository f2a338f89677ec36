import JumpscaleX.GunUtils

/-!
# Conflicts of the GunDB server

`HAM` with the states as they come in a message: missing, or anything that
`float` takes for a number.  What it is to decide between two values is stated
for both peers, each with the value of the other as the incoming one.
-/

namespace JumpscaleX

open Fallible

namespace Gun

/-- A state as `HAM` compares it: 0 for a missing one, and else what `float`
makes of it. -/
def stateNumber (float : PyVal → Except Exn Rat) (state : PyVal) : Except Exn Rat :=
  if state.truthy then float state else .ok 0

/-- The comparisons of `HAM`, with any number as the state of the machine. -/
def hamOf (str : PyVal → String) (machineState incomingState currentState : Rat)
    (incomingValue currentValue : PyVal) : Ham :=
  let incoming := comparedText str incomingValue
  let current := comparedText str currentValue
  if machineState < incomingState then .defer
  else if incomingState < currentState then .historical
  else if incomingState < currentState then .incoming
  else if incomingState = currentState then
    if incoming = current then .state
    else if incoming < current then .current
    else .incoming
  else .err incoming current incomingState currentState

/-- `HAM`, from the states as they are given. -/
def ham (str : PyVal → String) (float : PyVal → Except Exn Rat) (machineState : Rat)
    (incomingState currentState incomingValue currentValue : PyVal) : Except Exn Ham := do
  let incoming ← stateNumber float incomingState
  let current ← stateNumber float currentState
  return hamOf str machineState incoming current incomingValue currentValue

theorem HAM_eq_hamOf (str : PyVal → String) (machineState : Int) :
    HAM str machineState = hamOf str machineState := rfl

/-- The decision, seen from the other value. -/
def Ham.swapped : Ham → Ham
  | .incoming => .current
  | .current => .incoming
  | decision => decision

def Ham.invalid : Ham → Bool
  | .err _ _ _ _ => true
  | _ => false

/-- The value that a peer keeps. -/
def Ham.kept (incomingValue currentValue : PyVal) : Ham → PyVal
  | .incoming => incomingValue
  | _ => currentValue

/-- What is asked of the decision between an incoming and a current value.
Another peer has the incoming value, and the current one comes in. -/
structure Decides (str : PyVal → String) (float : PyVal → Except Exn Rat)
    (machineState : Rat) (incomingState currentState incomingValue currentValue : PyVal)
    (incoming current : Rat) : Prop where
  total : ∃ decision, ham str float machineState incomingState currentState incomingValue
    currentValue = .ok decision ∧ decision.invalid = false
  historical : ham str float machineState incomingState currentState incomingValue
    currentValue = .ok .historical ↔ incoming < current
  newer : current < incoming → ham str float machineState incomingState currentState
    incomingValue currentValue = .ok .incoming
  /-- With equal states nothing but the values decides. -/
  values : incoming = current → ∀ otherMachine otherState other,
    stateNumber float otherState = .ok other → other ≤ otherMachine →
    ham str float otherMachine otherState otherState incomingValue currentValue =
      ham str float machineState incomingState currentState incomingValue currentValue
  swapped : incoming = current → ∀ otherMachine, current ≤ otherMachine →
    ham str float otherMachine currentState incomingState currentValue incomingValue =
      Ham.swapped <$>
        ham str float machineState incomingState currentState incomingValue currentValue
  same : incoming = current → ∀ otherMachine, current ≤ otherMachine → ∀ mine theirs,
    ham str float machineState incomingState currentState incomingValue currentValue =
      .ok mine →
    ham str float otherMachine currentState incomingState currentValue incomingValue =
      .ok theirs →
    mine.kept incomingValue currentValue = theirs.kept currentValue incomingValue

section

variable {str : PyVal → String} {float : PyVal → Except Exn Rat}
variable {machineState incoming current : Rat}
variable {incomingState currentState incomingValue currentValue : PyVal}

/-! ### The rows of the table -/

variable (str machineState incomingValue currentValue) in
theorem ham_eq (incomingNumber : stateNumber float incomingState = .ok incoming)
    (currentNumber : stateNumber float currentState = .ok current) :
    ham str float machineState incomingState currentState incomingValue currentValue =
      .ok (hamOf str machineState incoming current incomingValue currentValue) := by
  rw [ham, incomingNumber, currentNumber]
  rfl

theorem hamOf_older (timely : incoming ≤ machineState) (older : incoming < current) :
    hamOf str machineState incoming current incomingValue currentValue = .historical := by
  rw [hamOf, if_neg (not_lt.mpr timely), if_pos older]

/-- The row of a newer value is missing. -/
theorem hamOf_newer (timely : incoming ≤ machineState) (newer : current < incoming) :
    hamOf str machineState incoming current incomingValue currentValue =
      .err (comparedText str incomingValue) (comparedText str currentValue) incoming
        current := by
  have notOlder : ¬ incoming < current := not_lt.mpr newer.le
  rw [hamOf, if_neg (not_lt.mpr timely), if_neg notOlder, if_neg notOlder, if_neg newer.ne']

variable (str incomingValue currentValue) in
theorem hamOf_equal {state : Rat} (timely : state ≤ machineState) :
    hamOf str machineState state state incomingValue currentValue =
      if comparedText str incomingValue = comparedText str currentValue then .state
      else if comparedText str incomingValue < comparedText str currentValue then .current
      else .incoming := by
  have notOlder : ¬ state < state := lt_irrefl state
  rw [hamOf, if_neg (not_lt.mpr timely), if_neg notOlder, if_neg notOlder, if_pos rfl]

/-- With equal states, the peers decide for the same text. -/
theorem hamOf_swapped {state otherMachine : Rat} (timely : state ≤ machineState)
    (otherTimely : state ≤ otherMachine) :
    hamOf str otherMachine state state currentValue incomingValue =
      (hamOf str machineState state state incomingValue currentValue).swapped := by
  rw [hamOf_equal _ _ _ timely, hamOf_equal _ _ _ otherTimely]
  rcases lt_trichotomy (comparedText str incomingValue) (comparedText str currentValue)
    with less | same | more
  · rw [if_neg less.ne', if_neg less.not_gt, if_neg less.ne, if_pos less]
    rfl
  · rw [if_pos same, if_pos same.symm]
    rfl
  · rw [if_neg more.ne, if_pos more, if_neg more.ne', if_neg more.not_gt]
    rfl

/-! ### When the decision is as it is to be -/

theorem kept_eq_iff {state otherMachine : Rat} (timely : state ≤ machineState)
    (otherTimely : state ≤ otherMachine) :
    (hamOf str machineState state state incomingValue currentValue).kept incomingValue
          currentValue =
        (hamOf str otherMachine state state currentValue incomingValue).kept currentValue
          incomingValue ↔
      (comparedText str incomingValue = comparedText str currentValue →
        incomingValue = currentValue) := by
  rw [hamOf_swapped timely otherTimely, hamOf_equal _ _ _ timely]
  rcases lt_trichotomy (comparedText str incomingValue) (comparedText str currentValue)
    with less | same | more
  · rw [if_neg less.ne, if_pos less]
    exact iff_of_true rfl (fun same => absurd same less.ne)
  · rw [if_pos same]
    constructor
    · intro kept _
      exact kept.symm
    · intro equal
      exact (equal same).symm
  · rw [if_neg more.ne', if_neg more.not_gt]
    exact iff_of_true rfl (fun same => absurd same more.ne')

/-- The decision is total and antisymmetric exactly when the incoming value is
not newer and, of equal states, no two different values have one text. -/
theorem decides_iff (incomingNumber : stateNumber float incomingState = .ok incoming)
    (currentNumber : stateNumber float currentState = .ok current)
    (timely : incoming ≤ machineState) :
    Decides str float machineState incomingState currentState incomingValue currentValue
        incoming current ↔
      incoming ≤ current ∧
        (incoming = current →
          comparedText str incomingValue = comparedText str currentValue →
          incomingValue = currentValue) := by
  have decision := ham_eq str machineState incomingValue currentValue incomingNumber
    currentNumber
  have reverse (otherMachine : Rat) := ham_eq str otherMachine currentValue incomingValue
    currentNumber incomingNumber
  constructor
  · intro decides
    have notNewer : incoming ≤ current := by
      by_contra newer
      have accepted := decides.newer (not_le.mp newer)
      rw [decision, hamOf_newer timely (not_le.mp newer)] at accepted
      cases accepted
    refine ⟨notNewer, ?_⟩
    intro equal
    subst equal
    apply (kept_eq_iff timely timely).mp
    exact decides.same rfl machineState timely _ _ decision (reverse machineState)
  · rintro ⟨notNewer, distinct⟩
    rcases lt_or_eq_of_le notNewer with older | equal
    · have historical := decision
      rw [hamOf_older timely older] at historical
      constructor
      case total => exact ⟨.historical, historical, rfl⟩
      case historical => exact iff_of_true historical older
      case newer => exact fun newer => absurd newer older.not_gt
      case values => exact fun equal => absurd equal older.ne
      case swapped => exact fun equal => absurd equal older.ne
      case same => exact fun equal => absurd equal older.ne
    · subst equal
      have row := hamOf_equal str incomingValue currentValue timely
      constructor
      case total =>
        refine ⟨_, decision, ?_⟩
        rw [row]
        split_ifs <;> rfl
      case historical =>
        apply iff_of_false _ (lt_irrefl _)
        rw [decision, row]
        split_ifs <;> intro impossible <;> cases impossible
      case newer => exact fun newer => absurd newer (lt_irrefl _)
      case values =>
        intro _ otherMachine otherState other number otherTimely
        rw [decision, ham_eq str otherMachine incomingValue currentValue number number,
          hamOf_equal _ _ _ otherTimely, row]
      case swapped =>
        intro _ otherMachine otherTimely
        rw [decision, reverse, hamOf_swapped timely otherTimely]
        rfl
      case same =>
        intro _ otherMachine otherTimely mine theirs decided decidedThere
        cases decision.symm.trans decided
        cases (reverse otherMachine).symm.trans decidedThere
        exact (kept_eq_iff timely otherTimely).mpr (distinct rfl)

end

/-! ### A newer value -/

/-- `str` and `float` of the values below. -/
def plainStr : PyVal → String
  | .int value => toString value
  | _ => ""

def plainFloat : PyVal → Except Exn Rat
  | .int value => .ok value
  | _ => .error (.valueError "could not convert string to float")

/-- An older value is refused, the first row of the table. -/
theorem decides_iff_older :
    Decides plainStr plainFloat 9 (.int 1) (.int 2) (.str "old") (.str "new") 1 2 ↔
      (1 : Rat) ≤ 2 ∧ ((1 : Rat) = 2 → comparedText plainStr (.str "old") =
        comparedText plainStr (.str "new") → PyVal.str "old" = .str "new") :=
  decides_iff rfl rfl (by norm_num)

/-- A newer value is answered with an error. -/
theorem newer_value_invalid :
    ¬ Decides plainStr plainFloat 9 (.int 2) (.int 1) (.str "new") (.str "old") 2 1 := by
  intro decides
  have accepted := decides.newer (by norm_num)
  rw [ham_eq plainStr 9 _ _ (show stateNumber plainFloat (.int 2) = .ok 2 from rfl)
    (show stateNumber plainFloat (.int 1) = .ok 1 from rfl),
    hamOf_newer (by norm_num) (by norm_num)] at accepted
  cases accepted

end Gun

end JumpscaleX
