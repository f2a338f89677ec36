import Mathlib.Data.List.Basic

/-!
# Convergence

Operations that commute with each other, and that change nothing when they are
done a second time, reach one state in whatever order and however often they
are done.
-/

namespace Convergence

variable {σ α : Type} {step : σ → α → σ} {valid : α → Prop}

/-- Any two valid operations commute. -/
def Commutes (step : σ → α → σ) (valid : α → Prop) : Prop :=
  ∀ state first second, valid first → valid second →
    step (step state first) second = step (step state second) first

/-- Doing a valid operation twice is doing it once. -/
def Idempotent (step : σ → α → σ) (valid : α → Prop) : Prop :=
  ∀ state operation, valid operation →
    step (step state operation) operation = step state operation

/-- An operation can be moved behind those that follow it. -/
theorem step_foldl (commutes : Commutes step valid) {operation : α} (fits : valid operation)
    {operations : List α} (fitting : ∀ other ∈ operations, valid other) (state : σ) :
    step (operations.foldl step state) operation =
      operations.foldl step (step state operation) := by
  induction operations generalizing state with
  | nil => rfl
  | cons other operations induction =>
      obtain ⟨otherFits, fitting⟩ := List.forall_mem_cons.mp fitting
      rw [List.foldl_cons, List.foldl_cons, induction fitting,
        commutes state other operation otherFits fits]

/-- An operation that is done later need not be done before. -/
theorem foldl_absorbs (commutes : Commutes step valid) (again : Idempotent step valid)
    {operations : List α} (fitting : ∀ other ∈ operations, valid other)
    {operation : α} (member : operation ∈ operations) (state : σ) :
    operations.foldl step (step state operation) = operations.foldl step state := by
  induction operations generalizing state with
  | nil => cases member
  | cons other operations induction =>
      have fits := fitting operation member
      obtain ⟨otherFits, fitting⟩ := List.forall_mem_cons.mp fitting
      rw [List.foldl_cons, List.foldl_cons]
      rcases List.mem_cons.mp member with same | later
      · rw [same, again state other otherFits]
      · rw [commutes state operation other fits otherFits, induction fitting later]

/-- Operations that are done later need not be done before. -/
theorem foldl_foldl_absorbs (commutes : Commutes step valid)
    (again : Idempotent step valid) {first second : List α}
    (fitting : ∀ other ∈ second, valid other)
    (included : ∀ other ∈ first, other ∈ second) (state : σ) :
    second.foldl step (first.foldl step state) = second.foldl step state := by
  induction first generalizing state with
  | nil => rfl
  | cons operation first induction =>
      obtain ⟨member, included⟩ := List.forall_mem_cons.mp included
      rw [List.foldl_cons, induction included,
        foldl_absorbs commutes again fitting member]

/-- Two lists of operations in a row can be done in the other order. -/
theorem foldl_foldl_comm (commutes : Commutes step valid) {first second : List α}
    (fittingFirst : ∀ other ∈ first, valid other)
    (fittingSecond : ∀ other ∈ second, valid other) (state : σ) :
    second.foldl step (first.foldl step state) =
      first.foldl step (second.foldl step state) := by
  induction first generalizing state with
  | nil => rfl
  | cons operation first induction =>
      obtain ⟨fits, fittingFirst⟩ := List.forall_mem_cons.mp fittingFirst
      rw [List.foldl_cons, List.foldl_cons, induction fittingFirst,
        step_foldl commutes fits fittingSecond]

/-- Two lists with the same operations reach one state. -/
theorem foldl_eq_of_same_operations (commutes : Commutes step valid)
    (again : Idempotent step valid) {first second : List α}
    (fitting : ∀ operation ∈ first, valid operation)
    (same : ∀ operation, operation ∈ first ↔ operation ∈ second) (state : σ) :
    first.foldl step state = second.foldl step state := by
  have fittingSecond : ∀ operation ∈ second, valid operation := by
    intro operation member
    exact fitting operation ((same operation).mpr member)
  calc
    first.foldl step state = first.foldl step (second.foldl step state) :=
      (foldl_foldl_absorbs commutes again fitting
        (fun operation => (same operation).mpr) state).symm
    _ = second.foldl step (first.foldl step state) :=
      foldl_foldl_comm commutes fittingSecond fitting state
    _ = second.foldl step state :=
      foldl_foldl_absorbs commutes again fittingSecond
        (fun operation => (same operation).mp) state

end Convergence
