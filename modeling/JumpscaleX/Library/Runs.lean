import JumpscaleX.Library.Outcomes

/-!
# Runs of a system

A system takes one action after another.  What every action keeps, or keeps
under a condition on the state before it, holds behind a whole run.
-/

namespace Runs

open Stateful

variable {State Action : Type} {step : State → Action → State}

/-- The state behind a list of actions. -/
def run (step : State → Action → State) (state : State) (actions : List Action) :
    State :=
  actions.foldl step state

@[simp] theorem run_nil (state : State) : run step state [] = state := rfl

@[simp] theorem run_cons (state : State) (action : Action) (actions : List Action) :
    run step state (action :: actions) = run step (step state action) actions := rfl

theorem run_append (state : State) (first second : List Action) :
    run step state (first ++ second) = run step (run step state first) second :=
  List.foldl_append

/-- A condition holds along two runs in a row when it holds along each. -/
theorem along_append {fits : State → Action → Prop} {state : State}
    {first second : List Action} :
    Along fits step state (first ++ second) ↔
      Along fits step state first ∧ Along fits step (run step state first) second := by
  induction first generalizing state with
  | nil => simp [Along]
  | cons action actions induction =>
      simp only [List.cons_append, Along, run_cons, induction, and_assoc]

theorem along_of_forall {fits : State → Action → Prop} {actions : List Action}
    {state : State} (fitting : ∀ state, ∀ action ∈ actions, fits state action) :
    Along fits step state actions := by
  induction actions generalizing state with
  | nil => trivial
  | cons action actions induction =>
      constructor
      · exact fitting state action List.mem_cons_self
      · apply induction
        intro between later member
        exact fitting between later (List.mem_cons_of_mem _ member)

/-- A condition on the actions alone. -/
theorem along_forall_iff {kind : Action → Prop} {actions : List Action} {state : State} :
    Along (fun _ action => kind action) step state actions ↔
      ∀ action ∈ actions, kind action := by
  induction actions generalizing state with
  | nil => simp [Along]
  | cons action actions induction => simp only [Along, induction, List.forall_mem_cons]

theorem along_imp {fits holds : State → Action → Prop} {actions : List Action}
    {state : State} (implies : ∀ state action, fits state action → holds state action)
    (fitting : Along fits step state actions) : Along holds step state actions := by
  induction actions generalizing state with
  | nil => trivial
  | cons action actions induction =>
      exact ⟨implies state action fitting.1, induction fitting.2⟩

theorem along_and_forall {fits : State → Action → Prop} {kind : Action → Prop}
    {actions : List Action} {state : State} (fitting : Along fits step state actions)
    (kinds : ∀ action ∈ actions, kind action) :
    Along (fun state action => kind action ∧ fits state action) step state actions := by
  induction actions generalizing state with
  | nil => trivial
  | cons action actions induction =>
      obtain ⟨first, kinds⟩ := List.forall_mem_cons.mp kinds
      exact ⟨⟨first, fitting.1⟩, induction fitting.2 kinds⟩

/-- What every fitting action keeps holds behind a fitting run. -/
theorem run_keeps {fits : State → Action → Prop} (invariant : State → Prop)
    (keeps : ∀ state action, invariant state → fits state action →
      invariant (step state action))
    {actions : List Action} {state : State} (initial : invariant state)
    (fitting : Along fits step state actions) :
    invariant (run step state actions) := by
  induction actions generalizing state with
  | nil => exact initial
  | cons action actions induction =>
      exact induction (keeps state action initial fitting.1) fitting.2

/-- Two conditions that agree where an invariant holds, and keep it, hold along the
same runs. -/
theorem along_iff {left right : State → Action → Prop} (invariant : State → Prop)
    {state : State} (initial : invariant state)
    (agree : ∀ state action, invariant state → (left state action ↔ right state action))
    (keeps : ∀ state action, invariant state → right state action →
      invariant (step state action)) {actions : List Action} :
    Along left step state actions ↔ Along right step state actions := by
  induction actions generalizing state with
  | nil => exact Iff.rfl
  | cons action actions induction =>
      simp only [Along, agree state action initial]
      apply and_congr_right
      intro fitting
      exact induction (keeps state action initial fitting)

/-- A condition that another one implies where an invariant holds, which every
fitting action keeps. -/
theorem along_imp_of_invariant {fits holds : State → Action → Prop}
    (invariant : State → Prop) {state : State} (initial : invariant state)
    (implies : ∀ state action, invariant state → fits state action → holds state action)
    (keeps : ∀ state action, invariant state → fits state action →
      invariant (step state action)) {actions : List Action}
    (fitting : Along fits step state actions) : Along holds step state actions := by
  induction actions generalizing state with
  | nil => trivial
  | cons action actions induction =>
      constructor
      · exact implies state action initial fitting.1
      · exact induction (keeps state action initial fitting.1) fitting.2

/-- What every action keeps holds behind every run. -/
theorem run_always (invariant : State → Prop)
    (keeps : ∀ state action, invariant state → invariant (step state action))
    {state : State} (initial : invariant state) (actions : List Action) :
    invariant (run step state actions) := by
  induction actions generalizing state with
  | nil => exact initial
  | cons action actions induction => exact induction (keeps state action initial)

end Runs
