import JumpscaleX.Library.Stateful

/-!
# Sequences of calls

A script of calls is made on a state, each call on the state that the one
before left behind, and every call answers with a value or an error.  Two
systems answer a script alike as long as a relation between their states is
kept by the calls that fit it.
-/

namespace Stateful

variable {ε σ τ α ι γ : Type}

/-- What a computation answers. -/
def outcome (computation : EStateM ε σ α) (state : σ) : Except ε α :=
  match computation state with
  | .ok value _ => .ok value
  | .error problem _ => .error problem

/-- The answers to a script of calls. -/
def outcomes (perform : ι → EStateM ε σ α) : List ι → σ → List (Except ε α)
  | [], _ => []
  | call :: calls, state =>
      outcome (perform call) state ::
        outcomes perform calls (final (perform call) state)

/-- The state behind a script of calls. -/
def finals (perform : ι → EStateM ε σ α) (calls : List ι) (state : σ) : σ :=
  calls.foldl (fun state call => final (perform call) state) state

theorem outcome_of_ok {computation : EStateM ε σ α} {state reached : σ} {value : α}
    (done : computation state = .ok value reached) :
    outcome computation state = .ok value := by
  rw [outcome, done]

theorem outcome_get_seq {next : σ → EStateM ε σ α} {state : σ} :
    outcome ((getThe σ : EStateM ε σ σ) >>= next) state = outcome (next state) state :=
  rfl

theorem outcome_seq_of_ok {β : Type} {first : EStateM ε σ α}
    {next : α → EStateM ε σ β} {state between : σ} {value : α}
    (done : first state = .ok value between) :
    outcome (first >>= next) state = outcome (next value) between := by
  rw [outcome, seq_of_ok done, outcome]

theorem outcome_seq_of_error {β : Type} {first : EStateM ε σ α}
    {next : α → EStateM ε σ β} {state between : σ} {problem : ε}
    (failed : first state = .error problem between) :
    outcome (first >>= next) state = .error problem := by
  rw [outcome, seq_of_error failed]

/-- Every call of a script satisfies a condition on the state before it. -/
def Along (fits : γ → ι → Prop) (after : γ → ι → γ) : γ → List ι → Prop
  | _, [] => True
  | state, call :: calls => fits state call ∧ Along fits after (after state call) calls

section Lockstep

variable {left : ι → EStateM ε σ α} {right : ι → EStateM ε τ α}
  {fits : γ → ι → Prop} {after : γ → ι → γ}

/-- Two systems in related states answer a script alike exactly when each call
fits the abstract state before it. -/
theorem outcomes_eq_iff (relation : γ → σ → τ → Prop)
    (same : ∀ abstract first second call, relation abstract first second →
      (outcome (left call) first = outcome (right call) second ↔ fits abstract call))
    (kept : ∀ abstract first second call, relation abstract first second →
      fits abstract call →
      relation (after abstract call) (final (left call) first)
        (final (right call) second))
    {calls : List ι} {abstract : γ} {first : σ} {second : τ}
    (related : relation abstract first second) :
    outcomes left calls first = outcomes right calls second ↔
      Along fits after abstract calls := by
  induction calls generalizing abstract first second with
  | nil => simp [outcomes, Along]
  | cons call calls induction =>
      simp only [outcomes, Along, List.cons.injEq]
      rw [same abstract first second call related]
      apply and_congr_right
      intro fitting
      exact induction (kept abstract first second call related fitting)

end Lockstep

/-- What every call keeps holds behind a script. -/
theorem finals_keeps {perform : ι → EStateM ε σ α} (property : σ → Prop)
    (keeps : ∀ call state, property state → property (final (perform call) state))
    {calls : List ι} {state : σ} (initial : property state) :
    property (finals perform calls state) := by
  induction calls generalizing state with
  | nil => exact initial
  | cons call calls induction => exact induction (keeps call state initial)

end Stateful
