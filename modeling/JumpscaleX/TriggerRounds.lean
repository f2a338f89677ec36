import JumpscaleX.Triggers
import Mathlib.Data.List.Nodup

/-!
# Rounds of triggers

A round is what one `_triggers_call` does: the triggers one after the other,
each on the object that the one before returned, up to the first that stops or
raises.  An operation obeys its triggers when each of its documented actions
has one round, in their order, and nothing is modified once a trigger stopped.
-/

namespace JumpscaleX.Triggers

open Stateful

variable {σ : Type}

/-! ## Rounds -/

/-- The object that the next trigger sees. -/
def Returned.next (obj : Nat) : Returned → Option Nat
  | .nothing => some obj
  | .obj ref => some ref
  | .other => none

def Call.stops (call : Call) : Bool :=
  call.response.any Response.stop

/-- How a round ends. -/
inductive Ending where
  | ran (obj : Nat)
  | stopped
  | raised

/-- The calls of one round over `count` triggers, from a trigger on. -/
inductive Round (action : Action) (count : Nat) :
    Nat → Nat → List Call → Ending → Prop where
  | done (obj : Nat) : Round action count count obj [] (.ran obj)
  | next {index obj obj2 : Nat} {response : Response} {calls : List Call}
      {ending : Ending} :
      index < count →
      response.stop = false →
      response.returned.next obj = some obj2 →
      Round action count (index + 1) obj2 calls ending →
      Round action count index obj (⟨index, action, obj, some response⟩ :: calls) ending
  | stopped {index obj : Nat} {response : Response} :
      index < count →
      response.stop = true →
      Round action count index obj [⟨index, action, obj, some response⟩] .stopped
  | refused {index obj : Nat} {response : Response} :
      index < count →
      response.stop = false →
      response.returned.next obj = none →
      Round action count index obj [⟨index, action, obj, some response⟩] .raised
  | raised {index obj : Nat} :
      index < count →
      Round action count index obj [⟨index, action, obj, none⟩] .raised

/-- One round for each action, in their order, up to the first that stops or
raises.  An operation that returns has not left out any. -/
inductive Rounds (count : Nat) : List Action → List Call → Bool → Prop where
  | done : Rounds count [] [] true
  | pending (actions : List Action) : Rounds count actions [] false
  | ran {action : Action} {actions : List Action} {obj obj2 : Nat}
      {calls later : List Call} {returned : Bool} :
      Round action count 0 obj calls (.ran obj2) →
      Rounds count actions later returned →
      Rounds count (action :: actions) (calls ++ later) returned
  | stopped {action : Action} {actions : List Action} {obj : Nat}
      {calls : List Call} {returned : Bool} :
      Round action count 0 obj calls .stopped →
      Rounds count (action :: actions) calls returned
  | raised {action : Action} {actions : List Action} {obj : Nat}
      {calls : List Call} :
      Round action count 0 obj calls .raised →
      Rounds count (action :: actions) calls false

namespace Round

variable {action : Action} {count index obj : Nat} {calls : List Call}
  {ending : Ending}

theorem action_eq (round : Round action count index obj calls ending) :
    ∀ call ∈ calls, call.action = action := by
  induction round with
  | done => simp
  | next _ _ _ _ induction => simpa using induction
  | stopped => simp
  | refused => simp
  | raised => simp

theorem index_le (round : Round action count index obj calls ending) :
    ∀ call ∈ calls, index ≤ call.index := by
  induction round with
  | done => simp
  | next _ _ _ _ induction =>
      intro call member
      rcases List.mem_cons.mp member with first | later
      · subst first
        exact le_refl _
      · exact Nat.le_of_succ_le (induction call later)
  | stopped => simp
  | refused => simp
  | raised => simp

/-- Only the last call of a round stops, and the round is then stopped. -/
theorem stops_iff (round : Round action count index obj calls ending) :
    (∃ call ∈ calls, call.stops = true) ↔ ending = .stopped := by
  induction round with
  | done => simp
  | next _ runs _ _ induction => simp [← induction, Call.stops, runs]
  | stopped _ stops => simp [Call.stops, stops]
  | refused _ runs => simp [Call.stops, runs]
  | raised => simp [Call.stops]

theorem ne_nil (round : Round action count index obj calls ending)
    (remaining : index < count) : calls ≠ [] := by
  cases round with
  | done => exact (lt_irrefl _ remaining).elim
  | next => simp
  | stopped => simp
  | refused => simp
  | raised => simp

end Round

/-- How often the first trigger was called for an action. -/
def starts (action : Action) (calls : List Call) : Nat :=
  calls.countP fun call => call.index = 0 ∧ call.action = action

@[simp] theorem starts_nil (action : Action) : starts action [] = 0 := rfl

@[simp] theorem starts_append (action : Action) (first second : List Call) :
    starts action (first ++ second) = starts action first + starts action second :=
  List.countP_append

namespace Round

variable {action other : Action} {count obj : Nat} {calls : List Call} {ending : Ending}

/-- A round calls the first trigger once, for its own action. -/
theorem starts_eq (round : Round action count 0 obj calls ending) (some : 0 < count) :
    starts other calls = if other = action then 1 else 0 := by
  have tail : ∀ {obj : Nat} {calls : List Call} {ending : Ending},
      Round action count 1 obj calls ending → starts other calls = 0 := by
    intro obj calls ending round
    apply List.countP_eq_zero.mpr
    intro call member
    have later := round.index_le call member
    simp only [decide_eq_true_eq, not_and]
    omega
  cases round with
  | done => exact (lt_irrefl _ some).elim
  | next _ _ _ later =>
      rw [starts, List.countP_cons, ← starts, tail later]
      simp [eq_comm]
  | stopped => simp [starts, List.countP_cons, eq_comm]
  | refused => simp [starts, List.countP_cons, eq_comm]
  | raised => simp [starts, List.countP_cons, eq_comm]

end Round

namespace Rounds

variable {count : Nat} {action : Action} {actions : List Action} {calls : List Call}
  {returned : Bool}

theorem weaken (rounds : Rounds count actions calls true) :
    Rounds count actions calls false := by
  generalize finished : true = returned at rounds
  induction rounds with
  | done => exact .pending []
  | pending => cases finished
  | ran round _ induction => exact .ran round (induction finished)
  | stopped round => exact .stopped round
  | raised => cases finished

/-- A single round, after which the operation returns unless it raised. -/
theorem of_round {obj : Nat} {ending : Ending}
    (round : Round action count 0 obj calls ending) : Rounds count [action] calls false := by
  cases ending with
  | ran obj2 =>
      rw [← List.append_nil calls]
      exact .ran round (.pending [])
  | stopped => exact .stopped round
  | raised => exact .raised round

theorem of_round_returned {obj : Nat} {ending : Ending}
    (round : Round action count 0 obj calls ending) (runs : ending ≠ .raised) :
    Rounds count [action] calls true := by
  cases ending with
  | ran obj2 =>
      rw [← List.append_nil calls]
      exact .ran round .done
  | stopped => exact .stopped round
  | raised => exact (runs rfl).elim

theorem starts_le (rounds : Rounds count actions calls returned) (some : 0 < count)
    (action : Action) : starts action calls ≤ actions.count action := by
  induction rounds with
  | done => simp
  | pending => simp
  | ran round _ induction =>
      rw [starts_append, round.starts_eq some, List.count_cons]
      split <;> simp_all <;> omega
  | stopped round =>
      rw [round.starts_eq some, List.count_cons]
      split <;> simp_all
  | raised round =>
      rw [round.starts_eq some, List.count_cons]
      split <;> simp_all

/-- No action has two rounds. -/
theorem not_of_starts (rounds : Rounds count actions calls returned) (some : 0 < count)
    (distinct : actions.Nodup) (twice : 2 ≤ starts action calls) : False := by
  have most := rounds.starts_le some action
  have once := List.nodup_iff_count_le_one.mp distinct action
  omega

/-- The first action has a round as soon as there are calls, and when the
operation returns. -/
theorem first_started (rounds : Rounds count (action :: actions) calls returned)
    (some : 0 < count) (begun : calls ≠ [] ∨ returned = true) :
    1 ≤ starts action calls := by
  cases rounds with
  | pending => simp at begun
  | ran round => simp [round.starts_eq some]
  | stopped round => simp [round.starts_eq some]
  | raised round => simp [round.starts_eq some]

/-- An operation that returns has a round for every action, unless a trigger
stopped. -/
theorem started (rounds : Rounds count actions calls true) (some : 0 < count)
    (runs : ¬ ∃ call ∈ calls, call.stops = true) (action : Action)
    (member : action ∈ actions) : 1 ≤ starts action calls := by
  generalize finished : true = returned at rounds
  induction rounds with
  | done => cases member
  | pending => cases finished
  | ran round _ induction =>
      rw [starts_append]
      rcases List.mem_cons.mp member with first | later
      · subst first
        simp [round.starts_eq some]
      · have rest : 1 ≤ starts action _ := induction
          (fun stopped => runs (by
            obtain ⟨call, called, stops⟩ := stopped
            exact ⟨call, List.mem_append_right _ called, stops⟩)) later finished
        omega
  | stopped round => exact (runs (round.stops_iff.mpr rfl)).elim
  | raised => cases finished

end Rounds

/-! ## What an operation lets its triggers see -/

def Event.relevant (actions : List Action) : Event → Bool
  | .called call => actions.contains call.action
  | .modified => true

/-- The calls for the given actions, and the modifications. -/
def relevant (actions : List Action) (log : List Event) : List Event :=
  log.filter (Event.relevant actions)

def Event.call? : Event → Option Call
  | .called call => some call
  | .modified => none

def callsOf (events : List Event) : List Call :=
  events.filterMap Event.call?

/-- One round for each action; nothing is modified when a trigger stopped. -/
structure Obeys (count : Nat) (actions : List Action) (returned : Bool)
    (events : List Event) : Prop where
  rounds : Rounds count actions (callsOf events) returned
  veto : (∃ call ∈ callsOf events, call.stops = true) → Event.modified ∉ events

def hasReturned {α : Type} (result : EStateM.Result Exn (Run σ) α) : Bool :=
  match result with
  | .ok _ _ => true
  | .error _ _ => false

/-- An operation on a world obeys the triggers of the model. -/
def Operation.ObeysTriggers (operation : Operation) (model : Model σ) (world : World σ) :
    Prop :=
  Obeys model._triggers.length operation.documented
    (hasReturned (operation.perform model ⟨world, []⟩))
    (relevant operation.documented (final (operation.perform model) ⟨world, []⟩).log)

@[simp] theorem relevant_nil (actions : List Action) : relevant actions [] = [] := rfl

@[simp] theorem relevant_append (actions : List Action) (first second : List Event) :
    relevant actions (first ++ second) =
      relevant actions first ++ relevant actions second :=
  List.filter_append ..

@[simp] theorem callsOf_append (first second : List Event) :
    callsOf (first ++ second) = callsOf first ++ callsOf second :=
  List.filterMap_append

@[simp] theorem callsOf_called (calls : List Call) :
    callsOf (calls.map .called) = calls := by
  induction calls with
  | nil => rfl
  | cons call calls induction =>
      exact congrArg (List.cons call) induction

@[simp] theorem callsOf_modified (number : Nat) :
    callsOf (List.replicate number .modified) = [] := by
  simp [callsOf, Event.call?]

theorem modified_not_mem_called (calls : List Call) :
    Event.modified ∉ calls.map Event.called := by
  simp

/-- The calls of a round, for an action that counts. -/
theorem Round.relevant_calls {action : Action} {actions : List Action}
    {count index obj : Nat} {calls : List Call} {ending : Ending}
    (round : Round action count index obj calls ending) (counts : action ∈ actions) :
    relevant actions (calls.map .called) = calls.map .called := by
  apply List.filter_eq_self.mpr
  intro event member
  obtain ⟨call, called, same⟩ := List.mem_map.mp member
  subst same
  simp [Event.relevant, round.action_eq call called, counts]

theorem Round.irrelevant_calls {action : Action} {actions : List Action}
    {count index obj : Nat} {calls : List Call} {ending : Ending}
    (round : Round action count index obj calls ending) (ignored : action ∉ actions) :
    relevant actions (calls.map .called) = [] := by
  apply List.filter_eq_nil_iff.mpr
  intro event member
  obtain ⟨call, called, same⟩ := List.mem_map.mp member
  subst same
  simp [Event.relevant, round.action_eq call called, ignored]

/-! ## The rounds of `_triggers_call` -/

/-- How a `_triggers_call` ended. -/
def endingOf : EStateM.Result Exn (Run σ) (Nat × Bool) → Ending
  | .ok (obj, false) _ => .ran obj
  | .ok (_, true) _ => .stopped
  | .error _ _ => .raised

theorem triggersFrom_round (triggers : List (Trigger σ)) (index : Nat) (action : Action)
    (obj : Nat) (run : Run σ) :
    ∃ calls,
      Round action (index + triggers.length) index obj calls
        (endingOf (Model.triggersFrom triggers index action obj run)) ∧
      (final (Model.triggersFrom triggers index action obj) run).log =
        run.log ++ calls.map .called := by
  induction triggers generalizing index obj run with
  | nil => exact ⟨[], .done obj, by simp [final, Model.triggersFrom, pure, EStateM.pure]⟩
  | cons trigger triggers induction =>
      have within : index < index + (trigger :: triggers).length := by simp
      have counted : index + (trigger :: triggers).length =
          index + 1 + triggers.length := by
        simp
        omega
      cases answer : trigger action obj run.world with
      | error problem world =>
          have called : Model.method trigger index action obj run =
              .error problem ⟨world, run.log ++ [.called ⟨index, action, obj, none⟩]⟩ := by
            rw [Model.method, answer]
          have failed : Model.triggersFrom (trigger :: triggers) index action obj run = _ :=
            seq_of_error called
          rw [final, failed]
          exact ⟨[⟨index, action, obj, none⟩], .raised within, rfl⟩
      | ok response world =>
          have called : Model.method trigger index action obj run =
              .ok response
                ⟨world, run.log ++ [.called ⟨index, action, obj, some response⟩]⟩ := by
            rw [Model.method, answer]
          have continued : Model.triggersFrom (trigger :: triggers) index action obj run = _ :=
            seq_of_ok called
          rw [final, continued]
          cases stops : response.stop with
          | true =>
              exact ⟨[⟨index, action, obj, some response⟩], .stopped within stops, rfl⟩
          | false =>
              cases returned : response.returned with
              | other =>
                  refine ⟨[⟨index, action, obj, some response⟩],
                    .refused within stops ?_, rfl⟩
                  rw [returned]
                  rfl
              | nothing =>
                  obtain ⟨calls, round, logged⟩ := induction (index + 1) obj
                    ⟨world, run.log ++ [.called ⟨index, action, obj, some response⟩]⟩
                  refine ⟨⟨index, action, obj, some response⟩ :: calls,
                    .next within stops (by rw [returned]; rfl) ?_, ?_⟩
                  · rw [counted]
                    exact round
                  · simpa [final] using logged
              | obj obj2 =>
                  obtain ⟨calls, round, logged⟩ := induction (index + 1) obj2
                    ⟨world, run.log ++ [.called ⟨index, action, obj, some response⟩]⟩
                  refine ⟨⟨index, action, obj, some response⟩ :: calls,
                    .next within stops (by rw [returned]; rfl) ?_, ?_⟩
                  · rw [counted]
                    exact round
                  · simpa [final] using logged

/-- A `_triggers_call` is a round over all triggers of the model. -/
theorem triggers_call_round (model : Model σ) (obj : Nat) (action : Action) (run : Run σ) :
    ∃ calls,
      Round action model._triggers.length 0 obj calls
        (endingOf (model._triggers_call obj action run)) ∧
      (final (model._triggers_call obj action) run).log =
        run.log ++ calls.map .called := by
  have round := triggersFrom_round model._triggers 0 action obj run
  rw [Nat.zero_add] at round
  exact round

theorem triggers_pos (model : Model σ) : 0 < model._triggers.length := by
  simp [Model._triggers]

end JumpscaleX.Triggers
