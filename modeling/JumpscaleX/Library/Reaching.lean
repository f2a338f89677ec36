import Mathlib.Data.Set.Finite.Basic
import Mathlib.Logic.Relation
import Mathlib.Order.WellFounded

/-!
# Calls that come back

A recursion follows calls from one value to others.  Of finitely many values,
it comes to an end exactly when no value that is reached is reached from
itself.
-/

namespace Reaching

open Relation

variable {α : Type*} {calls : α → α → Prop} {start : α}

/-- A value that is reached from the start is reached from itself. -/
def Circular (calls : α → α → Prop) (start : α) : Prop :=
  ∃ other, ReflTransGen calls start other ∧ TransGen calls other other

/-- A recursion that comes to an end reaches no value from itself. -/
theorem not_circular_of_acc (ends : Acc (fun called caller => calls caller called) start) :
    ¬ Circular calls start := by
  induction ends with
  | intro value _ induction =>
      rintro ⟨other, reached, cycle⟩
      rcases reached.cases_head with same | ⟨next, called, later⟩
      · subst same
        obtain ⟨next, called, back⟩ := TransGen.head'_iff.mp cycle
        exact induction next called ⟨value, back, cycle⟩
      · exact induction next called ⟨other, later, cycle⟩

/-- Of finitely many values, a recursion that reaches none from itself comes to
an end. -/
theorem acc_of_not_circular (finite : {other | ReflTransGen calls start other}.Finite)
    (straight : ¬ Circular calls start) :
    Acc (fun called caller => calls caller called) start := by
  have reached : Finite {other // ReflTransGen calls start other} := finite
  let below : {other // ReflTransGen calls start other} →
      {other // ReflTransGen calls start other} → Prop :=
    fun called caller => TransGen calls caller.val called.val
  have transitive : IsTrans _ below := ⟨fun _ _ _ first second => second.trans first⟩
  have irreflexive : Std.Irrefl below :=
    ⟨fun value cycle => straight ⟨value.val, value.property, cycle⟩⟩
  have founded : WellFounded below := Finite.wellFounded_of_trans_of_irrefl below
  have ends (value : {other // ReflTransGen calls start other}) :
      Acc (fun called caller => calls caller called) value.val := by
    induction value using founded.induction with
    | _ value induction =>
        constructor
        intro next called
        exact induction ⟨next, value.property.tail called⟩ (.single called)
  exact ends ⟨start, .refl⟩

end Reaching
