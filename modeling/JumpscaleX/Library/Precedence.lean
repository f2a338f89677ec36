import Mathlib.Logic.Relation

/-!
# Histories that respect a need

A history lists events, the latest first.  It is grounded when everything that
an event needs happened before it; then nothing that needs itself, directly or
through others, ever happens.
-/

namespace Precedence

open Relation

variable {ι : Type} {needs : ι → ι → Prop} {history earlier : List ι} {id need : ι}

/-- Everything an event needs happened before it. -/
inductive Grounded (needs : ι → ι → Prop) : List ι → Prop where
  | nil : Grounded needs []
  | cons {id : ι} {earlier : List ι} :
      (∀ need, needs id need → need ∈ earlier) → Grounded needs earlier →
      Grounded needs (id :: earlier)

namespace Grounded

theorem tail (grounded : Grounded needs (id :: earlier)) : Grounded needs earlier := by
  cases grounded with
  | cons _ grounded => exact grounded

/-- What an event of the history needs is in it. -/
theorem need_mem (grounded : Grounded needs history) (member : id ∈ history)
    (requires : needs id need) : need ∈ history := by
  induction grounded with
  | nil => cases member
  | cons before _ induction =>
      apply List.mem_cons_of_mem
      rcases List.mem_cons.mp member with rfl | member
      · exact before need requires
      · exact induction member

/-- So is what it needs through others. -/
theorem indirect_mem (grounded : Grounded needs history) (member : id ∈ history)
    (requires : ReflTransGen needs id need) : need ∈ history := by
  induction requires with
  | refl => exact member
  | tail _ requires induction => exact grounded.need_mem induction requires

/-- What an event needs through others happened before it. -/
theorem indirect_before (grounded : Grounded needs (id :: earlier))
    (requires : TransGen needs id need) : need ∈ earlier := by
  cases grounded with
  | cons before grounded =>
      obtain ⟨first, direct, others⟩ := TransGen.head'_iff.mp requires
      exact grounded.indirect_mem (before first direct) others

/-- Nothing that needs itself ever happens. -/
theorem not_mem_of_cycle (grounded : Grounded needs history) (cycle : TransGen needs id id) :
    id ∉ history := by
  intro member
  induction history with
  | nil => cases member
  | cons latest earlier induction =>
      have groundedEarlier := grounded.tail
      rcases List.mem_cons.mp member with rfl | member
      · exact induction groundedEarlier (grounded.indirect_before cycle)
      · exact induction groundedEarlier member

end Grounded

end Precedence
