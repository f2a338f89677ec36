import Mathlib.Logic.Function.Basic
import Mathlib.Tactic.Choose

/-!
# Tests on the fields of a record

A record passes a list of tests when each of its fields passes the test under
its key.  Two lists of tests let the same records pass exactly when they are
the same tests, or when neither lets any record pass.
-/

namespace JointTests

variable {κ α : Type} [DecidableEq κ] {keys : List κ}
variable {fits first second : κ → α → Prop}

/-- The records whose fields fit pass both lists of tests or neither. -/
def Agree (keys : List κ) (fits first second : κ → α → Prop) : Prop :=
  ∀ record : κ → α, (∀ key, fits key (record key)) →
    ((∀ key ∈ keys, first key (record key)) ↔ ∀ key ∈ keys, second key (record key))

/-- One of the tests lets nothing pass that fits. -/
def Blocks (keys : List κ) (fits test : κ → α → Prop) : Prop :=
  ∃ key ∈ keys, ∀ value, fits key value → ¬ test key value

omit [DecidableEq κ] in
theorem Blocks.not_all (blocks : Blocks keys fits first) {record : κ → α}
    (fitting : ∀ key, fits key (record key)) : ¬ ∀ key ∈ keys, first key (record key) := by
  intro all
  obtain ⟨key, member, nothing⟩ := blocks
  exact nothing _ (fitting key) (all key member)

omit [DecidableEq κ] in
/-- Without a test that lets nothing pass there is a record that passes. -/
theorem exists_of_not_blocks (inhabited : ∀ key, ∃ value, fits key value)
    (unblocked : ¬ Blocks keys fits first) :
    ∃ record : κ → α, (∀ key, fits key (record key)) ∧
      ∀ key ∈ keys, first key (record key) := by
  have each : ∀ key, ∃ value, fits key value ∧ (key ∈ keys → first key value) := by
    intro key
    by_cases member : key ∈ keys
    · by_contra nothing
      refine unblocked ⟨key, member, ?_⟩
      intro value fitting passes
      exact nothing ⟨value, fitting, fun _ => passes⟩
    · obtain ⟨value, fitting⟩ := inhabited key
      exact ⟨value, fitting, fun present => (member present).elim⟩
  choose record fitting passes using each
  exact ⟨record, fitting, passes⟩

/-- A record that passes can have any passing value in place of a field. -/
theorem passes_update {record : κ → α} {key : κ} {value : α}
    (passes : ∀ key ∈ keys, first key (record key)) (passesHere : first key value) :
    ∀ other ∈ keys, first other (Function.update record key value other) := by
  intro other member
  by_cases same : other = key
  · rw [same, Function.update_self]
    exact passesHere
  · rw [Function.update_of_ne same]
    exact passes other member

theorem agree_iff (inhabited : ∀ key, ∃ value, fits key value) :
    Agree keys fits first second ↔
      (Blocks keys fits first ∧ Blocks keys fits second) ∨
        ∀ key ∈ keys, ∀ value, fits key value → (first key value ↔ second key value) := by
  constructor
  · intro agree
    by_cases unblocked : Blocks keys fits first
    · left
      refine ⟨unblocked, ?_⟩
      by_contra openToo
      obtain ⟨record, fitting, passes⟩ := exists_of_not_blocks inhabited openToo
      exact unblocked.not_all fitting ((agree record fitting).mpr passes)
    · right
      obtain ⟨record, fitting, passes⟩ := exists_of_not_blocks inhabited unblocked
      have passesToo := (agree record fitting).mp passes
      intro key member value fittingHere
      have fittingUpdated : ∀ other, fits other (Function.update record key value other) := by
        intro other
        by_cases same : other = key
        · rw [same, Function.update_self]
          exact fittingHere
        · rw [Function.update_of_ne same]
          exact fitting other
      constructor
      · intro passesHere
        have all := (agree _ fittingUpdated).mp (passes_update passes passesHere) key member
        rwa [Function.update_self] at all
      · intro passesHere
        have all := (agree _ fittingUpdated).mpr (passes_update passesToo passesHere) key member
        rwa [Function.update_self] at all
  · rintro (⟨blocked, blockedToo⟩ | same) record fitting
    · exact iff_of_false (blocked.not_all fitting) (blockedToo.not_all fitting)
    · apply forall₂_congr
      intro key member
      exact same key member _ (fitting key)

end JointTests
