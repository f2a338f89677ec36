import Mathlib.Data.List.Sort

/-!
# The first items of a selection

Two selections from a list in ascending order, and when their first items are
the same.
-/

namespace Selection

variable {α : Type} {key : α → Nat}

/-- A list in strictly ascending order of its keys. -/
def Ascending (key : α → Nat) (items : List α) : Prop :=
  items.Pairwise fun first second => key first < key second

theorem Ascending.nodup {items : List α} (ascending : Ascending key items) : items.Nodup :=
  ascending.imp fun below same => by simp [same] at below

theorem Ascending.filter {items : List α} (ascending : Ascending key items) (test : α → Bool) :
    Ascending key (items.filter test) :=
  List.Pairwise.filter test ascending

theorem ascending_append {left right : List α} :
    Ascending key (left ++ right) ↔
      Ascending key left ∧ Ascending key right ∧
        ∀ first ∈ left, ∀ second ∈ right, key first < key second :=
  List.pairwise_append

/-- Lists in ascending order with the same items are equal. -/
theorem Ascending.ext {left right : List α} (leftAscending : Ascending key left)
    (rightAscending : Ascending key right) (same : ∀ item, item ∈ left ↔ item ∈ right) :
    left = right := by
  have permutation : left.Perm right :=
    (List.perm_ext_iff_of_nodup leftAscending.nodup rightAscending.nodup).mpr same
  refine permutation.eq_of_pairwise ?_ leftAscending rightAscending
  intro first second _ _ below above
  exact (Nat.lt_asymm below above).elim

/-- When an item is selected by one test only, the first items of the selections
agree just as far as the items in front of it. -/
theorem take_filter_cons_of_ne {test other : α → Bool} {item : α} {items : List α}
    (ascending : Ascending key (item :: items)) (differs : test item ≠ other item) (count : Nat) :
    ((item :: items).filter other).take count = ((item :: items).filter test).take count ↔
      count = 0 := by
  constructor
  · intro same
    cases count with
    | zero => rfl
    | succ count =>
        have absent : item ∉ items := (List.nodup_cons.mp ascending.nodup).1
        cases tested : test item with
        | true =>
            have dropped : other item = false := by
              rw [tested] at differs
              simpa using differs.symm
            have member : item ∈ ((item :: items).filter other).take (count + 1) := by
              rw [same, List.filter_cons_of_pos tested]
              exact List.mem_cons_self
            rw [List.filter_cons_of_neg (by simp [dropped])] at member
            exact absurd (List.mem_of_mem_filter (List.mem_of_mem_take member)) absent
        | false =>
            have selected : other item = true := by
              rw [tested] at differs
              simpa using differs.symm
            have member : item ∈ ((item :: items).filter test).take (count + 1) := by
              rw [← same, List.filter_cons_of_pos selected]
              exact List.mem_cons_self
            rw [List.filter_cons_of_neg (by simp [tested])] at member
            exact absurd (List.mem_of_mem_filter (List.mem_of_mem_take member)) absent
  · intro none
    rw [none, List.take_zero, List.take_zero]

/-- The first `count` items that two tests select are the same when in front of
every item on which they differ so many are selected. -/
theorem take_filter_eq_iff {items : List α} (ascending : Ascending key items)
    (test other : α → Bool) (count : Nat) :
    (items.filter other).take count = (items.filter test).take count ↔
      ∀ item ∈ items, test item ≠ other item →
        count ≤ (items.filter fun before => test before && decide (key before < key item)).length := by
  induction items generalizing count with
  | nil => simp
  | cons first items induction =>
      obtain ⟨below, rest⟩ := List.pairwise_cons.mp ascending
      have before : ∀ item ∈ items,
          ((first :: items).filter fun before =>
              test before && decide (key before < key item)).length =
            (if test first then 1 else 0) +
              (items.filter fun before => test before && decide (key before < key item)).length := by
        intro item member
        have earlier := below item member
        cases tested : test first with
        | true =>
            rw [List.filter_cons_of_pos (by simp [tested, earlier]), List.length_cons,
              Nat.add_comm, if_pos rfl]
        | false =>
            rw [List.filter_cons_of_neg (by simp [tested]), if_neg (by simp), Nat.zero_add]
      have atFirst : ((first :: items).filter fun before =>
          test before && decide (key before < key first)).length = 0 := by
        rw [List.length_eq_zero_iff, List.filter_eq_nil_iff]
        intro item member
        rcases List.mem_cons.mp member with same | later
        · simp [same]
        · have := below item later
          simp [Nat.not_lt.mpr (Nat.le_of_lt this)]
      by_cases differs : test first ≠ other first
      · rw [take_filter_cons_of_ne ascending differs]
        constructor
        · intro none item _ _
          omega
        · intro bounds
          have bound := bounds first List.mem_cons_self differs
          omega
      · have same : test first = other first := not_not.mp differs
        have tail : (∀ item ∈ first :: items, test item ≠ other item →
            count ≤ ((first :: items).filter fun before =>
              test before && decide (key before < key item)).length) ↔
            ∀ item ∈ items, test item ≠ other item →
              count - (if test first then 1 else 0) ≤ (items.filter fun before =>
                test before && decide (key before < key item)).length := by
          rw [List.forall_mem_cons]
          constructor
          · rintro ⟨_, bounds⟩ item member differs
            have bound := bounds item member differs
            rw [before item member] at bound
            omega
          · intro bounds
            refine ⟨fun differs => absurd same differs, ?_⟩
            intro item member differs
            have bound := bounds item member differs
            rw [before item member]
            omega
        rw [tail, ← induction rest]
        cases tested : test first with
        | true =>
            rw [List.filter_cons_of_pos tested, List.filter_cons_of_pos (same ▸ tested)]
            cases count with
            | zero => simp
            | succ count => simp
        | false =>
            have dropped : ¬ other first = true := by
              rw [← same, tested]
              exact Bool.false_ne_true
            have skipped : ¬ test first = true := by
              rw [tested]
              exact Bool.false_ne_true
            rw [List.filter_cons_of_neg skipped, List.filter_cons_of_neg dropped]
            simp

end Selection
