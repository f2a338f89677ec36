import Mathlib.Data.List.Nodup
import Mathlib.Logic.Function.Basic

/-!
# Custody of ids

Ids wait in a queue or are held by someone, who takes them from its front, puts
them back at its end or lets them go.  As long as only ids that are nowhere
enter, every id is in one place.
-/

structure Custody (ι η : Type) where
  queue : List ι
  held : η → Option ι

namespace Custody

variable {ι η : Type} [DecidableEq η]

/-- The id waits or is held. -/
def Located (custody : Custody ι η) (id : ι) : Prop :=
  id ∈ custody.queue ∨ ∃ holder, custody.held holder = some id

/-- Every id is in at most one place. -/
structure Unique (custody : Custody ι η) : Prop where
  once : custody.queue.Nodup
  apart : ∀ holder id, custody.held holder = some id → id ∉ custody.queue
  alone : ∀ first second id, custody.held first = some id →
    custody.held second = some id → first = second

def hold (custody : Custody ι η) (holder : η) (id : Option ι) : Custody ι η where
  queue := custody.queue
  held := Function.update custody.held holder id

/-- The holder gets the id at the front, which leaves the rest. -/
def take (custody : Custody ι η) (holder : η) (id : ι) (rest : List ι) :
    Custody ι η where
  queue := rest
  held := Function.update custody.held holder (some id)

/-- The holder puts the id back at the end. -/
def giveBack (custody : Custody ι η) (holder : η) (id : ι) : Custody ι η where
  queue := custody.queue ++ [id]
  held := Function.update custody.held holder none

section

variable {custody : Custody ι η} {holder : η} {id other : ι} {rest : List ι}

/-- What a partial function has behind the change of one of its values. -/
theorem update_eq_some {function : η → Option ι} {first : η} {value : Option ι}
    (found : Function.update function holder value first = some other) :
    (first = holder ∧ value = some other) ∨
      (first ≠ holder ∧ function first = some other) := by
  by_cases same : first = holder
  · subst same
    rw [Function.update_self] at found
    exact .inl ⟨rfl, found⟩
  · rw [Function.update_of_ne same] at found
    exact .inr ⟨same, found⟩

theorem Unique.release (unique : custody.Unique) :
    (custody.hold holder none).Unique where
  once := unique.once
  apart := by
    intro first id found
    rcases update_eq_some found with ⟨_, impossible⟩ | ⟨_, found⟩
    · cases impossible
    · exact unique.apart first id found
  alone := by
    intro first second id foundFirst foundSecond
    rcases update_eq_some foundFirst with ⟨_, impossible⟩ | ⟨_, foundFirst⟩
    · cases impossible
    · rcases update_eq_some foundSecond with ⟨_, impossible⟩ | ⟨_, foundSecond⟩
      · cases impossible
      · exact unique.alone first second id foundFirst foundSecond

/-- Only an id that is nowhere may enter. -/
theorem Unique.enter (unique : custody.Unique) (absent : ¬ custody.Located id) :
    (custody.hold holder (some id)).Unique where
  once := unique.once
  apart := by
    intro first other found
    rcases update_eq_some found with ⟨_, same⟩ | ⟨_, found⟩
    · cases same
      intro waits
      exact absent (.inl waits)
    · exact unique.apart first other found
  alone := by
    intro first second other foundFirst foundSecond
    rcases update_eq_some foundFirst with ⟨rfl, same⟩ | ⟨_, foundFirst⟩
    · cases same
      rcases update_eq_some foundSecond with ⟨rfl, _⟩ | ⟨_, foundSecond⟩
      · rfl
      · exact absurd (.inr ⟨second, foundSecond⟩) absent
    · rcases update_eq_some foundSecond with ⟨_, same⟩ | ⟨_, foundSecond⟩
      · cases same
        exact absurd (.inr ⟨first, foundFirst⟩) absent
      · exact unique.alone first second other foundFirst foundSecond

theorem Unique.take (unique : custody.Unique) (front : custody.queue = id :: rest) :
    (custody.take holder id rest).Unique := by
  have once := unique.once
  rw [front] at once
  obtain ⟨fresh, once⟩ := List.nodup_cons.mp once
  have waits : id ∈ custody.queue := front ▸ List.mem_cons_self
  have unheld (first : η) : custody.held first ≠ some id :=
    fun found => unique.apart first id found waits
  refine ⟨once, ?_, ?_⟩
  · intro first other found
    rcases update_eq_some found with ⟨_, same⟩ | ⟨_, found⟩
    · cases same
      exact fresh
    · intro later
      apply unique.apart first other found
      rw [front]
      exact List.mem_cons_of_mem _ later
  · intro first second other foundFirst foundSecond
    rcases update_eq_some foundFirst with ⟨rfl, same⟩ | ⟨_, foundFirst⟩
    · cases same
      rcases update_eq_some foundSecond with ⟨rfl, _⟩ | ⟨_, foundSecond⟩
      · rfl
      · exact absurd foundSecond (unheld second)
    · rcases update_eq_some foundSecond with ⟨_, same⟩ | ⟨_, foundSecond⟩
      · cases same
        exact absurd foundFirst (unheld first)
      · exact unique.alone first second other foundFirst foundSecond

theorem Unique.giveBack (unique : custody.Unique)
    (has : custody.held holder = some id) : (custody.giveBack holder id).Unique where
  once := by
    apply List.Nodup.append unique.once (List.nodup_singleton id)
    rw [List.disjoint_singleton]
    exact unique.apart holder id has
  apart := by
    intro first other found
    rcases update_eq_some found with ⟨_, impossible⟩ | ⟨different, found⟩
    · cases impossible
    · intro member
      rcases List.mem_append.mp member with waits | same
      · exact unique.apart first other found waits
      · cases List.mem_singleton.mp same
        exact different (unique.alone first holder id found has)
  alone := unique.release.alone

end

/-! ### Where an id is found -/

section

variable {custody : Custody ι η} {holder : η} {id : ι} {rest : List ι}

/-- What the holder does not hold stays where it is. -/
theorem Located.release {other : ι} (located : custody.Located other)
    (different : custody.held holder ≠ some other) :
    (custody.hold holder none).Located other := by
  rcases located with waits | ⟨first, found⟩
  · exact .inl waits
  · refine .inr ⟨first, ?_⟩
    have elsewhere : first ≠ holder := by
      rintro rfl
      exact different found
    exact (Function.update_of_ne elsewhere _ _).trans found

/-- Letting go puts no id anywhere. -/
theorem located_of_release {other : ι}
    (located : (custody.hold holder none).Located other) : custody.Located other := by
  rcases located with waits | ⟨first, found⟩
  · exact .inl waits
  · rcases update_eq_some found with ⟨_, impossible⟩ | ⟨_, found⟩
    · cases impossible
    · exact .inr ⟨first, found⟩

theorem located_release (unique : custody.Unique)
    (has : custody.held holder = some id) (other : ι) :
    (custody.hold holder none).Located other ↔ custody.Located other ∧ other ≠ id := by
  constructor
  · intro located
    refine ⟨located_of_release located, ?_⟩
    rintro rfl
    rcases located with waits | ⟨first, found⟩
    · exact unique.apart holder other has waits
    · rcases update_eq_some found with ⟨_, impossible⟩ | ⟨different, found⟩
      · cases impossible
      · exact different (unique.alone first holder other found has)
  · rintro ⟨located, different⟩
    apply located.release
    rw [has]
    exact fun same => different (Option.some.inj same).symm

theorem located_enter (free : custody.held holder = none) (other : ι) :
    (custody.hold holder (some id)).Located other ↔
      custody.Located other ∨ other = id := by
  constructor
  · intro located
    rcases located with waits | ⟨first, found⟩
    · exact .inl (.inl waits)
    · rcases update_eq_some found with ⟨_, same⟩ | ⟨_, found⟩
      · exact .inr (Option.some.inj same).symm
      · exact .inl (.inr ⟨first, found⟩)
  · rintro ((waits | ⟨first, found⟩) | rfl)
    · exact .inl waits
    · refine .inr ⟨first, ?_⟩
      have elsewhere : first ≠ holder := by
        rintro rfl
        rw [free] at found
        cases found
      exact (Function.update_of_ne elsewhere _ _).trans found
    · exact .inr ⟨holder, Function.update_self ..⟩

theorem located_take (free : custody.held holder = none)
    (front : custody.queue = id :: rest) (other : ι) :
    (custody.take holder id rest).Located other ↔ custody.Located other := by
  have entered : (custody.hold holder (some id)).Located other ↔
      custody.Located other ∨ other = id :=
    located_enter free other
  constructor
  · intro located
    rcases located with waits | held
    · exact .inl (front ▸ List.mem_cons_of_mem _ waits)
    · rcases entered.mp (.inr held) with located | rfl
      · exact located
      · exact .inl (front ▸ List.mem_cons_self)
  · intro located
    rcases located with waits | held
    · rw [front] at waits
      rcases List.mem_cons.mp waits with rfl | waits
      · exact .inr ⟨holder, Function.update_self ..⟩
      · exact .inl waits
    · rcases entered.mpr (.inl (.inr held)) with waits | held
      · change other ∈ custody.queue at waits
        rw [front] at waits
        rcases List.mem_cons.mp waits with rfl | waits
        · exact .inr ⟨holder, Function.update_self ..⟩
        · exact .inl waits
      · exact .inr held

theorem located_giveBack (unique : custody.Unique)
    (has : custody.held holder = some id) (other : ι) :
    (custody.giveBack holder id).Located other ↔ custody.Located other := by
  have released := located_release unique has other
  constructor
  · intro located
    rcases located with waits | held
    · rcases List.mem_append.mp waits with waits | same
      · exact .inl waits
      · cases List.mem_singleton.mp same
        exact .inr ⟨holder, has⟩
    · exact (released.mp (.inr held)).1
  · intro located
    by_cases same : other = id
    · subst same
      exact .inl (List.mem_append_right _ (List.mem_singleton_self other))
    · rcases released.mpr ⟨located, same⟩ with waits | held
      · exact .inl (List.mem_append_left _ waits)
      · exact .inr held

end

end Custody
