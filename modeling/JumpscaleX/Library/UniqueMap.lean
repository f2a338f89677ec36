import JumpscaleX.Library.OrderedMap

/-!
# Maps whose values do not clash

A finite map in which no two keys carry values that stand in a given relation,
as the rows of a table with unique columns.  A value can be put under a key
only when it is free there, so every map that can be built satisfies the
constraint.
-/

universe u v

/-- A finite map without two clashing values. -/
structure UniqueMap (κ : Type u) (β : Type v) [LinearOrder κ]
    (clash : β → β → Prop) where
  map : OrderedMap κ β
  apart : ∀ {key other : κ} {value value' : β},
    map.lookup key = some value → map.lookup other = some value' →
      clash value value' → key = other

namespace UniqueMap

variable {κ : Type u} {β : Type v} [LinearOrder κ] {clash : β → β → Prop}

def empty : UniqueMap κ β clash :=
  ⟨.empty, fun found => by simp at found⟩

def lookup (table : UniqueMap κ β clash) (key : κ) : Option β :=
  table.map.lookup key

/-- No other key carries a value that clashes with the given one. -/
def Free (table : UniqueMap κ β clash) (key : κ) (value : β) : Prop :=
  ∀ entry ∈ table.map.entries, entry.1 ≠ key → ¬ clash value entry.2

instance [DecidableRel clash] (table : UniqueMap κ β clash) (key : κ)
    (value : β) : Decidable (table.Free key value) :=
  inferInstanceAs (Decidable (∀ entry ∈ table.map.entries, _))

theorem free_iff {table : UniqueMap κ β clash} {key : κ} {value : β} :
    table.Free key value ↔
      ∀ other value', table.lookup other = some value' → other ≠ key →
        ¬ clash value value' := by
  constructor
  · intro free other value' found
    exact free (other, value') (OrderedMap.lookup_eq_some_iff.mp found)
  · intro apart entry member
    exact apart entry.1 entry.2 (OrderedMap.lookup_eq_some_iff.mpr member)

variable [symmetric : Std.Symm clash]

/-- Put a free value under a key. -/
def put (table : UniqueMap κ β clash) (key : κ) (value : β)
    (free : table.Free key value) : UniqueMap κ β clash :=
  ⟨table.map.insert key value, by
    intro first second value₁ value₂ foundFirst foundSecond clashes
    rw [OrderedMap.lookup_insert] at foundFirst foundSecond
    by_cases atFirst : first = key
    · by_cases atSecond : second = key
      · rw [atFirst, atSecond]
      · rw [if_pos atFirst] at foundFirst
        rw [if_neg atSecond] at foundSecond
        cases foundFirst
        exact (free_iff.mp free second value₂ foundSecond atSecond clashes).elim
    · rw [if_neg atFirst] at foundFirst
      by_cases atSecond : second = key
      · rw [if_pos atSecond] at foundSecond
        cases foundSecond
        exact (free_iff.mp free first value₁ foundFirst atFirst
          (symmetric.symm _ _ clashes)).elim
      · rw [if_neg atSecond] at foundSecond
        exact table.apart foundFirst foundSecond clashes⟩

omit symmetric in
/-- Keep the entries that satisfy a test. -/
def filter (table : UniqueMap κ β clash) (test : κ → β → Bool) :
    UniqueMap κ β clash :=
  ⟨table.map.filter test, fun found found' clashes =>
    table.apart (OrderedMap.lookup_filter_eq_some_iff.mp found).1
      (OrderedMap.lookup_filter_eq_some_iff.mp found').1 clashes⟩

omit symmetric in
def erase (table : UniqueMap κ β clash) (key : κ) : UniqueMap κ β clash :=
  table.filter (fun other _ => decide (other ≠ key))

omit symmetric in
/-- Two maps with the same lookups are equal. -/
@[ext] theorem ext {left right : UniqueMap κ β clash}
    (same : ∀ key, left.lookup key = right.lookup key) : left = right := by
  have maps : left.map = right.map := OrderedMap.ext same
  cases left
  cases right
  simpa using maps

omit symmetric in
@[simp] theorem lookup_empty (key : κ) :
    (empty : UniqueMap κ β clash).lookup key = none := rfl

theorem lookup_put (table : UniqueMap κ β clash) (key other : κ) (value : β)
    (free : table.Free key value) :
    (table.put key value free).lookup other =
      if other = key then some value else table.lookup other :=
  OrderedMap.lookup_insert table.map key other value

omit symmetric in
theorem lookup_filter_eq_some_iff {table : UniqueMap κ β clash}
    {test : κ → β → Bool} {key : κ} {value : β} :
    (table.filter test).lookup key = some value ↔
      table.lookup key = some value ∧ test key value = true :=
  OrderedMap.lookup_filter_eq_some_iff

omit symmetric in
theorem lookup_erase (table : UniqueMap κ β clash) (key other : κ) :
    (table.erase key).lookup other =
      if other = key then none else table.lookup other :=
  OrderedMap.lookup_erase table.map key other

end UniqueMap
