import Mathlib.Tactic.Common

/-!
# Indexes of a partitioned store

One store holds the values of several parts, and every part has a table of its
own with one row for each of its values.  `Indexed` says that tables and store
agree.  It survives a step that changes one key of the store and the same key
of one table, as long as the key does not belong to another part before.
-/

universe u v w x

namespace PartitionedIndex

variable {κ : Type u} {ι : Type v} {ε : Type w} {ρ : Type x}

/-- What a table may hold at a key: the row of the stored value when that
belongs to the part, nothing otherwise. -/
def Entry (tag : ε → Option ι) (isRow : ι → ε → ρ → Prop) (part : ι)
    (stored : Option ε) (found : Option ρ) : Prop :=
  (∃ value row, stored = some value ∧ tag value = some part ∧
      found = some row ∧ isRow part value row) ∨
    ((∀ value, stored = some value → tag value ≠ some part) ∧ found = none)

/-- The tables of the given parts agree with the store. -/
def Indexed (tag : ε → Option ι) (isRow : ι → ε → ρ → Prop) (parts : ι → Prop)
    (store : κ → Option ε) (table : ι → κ → Option ρ) : Prop :=
  ∀ part, parts part → ∀ key, Entry tag isRow part (store key) (table part key)

/-- A key holds nothing that belongs to one of the parts but the given one. -/
def OwnedBy (tag : ε → Option ι) (parts : ι → Prop) (store : κ → Option ε)
    (key : κ) (owner : ι) : Prop :=
  ∀ value part, store key = some value → tag value = some part → parts part →
    part = owner

variable {tag : ε → Option ι} {isRow : ι → ε → ρ → Prop} {parts : ι → Prop}

theorem Entry.none (part : ι) : Entry tag isRow part Option.none Option.none :=
  .inr ⟨fun _ absent => by simp at absent, rfl⟩

section Step

variable {store store' : κ → Option ε} {table table' : ι → κ → Option ρ}
  (changed : κ) (owner : ι)

/-- One key of the store and one row of the owner's table change together. -/
theorem Indexed.step
    (agree : Indexed tag isRow parts store table)
    (owned : OwnedBy tag parts store changed owner)
    (storeFrame : ∀ key, key ≠ changed → store' key = store key)
    (rowFrame : ∀ key, key ≠ changed → table' owner key = table owner key)
    (tableFrame : ∀ part, parts part → part ≠ owner →
      ∀ key, table' part key = table part key)
    (foreign : ∀ value part, store' changed = some value →
      tag value = some part → part = owner)
    (entry : Entry tag isRow owner (store' changed) (table' owner changed)) :
    Indexed tag isRow parts store' table' := by
  intro part isPart key
  by_cases same : part = owner
  · subst same
    by_cases here : key = changed
    · subst here
      exact entry
    · rw [storeFrame key here, rowFrame key here]
      exact agree part isPart key
  · rw [tableFrame part isPart same key]
    by_cases here : key = changed
    · subst here
      right
      constructor
      · intro value present belongs
        exact same (foreign value part present belongs)
      · rcases agree part isPart key with
          ⟨value, row, present, belongs, _, _⟩ | ⟨_, absent⟩
        · exact (same (owned value part present belongs isPart)).elim
        · exact absent
    · rw [storeFrame key here]
      exact agree part isPart key

end Step

end PartitionedIndex
