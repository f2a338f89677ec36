import Mathlib.Order.Lattice
import Mathlib.Order.Defs.LinearOrder
import Mathlib.Order.Basic
import Mathlib.Data.List.Pairwise

/-!
# Finite maps with ordered keys

A finite map is kept as the list of its entries in strictly increasing key
order.  The order is a field of the structure, so that two maps with the same
lookups are equal and a walk over the entries meets every key once.
-/

universe u v

/-- A finite map, kept as its entries in strictly increasing key order. -/
structure OrderedMap (κ : Type u) (β : Type v) [LinearOrder κ] where
  entries : List (κ × β)
  sorted : entries.Pairwise (fun left right => left.1 < right.1)

namespace OrderedMap

variable {κ : Type u} {β : Type v} [LinearOrder κ]

instance [DecidableEq β] : DecidableEq (OrderedMap κ β) := fun left right =>
  decidable_of_iff (left.entries = right.entries) (by
    cases left
    cases right
    simp)

def empty : OrderedMap κ β :=
  ⟨[], .nil⟩

/-- The first value stored under a key in a list of entries. -/
def lookupEntries (key : κ) : List (κ × β) → Option β
  | [] => none
  | entry :: rest =>
      if entry.1 = key then some entry.2 else lookupEntries key rest

def lookup (map : OrderedMap κ β) (key : κ) : Option β :=
  lookupEntries key map.entries

/-- Put an entry at its place in a list of entries, replacing the one that
has the same key. -/
def insertEntries (key : κ) (value : β) : List (κ × β) → List (κ × β)
  | [] => [(key, value)]
  | entry :: rest =>
      if key < entry.1 then (key, value) :: entry :: rest
      else if key = entry.1 then (key, value) :: rest
      else entry :: insertEntries key value rest

private theorem mem_insertEntries_key
    {key : κ} {value : β} {entries : List (κ × β)} {entry : κ × β}
    (member : entry ∈ insertEntries key value entries) :
    entry = (key, value) ∨ entry ∈ entries := by
  induction entries with
  | nil => simpa [insertEntries] using member
  | cons head rest induction =>
      simp only [insertEntries] at member
      split at member
      · simpa using member
      · split at member
        · rcases List.mem_cons.mp member with first | later
          · exact .inl first
          · exact .inr (List.mem_cons_of_mem _ later)
        · rcases List.mem_cons.mp member with first | later
          · exact .inr (first ▸ List.mem_cons_self)
          · rcases induction later with here | there
            · exact .inl here
            · exact .inr (List.mem_cons_of_mem _ there)

theorem insertEntries_sorted (key : κ) (value : β)
    {entries : List (κ × β)}
    (sorted : entries.Pairwise (fun left right => left.1 < right.1)) :
    (insertEntries key value entries).Pairwise
      (fun left right => left.1 < right.1) := by
  induction entries with
  | nil => simp [insertEntries]
  | cons head rest induction =>
      have headBelow := (List.pairwise_cons.mp sorted).1
      have restSorted := (List.pairwise_cons.mp sorted).2
      simp only [insertEntries]
      split
      · rename_i below
        refine List.pairwise_cons.mpr ⟨?_, sorted⟩
        intro entry member
        rcases List.mem_cons.mp member with first | later
        · simpa [first] using below
        · exact lt_trans below (headBelow entry later)
      · split
        · rename_i same
          refine List.pairwise_cons.mpr ⟨?_, restSorted⟩
          intro entry member
          simpa [same] using headBelow entry member
        · rename_i notBelow different
          have above : head.1 < key :=
            lt_of_le_of_ne (not_lt.mp notBelow) (Ne.symm different)
          refine List.pairwise_cons.mpr ⟨?_, induction restSorted⟩
          intro entry member
          rcases mem_insertEntries_key member with here | there
          · simpa [here] using above
          · exact headBelow entry there

def insert (map : OrderedMap κ β) (key : κ) (value : β) : OrderedMap κ β :=
  ⟨insertEntries key value map.entries, insertEntries_sorted key value map.sorted⟩

/-- Keep the entries that satisfy a test. -/
def filter (map : OrderedMap κ β) (test : κ → β → Bool) : OrderedMap κ β :=
  ⟨map.entries.filter (fun entry => test entry.1 entry.2),
    map.sorted.filter _⟩

def erase (map : OrderedMap κ β) (key : κ) : OrderedMap κ β :=
  map.filter (fun other _ => decide (other ≠ key))

def keys (map : OrderedMap κ β) : List κ :=
  map.entries.map Prod.fst

/-- The greatest key, which is the last one of the list. -/
def maxKey? (map : OrderedMap κ β) : Option κ :=
  map.keys.getLast?

theorem lookupEntries_eq_some_iff {entries : List (κ × β)}
    (sorted : entries.Pairwise (fun left right => left.1 < right.1))
    {key : κ} {value : β} :
    lookupEntries key entries = some value ↔ (key, value) ∈ entries := by
  induction entries with
  | nil => simp [lookupEntries]
  | cons head rest induction =>
      have headBelow := (List.pairwise_cons.mp sorted).1
      have restSorted := (List.pairwise_cons.mp sorted).2
      simp only [lookupEntries, List.mem_cons]
      by_cases same : head.1 = key
      · have absent : (key, value) ∉ rest := by
          intro member
          have below : head.1 < key := headBelow (key, value) member
          exact lt_irrefl key (same ▸ below)
        simp only [same, if_true, Option.some.injEq, absent, or_false]
        constructor
        · intro equality
          exact Prod.ext same.symm equality.symm
        · intro equality
          rw [← equality]
      · have different : (key, value) ≠ head := by
          intro equality
          exact same (by rw [← equality])
        simp [same, different, induction restSorted]

theorem lookup_eq_some_iff {map : OrderedMap κ β} {key : κ} {value : β} :
    map.lookup key = some value ↔ (key, value) ∈ map.entries :=
  lookupEntries_eq_some_iff map.sorted

theorem lookup_eq_none_iff {map : OrderedMap κ β} {key : κ} :
    map.lookup key = none ↔ ∀ value, (key, value) ∉ map.entries := by
  constructor
  · intro missing value member
    rw [lookup_eq_some_iff.mpr member] at missing
    cases missing
  · intro absent
    cases found : map.lookup key with
    | none => rfl
    | some value => exact (absent value (lookup_eq_some_iff.mp found)).elim

theorem mem_keys_iff {map : OrderedMap κ β} {key : κ} :
    key ∈ map.keys ↔ ∃ value, map.lookup key = some value := by
  simp [keys, lookup_eq_some_iff]

/-- Two sorted lists with the same entries are equal. -/
theorem pairwise_ext {left right : List (κ × β)}
    (leftSorted : left.Pairwise (fun first second => first.1 < second.1))
    (rightSorted : right.Pairwise (fun first second => first.1 < second.1))
    (same : ∀ entry, entry ∈ left ↔ entry ∈ right) : left = right := by
  have leftNodup : left.Nodup :=
    leftSorted.imp (fun below equality => by simp [equality] at below)
  have rightNodup : right.Nodup :=
    rightSorted.imp (fun below equality => by simp [equality] at below)
  have permutation : left.Perm right :=
    (List.perm_ext_iff_of_nodup leftNodup rightNodup).mpr same
  refine permutation.eq_of_pairwise ?_ leftSorted rightSorted
  intro first second _ _ below above
  exact (lt_asymm below above).elim

/-- Two maps with the same lookups are equal. -/
@[ext] theorem ext {left right : OrderedMap κ β}
    (same : ∀ key, left.lookup key = right.lookup key) : left = right := by
  have entries : left.entries = right.entries := by
    apply pairwise_ext left.sorted right.sorted
    rintro ⟨key, value⟩
    rw [← lookup_eq_some_iff, ← lookup_eq_some_iff, same]
  cases left
  cases right
  simpa using entries

@[simp] theorem lookup_empty (key : κ) :
    (empty : OrderedMap κ β).lookup key = none := rfl

private theorem lookupEntries_insertEntries (key other : κ) (value : β)
    (entries : List (κ × β)) :
    lookupEntries other (insertEntries key value entries) =
      if other = key then some value else lookupEntries other entries := by
  induction entries with
  | nil => simp [insertEntries, lookupEntries, eq_comm]
  | cons head rest induction =>
      simp only [insertEntries]
      split
      · simp [lookupEntries, eq_comm]
      · split
        · rename_i same
          by_cases hit : other = key
          · simp [lookupEntries, hit]
          · have miss : head.1 ≠ other := fun equality =>
              hit (by rw [← equality, ← same])
            simp [lookupEntries, hit, miss, Ne.symm hit]
        · rename_i different
          by_cases hit : head.1 = other
          · have apart : other ≠ key := fun equality =>
              different (by rw [hit, equality])
            simp [lookupEntries, hit, apart]
          · simp [lookupEntries, hit, induction]

theorem lookup_insert (map : OrderedMap κ β) (key other : κ) (value : β) :
    (map.insert key value).lookup other =
      if other = key then some value else map.lookup other :=
  lookupEntries_insertEntries key other value map.entries

@[simp] theorem lookup_insert_self (map : OrderedMap κ β) (key : κ) (value : β) :
    (map.insert key value).lookup key = some value := by
  simp [lookup_insert]

theorem lookup_insert_of_ne (map : OrderedMap κ β) {key other : κ}
    (different : other ≠ key) (value : β) :
    (map.insert key value).lookup other = map.lookup other := by
  simp [lookup_insert, different]

theorem lookup_filter_eq_some_iff {map : OrderedMap κ β}
    {test : κ → β → Bool} {key : κ} {value : β} :
    (map.filter test).lookup key = some value ↔
      map.lookup key = some value ∧ test key value = true := by
  simp [lookup_eq_some_iff, filter]

theorem lookup_erase (map : OrderedMap κ β) (key other : κ) :
    (map.erase key).lookup other =
      if other = key then none else map.lookup other := by
  apply Option.ext
  intro value
  rw [erase, lookup_filter_eq_some_iff]
  by_cases same : other = key
  · simp [same]
  · simp [same]

@[simp] theorem lookup_erase_self (map : OrderedMap κ β) (key : κ) :
    (map.erase key).lookup key = none := by
  simp [lookup_erase]

theorem lookup_erase_of_ne (map : OrderedMap κ β) {key other : κ}
    (different : other ≠ key) :
    (map.erase key).lookup other = map.lookup other := by
  simp [lookup_erase, different]

/-- Writing the value that is already there changes nothing. -/
theorem insert_eq_self {map : OrderedMap κ β} {key : κ} {value : β}
    (present : map.lookup key = some value) : map.insert key value = map := by
  ext1 other
  rw [lookup_insert]
  by_cases same : other = key
  · simp [same, present]
  · simp [same]

/-- Erasing a key that is not there changes nothing. -/
theorem erase_eq_self {map : OrderedMap κ β} {key : κ}
    (absent : map.lookup key = none) : map.erase key = map := by
  ext1 other
  rw [lookup_erase]
  by_cases same : other = key
  · simp [same, absent]
  · simp [same]

/-! ## Writing several entries -/

/-- Write the entries of a list one after the other. -/
def insertAll (map : OrderedMap κ β) (written : List (κ × β)) :
    OrderedMap κ β :=
  written.foldl (fun map entry => map.insert entry.1 entry.2) map

/-- The last value that a list writes under a key. -/
def lastWritten (key : κ) : List (κ × β) → Option β
  | [] => none
  | entry :: rest =>
      (lastWritten key rest).or (if key = entry.1 then some entry.2 else none)

theorem lookup_insertAll (map : OrderedMap κ β) (written : List (κ × β))
    (key : κ) :
    (map.insertAll written).lookup key =
      (lastWritten key written).or (map.lookup key) := by
  induction written generalizing map with
  | nil => simp [insertAll, lastWritten]
  | cons entry rest induction =>
      have later := induction (map.insert entry.1 entry.2)
      simp only [insertAll, List.foldl_cons] at later ⊢
      rw [later, lookup_insert, lastWritten, Option.or_assoc]
      by_cases same : key = entry.1
      · simp [same]
      · simp [same]

/-- Writing the same entries again changes nothing. -/
theorem insertAll_insertAll (map : OrderedMap κ β) (written : List (κ × β)) :
    (map.insertAll written).insertAll written = map.insertAll written := by
  ext1 key
  rw [lookup_insertAll, lookup_insertAll]
  cases lastWritten key written <;> simp

/-- No key lies above the greatest one. -/
theorem le_maxKey {map : OrderedMap κ β} {key greatest : κ} {value : β}
    (found : map.maxKey? = some greatest)
    (present : map.lookup key = some value) : key ≤ greatest := by
  have sortedKeys : map.keys.Pairwise (· < ·) :=
    List.pairwise_map.mpr map.sorted
  obtain ⟨front, split⟩ : ∃ front, map.keys = front ++ [greatest] :=
    List.getLast?_eq_some_iff.mp found
  have member : key ∈ map.keys := mem_keys_iff.mpr ⟨value, present⟩
  rw [split] at sortedKeys member
  rcases List.mem_append.mp member with early | last
  · exact le_of_lt ((List.pairwise_append.mp sortedKeys).2.2 key early greatest
      (List.mem_singleton.mpr rfl))
  · exact le_of_eq (List.mem_singleton.mp last)

theorem lookup_of_maxKey {map : OrderedMap κ β} {greatest : κ}
    (found : map.maxKey? = some greatest) :
    ∃ value, map.lookup greatest = some value :=
  mem_keys_iff.mp (List.mem_of_getLast? found)

/-- A key above all others becomes the greatest one. -/
theorem maxKey_insert {map : OrderedMap κ β} (key : κ) (value : β)
    (above : ∀ other present, map.lookup other = some present → other < key) :
    (map.insert key value).maxKey? = some key := by
  have member : key ∈ (map.insert key value).keys :=
    mem_keys_iff.mpr ⟨value, lookup_insert_self map key value⟩
  cases greatest : (map.insert key value).maxKey? with
  | none =>
      rw [maxKey?, List.getLast?_eq_none_iff] at greatest
      rw [greatest] at member
      cases member
  | some top =>
      have below : key ≤ top := le_maxKey greatest (lookup_insert_self map key value)
      obtain ⟨value', found⟩ := lookup_of_maxKey greatest
      rw [lookup_insert] at found
      by_cases same : top = key
      · rw [same]
      · rw [if_neg same] at found
        exact (lt_irrefl _ (lt_of_lt_of_le (above top value' found) below)).elim

theorem lookup_eq_none_of_maxKey_eq_none {map : OrderedMap κ β} (key : κ)
    (found : map.maxKey? = none) : map.lookup key = none := by
  have noKeys : map.keys = [] := List.getLast?_eq_none_iff.mp found
  rw [lookup_eq_none_iff]
  intro value member
  have : key ∈ map.keys := List.mem_map.mpr ⟨_, member, rfl⟩
  simp [noKeys] at this

section transport

variable {ι : Type u} {γ : Type v} [LinearOrder ι]

/-- Change every value of a map. -/
def mapValues (map : OrderedMap κ β) (change : β → γ) : OrderedMap κ γ where
  entries := map.entries.map (fun entry => (entry.1, change entry.2))
  sorted := List.pairwise_map.mpr map.sorted

/-- Rename the keys of a map in their order. -/
def renameKeys (map : OrderedMap κ β) (rename : κ → ι)
    (mono : ∀ first second, first ∈ map.keys → second ∈ map.keys →
      first < second → rename first < rename second) : OrderedMap ι β where
  entries := map.entries.map (fun entry => (rename entry.1, entry.2))
  sorted := by
    apply List.pairwise_map.mpr
    apply map.sorted.imp_of_mem
    intro first second firstMember secondMember below
    exact mono first.1 second.1 (List.mem_map_of_mem firstMember)
      (List.mem_map_of_mem secondMember) below

theorem lookup_mapValues (map : OrderedMap κ β) (change : β → γ) (key : κ) :
    (map.mapValues change).lookup key = (map.lookup key).map change := by
  apply Option.ext
  intro value
  rw [Option.map_eq_some_iff, lookup_eq_some_iff]
  simp only [mapValues, List.mem_map, Prod.exists, Prod.mk.injEq, lookup_eq_some_iff]
  constructor
  · intro present
    obtain ⟨_, stored, member, rfl, same⟩ := present
    exact ⟨stored, member, same⟩
  · intro present
    obtain ⟨stored, member, same⟩ := present
    exact ⟨key, stored, member, rfl, same⟩

theorem lookup_renameKeys_eq_some_iff {map : OrderedMap κ β} {rename : κ → ι}
    {mono : ∀ first second, first ∈ map.keys → second ∈ map.keys →
      first < second → rename first < rename second} {key : ι} {value : β} :
    (map.renameKeys rename mono).lookup key = some value ↔
      ∃ source, rename source = key ∧ map.lookup source = some value := by
  rw [lookup_eq_some_iff]
  simp only [renameKeys, List.mem_map, Prod.exists, Prod.mk.injEq, lookup_eq_some_iff]
  constructor
  · intro present
    obtain ⟨source, _, member, same, rfl⟩ := present
    exact ⟨source, same, member⟩
  · intro present
    obtain ⟨source, same, member⟩ := present
    exact ⟨source, value, member, same, rfl⟩

theorem maxKey_renameKeys (map : OrderedMap κ β) (rename : κ → ι)
    (mono : ∀ first second, first ∈ map.keys → second ∈ map.keys →
      first < second → rename first < rename second) :
    (map.renameKeys rename mono).maxKey? = map.maxKey?.map rename := by
  simp only [maxKey?, keys, renameKeys, List.map_map, List.getLast?_map,
    Option.map_map]
  rfl

end transport

end OrderedMap
