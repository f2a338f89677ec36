import Mathlib.Data.List.Nodup

/-!
# Dictionaries in insertion order

A finite map that is kept as the list of its entries, in the order in which their keys were
first put in.  The keys are distinct, as a field of the structure.
-/

universe u v

structure Dict (κ : Type u) (β : Type v) [DecidableEq κ] where
  entries : List (κ × β)
  nodup : (entries.map Prod.fst).Nodup

namespace Dict

variable {κ : Type u} {β : Type v} [DecidableEq κ] {dict : Dict κ β} {key other : κ}
  {value : β}

def empty : Dict κ β :=
  ⟨[], List.nodup_nil⟩

def get (dict : Dict κ β) (key : κ) : Option β :=
  dict.entries.lookup key

def keys (dict : Dict κ β) : List κ :=
  dict.entries.map Prod.fst

/-- Replace the value of a key that is there, or put a new key behind the others. -/
def putEntries (key : κ) (value : β) : List (κ × β) → List (κ × β)
  | [] => [(key, value)]
  | entry :: entries =>
      if entry.1 = key then (key, value) :: entries
      else entry :: putEntries key value entries

theorem mem_keys_putEntries {entries : List (κ × β)} :
    other ∈ (putEntries key value entries).map Prod.fst ↔
      other = key ∨ other ∈ entries.map Prod.fst := by
  induction entries with
  | nil => simp [putEntries]
  | cons entry entries induction =>
      rw [putEntries]
      split
      case isTrue same => simp [same]
      case isFalse differ =>
        rw [List.map_cons, List.mem_cons, induction, List.map_cons, List.mem_cons]
        exact or_left_comm

theorem nodup_putEntries {entries : List (κ × β)} (nodup : (entries.map Prod.fst).Nodup) :
    ((putEntries key value entries).map Prod.fst).Nodup := by
  induction entries with
  | nil => simp [putEntries]
  | cons entry entries induction =>
      rw [List.map_cons, List.nodup_cons] at nodup
      rw [putEntries]
      split
      case isTrue same =>
        rw [List.map_cons, List.nodup_cons, ← same]
        exact nodup
      case isFalse differ =>
        rw [List.map_cons, List.nodup_cons, mem_keys_putEntries]
        constructor
        · rintro (same | member)
          · exact differ same
          · exact nodup.1 member
        · exact induction nodup.2

theorem putEntries_of_not_mem {entries : List (κ × β)} (absent : key ∉ entries.map Prod.fst) :
    putEntries key value entries = entries ++ [(key, value)] := by
  induction entries with
  | nil => rfl
  | cons entry entries induction =>
      rw [List.map_cons, List.mem_cons, not_or] at absent
      rw [putEntries, if_neg (Ne.symm absent.1), induction absent.2, List.cons_append]

def put (dict : Dict κ β) (key : κ) (value : β) : Dict κ β :=
  ⟨putEntries key value dict.entries, nodup_putEntries dict.nodup⟩

theorem lookup_cons (key : κ) (entry : κ × β) (entries : List (κ × β)) :
    (entry :: entries).lookup key =
      if key = entry.1 then some entry.2 else entries.lookup key := by
  obtain ⟨first, value⟩ := entry
  by_cases same : key = first
  · simp [same]
  · have skipped : (key == first) = false := by simpa using same
    simp [List.lookup_cons, skipped, same]

theorem get_eq_some_iff : dict.get key = some value ↔ (key, value) ∈ dict.entries := by
  obtain ⟨entries, nodup⟩ := dict
  rw [get]
  induction entries with
  | nil => simp
  | cons entry entries induction =>
      rw [List.map_cons, List.nodup_cons] at nodup
      by_cases same : key = entry.1
      · have absent : (key, value) ∉ entries := by
          intro member
          apply nodup.1
          rw [← same]
          exact List.mem_map_of_mem member
        rw [lookup_cons, if_pos same, List.mem_cons, or_iff_left absent, Option.some.injEq]
        constructor
        · intro equal
          exact Prod.ext same equal.symm
        · intro equal
          rw [← equal]
      · have differ : (key, value) ≠ entry := by
          intro equal
          exact same (by rw [← equal])
        rw [lookup_cons, if_neg same, induction nodup.2, List.mem_cons, or_iff_right differ]

theorem mem_keys_iff : key ∈ dict.keys ↔ dict.get key ≠ none := by
  rw [Option.ne_none_iff_exists', keys, List.mem_map]
  constructor
  · rintro ⟨entry, member, rfl⟩
    exact ⟨entry.2, get_eq_some_iff.mpr member⟩
  · rintro ⟨value, found⟩
    exact ⟨(key, value), get_eq_some_iff.mp found, rfl⟩

theorem lookup_putEntries {entries : List (κ × β)} :
    (putEntries key value entries).lookup other =
      if other = key then some value else entries.lookup other := by
  induction entries with
  | nil => rw [putEntries, lookup_cons]
  | cons entry entries induction =>
      rw [putEntries, lookup_cons]
      split
      case isTrue same =>
        rw [lookup_cons, same]
        split
        case isTrue => rfl
        case isFalse => rfl
      case isFalse differ =>
        rw [lookup_cons, induction]
        by_cases here : other = entry.1
        · have elsewhere : other ≠ key := by
            rw [here]
            exact differ
          rw [if_pos here, if_neg elsewhere, if_pos here]
        · rw [if_neg here, if_neg here]

@[simp] theorem get_put : (dict.put key value).get other =
    if other = key then some value else dict.get other :=
  lookup_putEntries

@[simp] theorem get_empty : (empty : Dict κ β).get key = none := rfl

def erase (dict : Dict κ β) (key : κ) : Dict κ β :=
  ⟨dict.entries.filter (fun entry => entry.1 ≠ key),
    (List.filter_sublist.map Prod.fst).nodup dict.nodup⟩

@[simp] theorem get_erase : (dict.erase key).get other =
    if other = key then none else dict.get other := by
  apply Option.ext
  intro value
  have kept : (other, value) ∈ (dict.erase key).entries ↔
      (other, value) ∈ dict.entries ∧ other ≠ key := by
    rw [erase, List.mem_filter, decide_eq_true_iff]
  rw [get_eq_some_iff, kept]
  split
  case isTrue same => simp [same]
  case isFalse differ => rw [and_iff_left differ, get_eq_some_iff]

section

variable {γ : Type*}

theorem get_foldl_putEntries {keep : κ → Prop} [DecidablePred keep] (change : γ → β)
    {vars : List (κ × γ)} (distinct : (vars.map Prod.fst).Nodup) (start : Dict κ β) :
    (vars.foldl (fun dict var => if keep var.1 then dict.put var.1 (change var.2) else dict)
      start).get key =
      if keep key then ((vars.lookup key).map change).or (start.get key)
      else start.get key := by
  induction vars generalizing start with
  | nil => simp
  | cons var vars induction =>
      rw [List.map_cons, List.nodup_cons] at distinct
      rw [List.foldl_cons, induction distinct.2, lookup_cons]
      by_cases here : key = var.1
      · have absent : vars.lookup key = none := by
          rw [List.lookup_eq_none_iff]
          intro other member
          apply bne_iff_ne.mpr
          intro same
          apply distinct.1
          rw [← here, same]
          exact List.mem_map_of_mem member
        rw [absent, here]
        by_cases kept : keep var.1
        · simp [kept]
        · simp [kept]
      · by_cases kept : keep var.1
        · simp [here, kept]
        · simp [here, kept]

/-- What the assignments of one dictionary make of another one, of those that are kept. -/
theorem get_foldl_put_if (keep : κ → Prop) [DecidablePred keep] (change : γ → β)
    (vars : Dict κ γ) (start : Dict κ β) (key : κ) :
    (vars.entries.foldl
      (fun dict var => if keep var.1 then dict.put var.1 (change var.2) else dict) start).get key =
      if keep key then ((vars.get key).map change).or (start.get key) else start.get key :=
  get_foldl_putEntries change vars.nodup start

theorem get_foldl_put (vars : Dict κ β) (key : κ) :
    (vars.entries.foldl (fun dict var => dict.put var.1 var.2) empty).get key =
      vars.get key := by
  have general := get_foldl_put_if (fun _ => True) id vars empty key
  simpa using general

end

theorem entries_nodup : dict.entries.Nodup :=
  List.Nodup.of_map Prod.fst dict.nodup

/-- What a test keeps of the entries is one entry when it keeps that entry and no other. -/
theorem filter_eq_singleton {test : κ × β → Bool} {entry : κ × β}
    (kept : entry ∈ dict.entries.filter test)
    (only : ∀ other ∈ dict.entries.filter test, other = entry) :
    dict.entries.filter test = [entry] := by
  have nodup := dict.entries_nodup.filter test
  obtain ⟨first, rest, shape⟩ := List.exists_cons_of_ne_nil (List.ne_nil_of_mem kept)
  rw [shape] at nodup only ⊢
  have same := only first List.mem_cons_self
  have empty : rest = [] := by
    apply List.eq_nil_iff_forall_not_mem.mpr
    intro other member
    apply (List.nodup_cons.mp nodup).1
    rw [same, ← only other (List.mem_cons_of_mem _ member)]
    exact member
  rw [same, empty]

end Dict
