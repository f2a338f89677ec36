import Mathlib.Data.List.Infix
import JumpscaleX.Resolvers

/-!
# The search for a soul in the graph

`search` of `resolvers.py` walks through a graph depth first and keeps the keys
on the way in one list, which the calls below a key share.
-/

namespace JumpscaleX

namespace Gun

/-- `key in ">_"`, which is true of every part of the text. -/
def skipped (key : String) : Bool :=
  decide (key.toList.IsInfix ['>', '_'])

/-- `isinstance(node, dict) and node.get("#") == k`. -/
def isReference (k : String) : PyVal → Bool
  | .dict fields => decide (fields.lookup "#" = some (.str k))
  | _ => false

/-- `if current_key: path.append(current_key)`. -/
def pushed (currentKey : Option String) (path : List String) : List String :=
  match currentKey with
  | some key => if key = "" then path else path ++ [key]
  | none => path

/-- `if current_key: path.pop()`. -/
def popped (currentKey : Option String) (path : List String) : List String :=
  match currentKey with
  | some key => if key = "" then path else path.dropLast
  | none => path

mutual

/-- `inner`: what it returns, and the list of the caller afterwards.  An empty
list is replaced by a new one, which the caller does not see. -/
def inner (k : String) (currentKey : Option String) :
    PyVal → List String → List String × List String
  | .dict currentNode, path =>
      let visited := innerItems k currentNode (pushed currentKey path)
      if visited.1 ≠ [] then visited
      else ([], if path = [] then [] else popped currentKey visited.2)
  | _, path => ([], path)

/-- The loop over the items of a node. -/
def innerItems (k : String) :
    List (String × PyVal) → List String → List String × List String
  | [], path => ([], path)
  | (key, node) :: rest, path =>
      if skipped key then innerItems k rest path
      else if isReference k node then (path ++ [key], path ++ [key])
      else
        let res := inner k (some key) node path
        if res.1 ≠ [] then res else innerItems k rest res.2

end

/-- `search`.  The root objects take no part. -/
def search (k : String) (graph : Nodes) : List String :=
  (inner k none (.dict graph) []).1

/-- The keys of a path lead from a node to one whose `#` is the soul, and none of
them is left out. -/
inductive LeadsTo (leftOut : String → Prop) (k : String) : PyVal → List String → Prop where
  | here {fields : List (String × PyVal)} {key : String} {node : PyVal} :
      (key, node) ∈ fields → ¬ leftOut key → isReference k node = true →
      LeadsTo leftOut k (.dict fields) [key]
  | there {fields : List (String × PyVal)} {key : String} {node : PyVal}
      {path : List String} :
      (key, node) ∈ fields → ¬ leftOut key → LeadsTo leftOut k node path →
      LeadsTo leftOut k (.dict fields) (key :: path)

/-- A search returns no list, or the keys to a reference behind those that it
started with. -/
structure Finds (k : String) (node : PyVal) (start path : List String)
    (visited : List String × List String) : Prop where
  found : visited.1 ≠ [] → ∃ rest, visited.1 = start ++ rest ∧
    LeadsTo (fun key => skipped key = true) k node rest
  complete : visited.1 = [] → ∀ rest, ¬ LeadsTo (fun key => skipped key = true) k node rest
  restored : visited.1 = [] → visited.2 = path

section

variable {k key : String} {node : PyVal} {rest : List (String × PyVal)}
variable {path : List String} {leftOut : String → Prop}

/-- A path through a node starts at its first item or at a later one. -/
theorem leadsTo_cons_iff :
    LeadsTo leftOut k (.dict ((key, node) :: rest)) path ↔
      (¬ leftOut key ∧ (isReference k node = true ∧ path = [key] ∨
        ∃ later, path = key :: later ∧ LeadsTo leftOut k node later)) ∨
      LeadsTo leftOut k (.dict rest) path := by
  constructor
  · intro leads
    cases leads with
    | here member kept reference =>
        rcases List.mem_cons.mp member with first | later
        · cases first
          exact .inl ⟨kept, .inl ⟨reference, rfl⟩⟩
        · exact .inr (.here later kept reference)
    | there member kept leads =>
        rcases List.mem_cons.mp member with first | later
        · cases first
          exact .inl ⟨kept, .inr ⟨_, rfl, leads⟩⟩
        · exact .inr (.there later kept leads)
  · rintro (⟨kept, ⟨reference, rfl⟩ | ⟨later, rfl, leads⟩⟩ | leads)
    · exact .here List.mem_cons_self kept reference
    · exact .there List.mem_cons_self kept leads
    · cases leads with
      | here member kept reference => exact .here (List.mem_cons_of_mem _ member) kept reference
      | there member kept leads => exact .there (List.mem_cons_of_mem _ member) kept leads

theorem not_leadsTo_nil : ¬ LeadsTo leftOut k (.dict []) path := by
  intro leads
  cases leads with
  | here member _ _ => cases member
  | there member _ _ => cases member

end

theorem popped_pushed (currentKey : Option String) (path : List String) :
    popped currentKey (pushed currentKey path) = path := by
  cases currentKey with
  | none => rfl
  | some key =>
      by_cases empty : key = ""
      · simp [popped, pushed, empty]
      · simp [popped, pushed, empty]

mutual

theorem inner_finds (k : String) (currentKey : Option String) (node : PyVal)
    (path : List String) :
    Finds k node (pushed currentKey path) path (inner k currentKey node path) := by
  cases node with
  | dict fields =>
      have items := innerItems_finds k fields (pushed currentKey path)
      unfold inner
      by_cases found : (innerItems k fields (pushed currentKey path)).1 = []
      · simp only [found, ne_eq, not_true_eq_false, if_false]
        refine ⟨by simp, fun _ => items.complete found, fun _ => ?_⟩
        rw [items.restored found, popped_pushed]
        by_cases empty : path = []
        · rw [if_pos empty, empty]
        · rw [if_neg empty]
      · simp only [ne_eq, found, not_false_eq_true, if_true]
        exact ⟨items.found, fun none => (found none).elim, fun none => (found none).elim⟩
  | _ => exact ⟨by simp [inner], fun _ _ leads => (by cases leads), fun _ => rfl⟩

theorem innerItems_finds (k : String) (fields : List (String × PyVal))
    (path : List String) :
    Finds k (.dict fields) path path (innerItems k fields path) := by
  cases fields with
  | nil => exact ⟨by simp [innerItems], fun _ _ => not_leadsTo_nil, fun _ => rfl⟩
  | cons field rest =>
      obtain ⟨key, node⟩ := field
      unfold innerItems
      by_cases out : skipped key = true
      · -- The item is passed over.
        have later := innerItems_finds k rest path
        have only : ∀ found, LeadsTo (fun key => skipped key = true) k
            (.dict ((key, node) :: rest)) found ↔
              LeadsTo (fun key => skipped key = true) k (.dict rest) found := by
          intro found
          rw [leadsTo_cons_iff]
          simp [out]
        rw [if_pos out]
        refine ⟨fun found => ?_, fun none found => ?_, later.restored⟩
        · obtain ⟨back, same, leads⟩ := later.found found
          exact ⟨back, same, (only back).mpr leads⟩
        · rw [only found]
          exact later.complete none found
      · rw [if_neg out]
        by_cases reference : isReference k node = true
        · rw [if_pos reference]
          refine ⟨fun _ => ⟨[key], rfl, .here List.mem_cons_self out reference⟩, ?_, ?_⟩
          · intro impossible
            simp at impossible
          · intro impossible
            simp at impossible
        · rw [if_neg reference]
          have first := inner_finds k (some key) node path
          by_cases nothing : (inner k (some key) node path).1 = []
          · -- Nothing stands below the key, and the list is as it was.
            have restored := first.restored nothing
            have later := innerItems_finds k rest path
            have only : ∀ found, LeadsTo (fun key => skipped key = true) k
                (.dict ((key, node) :: rest)) found ↔
                  LeadsTo (fun key => skipped key = true) k (.dict rest) found := by
              intro found
              rw [leadsTo_cons_iff]
              simp [reference, first.complete nothing]
            simp only [nothing, ne_eq, not_true_eq_false, if_false, restored]
            refine ⟨fun found => ?_, fun none found => ?_, later.restored⟩
            · obtain ⟨back, same, leads⟩ := later.found found
              exact ⟨back, same, (only back).mpr leads⟩
            · rw [only found]
              exact later.complete none found
          · simp only [ne_eq, nothing, not_false_eq_true, if_true]
            refine ⟨fun _ => ?_, fun none => (nothing none).elim,
              fun none => (nothing none).elim⟩
            obtain ⟨back, same, leads⟩ := first.found nothing
            have named : key ≠ "" := by
              rintro rfl
              exact out (by decide)
            refine ⟨key :: back, ?_, .there List.mem_cons_self out leads⟩
            rw [same]
            simp [pushed, named]

end

/-! ## What the search finds -/

/-- The keys under which a node has its metadata. -/
def metadataKey (key : String) : Prop :=
  key = ">" ∨ key = "_"

/-- The parts of the text: the two keys of metadata, the empty key and the text
itself. -/
theorem skipped_iff (key : String) :
    skipped key = true ↔ metadataKey key ∨ key = "" ∨ key = ">_" := by
  have text : ∀ chars, key.toList = chars ↔ key = String.ofList chars := by
    intro chars
    constructor
    · rintro rfl
      exact (String.ofList_toList).symm
    · rintro rfl
      exact String.toList_ofList
  have parts : key.toList.IsInfix ['>', '_'] ↔
      key.toList = [] ∨ key.toList = ['>'] ∨ key.toList = ['>', '_'] ∨ key.toList = ['_'] := by
    simp only [List.infix_cons_iff, List.prefix_cons_iff, List.prefix_nil, List.infix_nil]
    aesop
  rw [skipped, decide_eq_true_iff, parts, text, text, text, text]
  change key = "" ∨ key = ">" ∨ key = ">_" ∨ key = "_" ↔
    (key = ">" ∨ key = "_") ∨ key = "" ∨ key = ">_"
  tauto

/-- The search returns a path exactly when there is one that leads to the soul
outside of the metadata, and it returns such a path. -/
structure SearchExact (k : String) (graph : Nodes) : Prop where
  finds : search k graph ≠ [] ↔ ∃ path, LeadsTo metadataKey k (.dict graph) path
  leads : search k graph ≠ [] → LeadsTo metadataKey k (.dict graph) (search k graph)

/-- A path without the empty key and the key `>_`. -/
def PlainPath (path : List String) : Prop :=
  "" ∉ path ∧ ">_" ∉ path

/-- What the walk leaves out are paths through the empty key or the key `>_`. -/
theorem leadsTo_skipped_iff {k : String} {node : PyVal} {path : List String} :
    LeadsTo (fun key => skipped key = true) k node path ↔
      LeadsTo metadataKey k node path ∧ PlainPath path := by
  have plain_cons : ∀ key rest, PlainPath (key :: rest) ↔
      (key ≠ "" ∧ key ≠ ">_") ∧ PlainPath rest := by
    intro key rest
    simp only [PlainPath, List.mem_cons, not_or, ne_eq, eq_comm (b := key)]
    tauto
  constructor
  · intro leads
    induction leads with
    | here member kept reference =>
        rw [skipped_iff, not_or, not_or] at kept
        exact ⟨.here member kept.1 reference, (plain_cons _ _).mpr ⟨kept.2, by simp [PlainPath]⟩⟩
    | there member kept _ induction =>
        rw [skipped_iff, not_or, not_or] at kept
        exact ⟨.there member kept.1 induction.1, (plain_cons _ _).mpr ⟨kept.2, induction.2⟩⟩
  · rintro ⟨leads, plain⟩
    induction leads with
    | here member kept reference =>
        have named := ((plain_cons _ _).mp plain).1
        refine .here member ?_ reference
        rw [skipped_iff, not_or, not_or]
        exact ⟨kept, named⟩
    | there member kept _ induction =>
        obtain ⟨named, plain⟩ := (plain_cons _ _).mp plain
        refine .there member ?_ (induction plain)
        rw [skipped_iff, not_or, not_or]
        exact ⟨kept, named⟩

theorem search_leads {k : String} {graph : Nodes} (found : search k graph ≠ []) :
    LeadsTo metadataKey k (.dict graph) (search k graph) ∧ PlainPath (search k graph) := by
  obtain ⟨rest, same, leads⟩ := (inner_finds k none (.dict graph) []).found found
  have isRest : search k graph = rest := same
  rw [isRest]
  exact leadsTo_skipped_iff.mp leads

theorem search_complete {k : String} {graph : Nodes} {path : List String}
    (leads : LeadsTo metadataKey k (.dict graph) path) (plain : PlainPath path) :
    search k graph ≠ [] := by
  intro nothing
  exact (inner_finds k none (.dict graph) []).complete nothing path
    (leadsTo_skipped_iff.mpr ⟨leads, plain⟩)

/-- The search is exact when a soul that is anywhere is also on a path without
the two keys. -/
theorem searchExact_iff (k : String) (graph : Nodes) :
    SearchExact k graph ↔
      ((∃ path, LeadsTo metadataKey k (.dict graph) path) →
        ∃ path, LeadsTo metadataKey k (.dict graph) path ∧ PlainPath path) := by
  constructor
  · intro exact anywhere
    have found := exact.finds.mpr anywhere
    exact ⟨search k graph, search_leads found⟩
  · intro plainly
    refine ⟨⟨?_, ?_⟩, fun found => (search_leads found).1⟩
    · intro found
      exact ⟨_, (search_leads found).1⟩
    · intro anywhere
      obtain ⟨path, leads, plain⟩ := plainly anywhere
      exact search_complete leads plain

/-- The value under the empty key is not found. -/
theorem search_misses_empty_key :
    ¬ SearchExact "soul" [("", .dict [("#", .str "soul")])] := by
  intro exact
  have nothing : search "soul" [("", .dict [("#", .str "soul")])] = [] := by decide
  refine exact.finds.mpr ⟨[""], ?_⟩ nothing
  exact .here List.mem_cons_self (by simp [metadataKey]) (by decide)

end Gun

end JumpscaleX
