import Mathlib.Algebra.GroupWithZero.Nat
import Mathlib.Algebra.BigOperators.Group.List.Basic
import Mathlib.Algebra.Order.BigOperators.Group.List
import Mathlib.Algebra.Order.Group.Nat
import Mathlib.Data.Finset.Card
import Mathlib.Logic.Relation

/-!
# Walks over a graph with a list of pending nodes

A node is taken off the pending ones, and its successors that have not been
visited are put there.  Whether a node has been visited is asked only then, so
a node that is pending twice is walked twice.  On a finite graph the walk ends
all the same, and it meets exactly what can be reached.
-/

namespace Worklist

variable {Node : Type*} [DecidableEq Node] (next : Node → List Node)

/-- What is pending behind a node that has been visited. -/
def pendingBehind (visited : List Node) (node : Node) (pending : List Node) : List Node :=
  ((next node).filter (fun successor => successor ∉ node :: visited)).reverse ++ pending

/-- The nodes in the order in which they are walked, if the fuel lasts. -/
def walk : Nat → List Node → List Node → Option (List Node)
  | _, _, [] => some []
  | 0, _, _ :: _ => none
  | fuel + 1, visited, node :: pending =>
      (walk fuel (node :: visited) (pendingBehind next visited node pending)).map (node :: ·)

variable {next}

@[simp] theorem walk_nil (fuel : Nat) (visited : List Node) :
    walk next fuel visited [] = some [] := by
  cases fuel <;> rfl

theorem walk_cons (fuel : Nat) (visited : List Node) (node : Node) (pending : List Node) :
    walk next (fuel + 1) visited (node :: pending) =
      (walk next fuel (node :: visited) (pendingBehind next visited node pending)).map
        (node :: ·) := rfl

theorem walk_cons_eq_some_iff {fuel : Nat} {visited pending order : List Node} {node : Node} :
    walk next (fuel + 1) visited (node :: pending) = some order ↔
      ∃ rest, walk next fuel (node :: visited) (pendingBehind next visited node pending) =
        some rest ∧ order = node :: rest := by
  rw [walk_cons, Option.map_eq_some_iff]
  constructor
  · rintro ⟨rest, walked, same⟩
    exact ⟨rest, walked, same.symm⟩
  · rintro ⟨rest, walked, same⟩
    exact ⟨rest, walked, same.symm⟩

theorem mem_pendingBehind {visited pending : List Node} {node other : Node} :
    other ∈ pendingBehind next visited node pending ↔
      other ∈ next node ∧ other ∉ node :: visited ∨ other ∈ pending := by
  simp [pendingBehind]

/-! ### What is walked -/

/-- What is walked can be reached from what was pending. -/
theorem reached_of_mem_walk {fuel : Nat} {visited pending order : List Node}
    (walked : walk next fuel visited pending = some order) {node : Node} (member : node ∈ order) :
    ∃ start ∈ pending, Relation.ReflTransGen (fun left right => right ∈ next left) start node := by
  induction fuel generalizing visited pending order with
  | zero =>
      cases pending with
      | nil =>
          rw [walk_nil] at walked
          cases walked
          cases member
      | cons first pending => cases walked
  | succ fuel induction =>
      cases pending with
      | nil =>
          rw [walk_nil] at walked
          cases walked
          cases member
      | cons first pending =>
          obtain ⟨rest, walkedRest, same⟩ := walk_cons_eq_some_iff.mp walked
          rw [same] at member
          rcases List.mem_cons.mp member with here | later
          · exact ⟨first, List.mem_cons_self, here ▸ .refl⟩
          · obtain ⟨start, pendingStart, path⟩ := induction walkedRest later
            rcases mem_pendingBehind.mp pendingStart with ⟨successor, _⟩ | before
            · exact ⟨first, List.mem_cons_self, .head successor path⟩
            · exact ⟨start, List.mem_cons_of_mem _ before, path⟩

/-- What is pending is walked, and so is what follows, except for what had been
visited before. -/
theorem walk_closed {fuel : Nat} {visited pending order : List Node}
    (walked : walk next fuel visited pending = some order) :
    (∀ node ∈ pending, node ∈ order) ∧
      ∀ node ∈ order, ∀ successor ∈ next node, successor ∈ order ∨ successor ∈ visited := by
  induction fuel generalizing visited pending order with
  | zero =>
      cases pending with
      | nil =>
          rw [walk_nil] at walked
          cases walked
          simp
      | cons first pending => cases walked
  | succ fuel induction =>
      cases pending with
      | nil =>
          rw [walk_nil] at walked
          cases walked
          simp
      | cons first pending =>
          obtain ⟨rest, walkedRest, same⟩ := walk_cons_eq_some_iff.mp walked
          obtain ⟨allPending, closed⟩ := induction walkedRest
          subst same
          constructor
          · intro node member
            rcases List.mem_cons.mp member with here | later
            · exact here ▸ List.mem_cons_self
            · exact List.mem_cons_of_mem _ (allPending node (mem_pendingBehind.mpr (.inr later)))
          · intro node member successor follows
            rcases List.mem_cons.mp member with here | later
            · subst here
              by_cases old : successor ∈ node :: visited
              · rcases List.mem_cons.mp old with same | before
                · exact .inl (same ▸ List.mem_cons_self)
                · exact .inr before
              · have fresh := allPending successor (mem_pendingBehind.mpr (.inl ⟨follows, old⟩))
                exact .inl (List.mem_cons_of_mem _ fresh)
            · rcases closed node later successor follows with found | old
              · exact .inl (List.mem_cons_of_mem _ found)
              · rcases List.mem_cons.mp old with same | before
                · exact .inl (same ▸ List.mem_cons_self)
                · exact .inr before

/-- A walk meets exactly what can be reached from where it starts. -/
theorem mem_walk_iff {fuel : Nat} {pending order : List Node}
    (walked : walk next fuel [] pending = some order) {node : Node} :
    node ∈ order ↔
      ∃ start ∈ pending, Relation.ReflTransGen (fun left right => right ∈ next left) start node := by
  constructor
  · exact reached_of_mem_walk walked
  · rintro ⟨start, member, path⟩
    obtain ⟨allPending, closed⟩ := walk_closed walked
    induction path with
    | refl => exact allPending start member
    | tail _ follows induction =>
        exact (closed _ induction _ follows).resolve_right List.not_mem_nil

/-! ### The end of a walk -/

/-- How often a node may be walked, by the number of nodes not visited yet. -/
def walksFrom (degree : Nat) : Nat → Nat
  | 0 => 0
  | fresh + 1 => 1 + degree * walksFrom degree fresh

theorem walksFrom_le_succ (degree fresh : Nat) :
    walksFrom degree fresh ≤ walksFrom degree (fresh + 1) := by
  induction fresh with
  | zero => exact Nat.zero_le _
  | succ fresh induction =>
      have grown := Nat.mul_le_mul_left degree induction
      simp only [walksFrom] at grown ⊢
      omega

variable (nodes : Finset Node) (degree : Nat)

/-- The number of nodes not visited. -/
def freshCount (visited : List Node) : Nat :=
  (nodes.filter (· ∉ visited)).card

/-- The walks that a pending node may lead to. -/
def weight (visited : List Node) (node : Node) : Nat :=
  if node ∈ visited then walksFrom degree (freshCount nodes visited + 1)
  else walksFrom degree (freshCount nodes visited)

def totalWeight (visited pending : List Node) : Nat :=
  (pending.map (weight nodes degree visited)).sum

variable {nodes degree}

theorem freshCount_cons_of_mem {visited : List Node} {node : Node} (old : node ∈ visited) :
    freshCount nodes (node :: visited) = freshCount nodes visited := by
  unfold freshCount
  congr 1
  apply Finset.filter_congr
  intro other _
  rw [List.mem_cons, not_or]
  constructor
  · exact And.right
  · intro fresh
    exact ⟨fun same => fresh (same ▸ old), fresh⟩

theorem freshCount_cons_of_not_mem {visited : List Node} {node : Node} (inside : node ∈ nodes)
    (new : node ∉ visited) :
    freshCount nodes visited = freshCount nodes (node :: visited) + 1 := by
  have split : nodes.filter (· ∉ visited) =
      insert node (nodes.filter (· ∉ node :: visited)) := by
    ext other
    by_cases same : other = node
    · simp [same, inside, new]
    · simp [same]
  unfold freshCount
  rw [split, Finset.card_insert_of_notMem]
  simp

/-- Visiting a node makes nothing that is pending heavier. -/
theorem weight_cons_le {visited : List Node} {node other : Node} (inside : node ∈ nodes) :
    weight nodes degree (node :: visited) other ≤ weight nodes degree visited other := by
  by_cases old : node ∈ visited
  · have same : other ∈ node :: visited ↔ other ∈ visited := by
      rw [List.mem_cons]
      exact ⟨fun either => either.elim (fun here => here ▸ old) id, .inr⟩
    simp only [weight, same, freshCount_cons_of_mem old, Nat.le_refl]
  · have count := freshCount_cons_of_not_mem inside old
    by_cases before : other ∈ visited
    · simp only [weight, List.mem_cons_of_mem _ before, before, if_true, count]
      exact walksFrom_le_succ degree _
    · by_cases here : other = node
      · have now : other ∈ node :: visited := here ▸ List.mem_cons_self
        simp only [weight, now, before, if_true, if_false, count, Nat.le_refl]
      · have still : other ∉ node :: visited := by simp [here, before]
        simp only [weight, still, before, if_false, count]
        exact walksFrom_le_succ degree _

theorem totalWeight_cons_le (degree : Nat) (visited pending : List Node) {node : Node} (inside : node ∈ nodes) :
    totalWeight nodes degree (node :: visited) pending ≤ totalWeight nodes degree visited pending :=
  List.sum_le_sum fun _ _ => weight_cons_le inside

/-- The successors of a node weigh less than the node. -/
theorem totalWeight_successors (visited : List Node) {node : Node} (inside : node ∈ nodes)
    (bounded : (next node).length ≤ degree) :
    totalWeight nodes degree (node :: visited)
        ((next node).filter (fun successor => successor ∉ node :: visited)).reverse + 1 ≤
      weight nodes degree visited node := by
  let successors := (next node).filter (fun successor => successor ∉ node :: visited)
  have each : ∀ amount ∈ successors.reverse.map (weight nodes degree (node :: visited)),
      amount ≤ walksFrom degree (freshCount nodes (node :: visited)) := by
    intro amount member
    obtain ⟨successor, listed, same⟩ := List.mem_map.mp member
    have fresh : successor ∉ node :: visited := by
      simpa using (List.mem_filter.mp (List.mem_reverse.mp listed)).2
    rw [← same, weight, if_neg fresh]
  have total : totalWeight nodes degree (node :: visited) successors.reverse ≤
      degree * walksFrom degree (freshCount nodes (node :: visited)) := by
    calc totalWeight nodes degree (node :: visited) successors.reverse
        ≤ (successors.reverse.map (weight nodes degree (node :: visited))).length *
            walksFrom degree (freshCount nodes (node :: visited)) := by
          exact List.sum_le_card_nsmul _ _ each
      _ ≤ degree * walksFrom degree (freshCount nodes (node :: visited)) := by
          apply Nat.mul_le_mul_right
          rw [List.length_map, List.length_reverse]
          exact (List.length_filter_le _ _).trans bounded
  change totalWeight nodes degree (node :: visited) successors.reverse + 1 ≤ _
  by_cases old : node ∈ visited
  · rw [weight, if_pos old, walksFrom, ← freshCount_cons_of_mem old]
    omega
  · rw [weight, if_neg old, freshCount_cons_of_not_mem inside old, walksFrom]
    omega

/-- With the fuel of what is pending a walk ends. -/
theorem walk_ends (closed : ∀ node ∈ nodes, ∀ successor ∈ next node, successor ∈ nodes)
    (bounded : ∀ node ∈ nodes, (next node).length ≤ degree) {fuel : Nat}
    {visited pending : List Node} (inside : ∀ node ∈ pending, node ∈ nodes)
    (enough : totalWeight nodes degree visited pending ≤ fuel) :
    ∃ order, walk next fuel visited pending = some order := by
  induction fuel generalizing visited pending with
  | zero =>
      cases pending with
      | nil => exact ⟨[], rfl⟩
      | cons node pending =>
          have lighter := totalWeight_successors visited
            (inside node List.mem_cons_self) (bounded node (inside node List.mem_cons_self))
          simp only [totalWeight, List.map_cons, List.sum_cons] at enough lighter
          omega
  | succ fuel induction =>
      cases pending with
      | nil => exact ⟨[], rfl⟩
      | cons node pending =>
          have here := inside node List.mem_cons_self
          have lighter := totalWeight_successors visited here (bounded node here)
          have others := totalWeight_cons_le degree visited pending here
          have rest : totalWeight nodes degree (node :: visited)
              (pendingBehind next visited node pending) ≤ fuel := by
            simp only [totalWeight, pendingBehind, List.map_cons, List.sum_cons, List.map_append,
              List.sum_append] at enough lighter others ⊢
            omega
          have still : ∀ other ∈ pendingBehind next visited node pending, other ∈ nodes := by
            intro other member
            rcases mem_pendingBehind.mp member with ⟨follows, _⟩ | before
            · exact closed node here other follows
            · exact inside other (List.mem_cons_of_mem _ before)
          obtain ⟨order, walked⟩ := induction still rest
          exact ⟨node :: order, walk_cons_eq_some_iff.mpr ⟨order, walked, rfl⟩⟩

end Worklist
