import JumpscaleX.Library.Reaching
import JumpscaleX.Library.Stateful
import JumpscaleX.Value

/-!
# References in the graph of the GunDB server

`resolve_v` of `resolvers.py` follows the references of a value into a graph,
and leaves the metadata of every node out.  A limit on the depth of the
recursion stands for that of the language.
-/

namespace JumpscaleX

namespace Gun

open Relation Reaching Fallible

/-- `ignore`. -/
def ignore : List String := ["_", ">", "#"]

/-- The nodes by their souls. -/
abbrev Nodes := List (String × PyVal)

inductive ResolveError where
  | recursionError
  | typeError

/-- The items of a node that are not metadata. -/
def kept (fields : List (String × PyVal)) : List (String × PyVal) :=
  fields.filter (fun field => field.1 ∉ ignore)

/-- `resolve_v`.  A name that cannot be hashed is not looked for. -/
def resolveV (graph : Nodes) : Nat → PyVal → Except ResolveError PyVal
  | 0, _ => .error .recursionError
  | limit + 1, .dict fields =>
      match fields.lookup "#" with
      | some (.str soul) =>
          match graph.lookup soul with
          | some node => resolveV graph limit node
          | none => .ok (.dict [])
      | some (.dict _) | some (.list _) => .error .typeError
      | some _ => .ok (.dict [])
      | none => do
          let items ← (kept fields).mapM (fun field => do
            let value ← resolveV graph limit field.2
            return (field.1, value))
          return .dict items
  | _ + 1, value => .ok value

/-- A value that is no node: it is returned as it is, and holds no node. -/
def isScalar : PyVal → Bool
  | .none | .bool _ | .int _ | .float _ | .str _ | .bytes _ => true
  | _ => false

/-- The values that a value is resolved by. -/
inductive Calls (graph : Nodes) : PyVal → PyVal → Prop where
  | reference {fields : List (String × PyVal)} {soul : String} {node : PyVal} :
      fields.lookup "#" = some (.str soul) → graph.lookup soul = some node →
      Calls graph (.dict fields) node
  | item {fields : List (String × PyVal)} {field : String × PyVal} :
      fields.lookup "#" = none → field ∈ kept fields →
      Calls graph (.dict fields) field.2

/-- A string, a reference to a soul or a node. -/
def IsValue : PyVal → Prop
  | .dict fields => ∀ reference, fields.lookup "#" = some reference →
      ∃ soul, reference = .str soul
  | value => isScalar value = true

/-- A value and a graph as clients send them. -/
structure Received where
  graph : Nodes
  value : PyVal
  values : ∀ other, ReflTransGen (Calls graph) value other → IsValue other

mutual

/-- The value with every reference replaced by the node that it leads to. -/
inductive Resolves (graph : Nodes) : PyVal → PyVal → Prop where
  | scalar {value : PyVal} : isScalar value = true → Resolves graph value value
  | reference {fields : List (String × PyVal)} {soul : String} {node result : PyVal} :
      fields.lookup "#" = some (.str soul) → graph.lookup soul = some node →
      Resolves graph node result → Resolves graph (.dict fields) result
  | unknown {fields : List (String × PyVal)} {soul : String} :
      fields.lookup "#" = some (.str soul) → graph.lookup soul = none →
      Resolves graph (.dict fields) (.dict [])
  | node {fields items : List (String × PyVal)} :
      fields.lookup "#" = none → ResolvesItems graph (kept fields) items →
      Resolves graph (.dict fields) (.dict items)

inductive ResolvesItems (graph : Nodes) :
    List (String × PyVal) → List (String × PyVal) → Prop where
  | nil : ResolvesItems graph [] []
  | cons {key : String} {value result : PyVal} {fields items : List (String × PyVal)} :
      Resolves graph value result → ResolvesItems graph fields items →
      ResolvesItems graph ((key, value) :: fields) ((key, result) :: items)

end

/-- Metadata is nowhere left. -/
inductive Plain : PyVal → Prop where
  | scalar {value : PyVal} : isScalar value = true → Plain value
  | node {fields : List (String × PyVal)} :
      (∀ field ∈ fields, field.1 ∉ ignore) → (∀ field ∈ fields, Plain field.2) →
      Plain (.dict fields)

section

variable {graph : Nodes} {limit : Nat} {value result : PyVal}
variable {fields items : List (String × PyVal)}

/-! ### Single steps -/

theorem resolveV_scalar (scalar : isScalar value = true) :
    resolveV graph (limit + 1) value = .ok value := by
  cases value <;> first | rfl | cases scalar

theorem resolveV_reference {soul : String} {node : PyVal}
    (refers : fields.lookup "#" = some (.str soul)) (found : graph.lookup soul = some node) :
    resolveV graph (limit + 1) (.dict fields) = resolveV graph limit node := by
  rw [resolveV, refers]
  simp only [found]

theorem resolveV_unknown {soul : String} (refers : fields.lookup "#" = some (.str soul))
    (missing : graph.lookup soul = none) :
    resolveV graph (limit + 1) (.dict fields) = .ok (.dict []) := by
  rw [resolveV, refers]
  simp only [missing]

/-- The items of a node, each resolved. -/
def ResolvedItems (graph : Nodes) (limit : Nat) (fields items : List (String × PyVal)) :
    Prop :=
  List.Forall₂ (fun field item => item.1 = field.1 ∧
    resolveV graph limit field.2 = .ok item.2) fields items

theorem resolveV_node_iff (node : fields.lookup "#" = none) :
    resolveV graph (limit + 1) (.dict fields) = .ok result ↔
      ∃ items, ResolvedItems graph limit (kept fields) items ∧ result = .dict items := by
  have step (field item : String × PyVal) :
      (do
        let value ← resolveV graph limit field.2
        return (field.1, value)) = .ok item ↔
        item.1 = field.1 ∧ resolveV graph limit field.2 = .ok item.2 := by
    simp only [bind_eq_ok_iff, pure_eq_ok_iff]
    constructor
    · rintro ⟨value, resolved, rfl⟩
      exact ⟨rfl, resolved⟩
    · rintro ⟨same, resolved⟩
      exact ⟨item.2, resolved, Prod.ext same.symm rfl⟩
  rw [resolveV, node]
  simp only [bind_eq_ok_iff, mapM_ok_iff, step, pure_eq_ok_iff]
  constructor
  · rintro ⟨items, resolved, same⟩
    exact ⟨items, resolved, same.symm⟩
  · rintro ⟨items, resolved, same⟩
    exact ⟨items, resolved, same.symm⟩

variable (graph) in
/-- What a value is, for its resolution. -/
theorem value_cases (wellFormed : IsValue value) :
    isScalar value = true ∨
      (∃ fields soul node, value = .dict fields ∧ fields.lookup "#" = some (.str soul) ∧
        graph.lookup soul = some node) ∨
      (∃ fields soul, value = .dict fields ∧ fields.lookup "#" = some (.str soul) ∧
        graph.lookup soul = none) ∨
      ∃ fields, value = .dict fields ∧ fields.lookup "#" = none := by
  cases value with
  | dict fields =>
      right
      cases refers : fields.lookup "#" with
      | none => exact .inr (.inr ⟨fields, rfl, refers⟩)
      | some reference =>
          obtain ⟨soul, rfl⟩ := wellFormed reference refers
          cases found : graph.lookup soul with
          | some node => exact .inl ⟨fields, soul, node, rfl, refers, found⟩
          | none => exact .inr (.inl ⟨fields, soul, rfl, refers, found⟩)
  | _ => exact .inl wellFormed

/-! ### A greater limit -/

theorem resolveV_succ (resolved : resolveV graph limit value = .ok result) :
    resolveV graph (limit + 1) value = .ok result := by
  induction limit generalizing value result with
  | zero => cases resolved
  | succ limit induction =>
      cases value with
      | dict fields =>
          cases refers : fields.lookup "#" with
          | none =>
              rw [resolveV_node_iff refers] at resolved ⊢
              obtain ⟨items, each, same⟩ := resolved
              refine ⟨items, each.imp ?_, same⟩
              intro field item both
              exact ⟨both.1, induction both.2⟩
          | some reference =>
              rw [resolveV, refers] at resolved ⊢
              cases reference with
              | str soul =>
                  dsimp only at resolved ⊢
                  cases found : graph.lookup soul with
                  | some node =>
                      rw [found] at resolved
                      exact induction resolved
                  | none =>
                      rw [found] at resolved
                      exact resolved
              | _ => exact resolved
      | _ => exact resolved

theorem resolveV_mono {more : Nat} (resolved : resolveV graph limit value = .ok result)
    (least : limit ≤ more) : resolveV graph more value = .ok result := by
  induction least with
  | refl => exact resolved
  | step _ induction => exact resolveV_succ induction

/-! ### The recursion comes to an end -/

/-- A value that is resolved calls nothing without end. -/
theorem acc_of_resolved (resolved : resolveV graph limit value = .ok result) :
    Acc (fun called caller => Calls graph caller called) value := by
  induction limit generalizing value result with
  | zero => cases resolved
  | succ limit induction =>
      constructor
      intro called calls
      cases calls with
      | reference refers found =>
          rw [resolveV_reference refers found] at resolved
          exact induction resolved
      | item node member =>
          rw [resolveV_node_iff node] at resolved
          obtain ⟨items, each, _⟩ := resolved
          obtain ⟨item, _, _, done⟩ := exists_of_mem_left each member
          exact induction done

/-- Where each item of a node is resolved under some limit, all are under one. -/
theorem resolvedItems_of_each
    (each : ∀ field ∈ fields, ∃ limit result, resolveV graph limit field.2 = .ok result) :
    ∃ limit items, ResolvedItems graph limit fields items := by
  induction fields with
  | nil => exact ⟨0, [], .nil⟩
  | cons field fields induction =>
      obtain ⟨first, result, resolved⟩ := each field List.mem_cons_self
      obtain ⟨later, items, rest⟩ :=
        induction (fun other member => each other (List.mem_cons_of_mem _ member))
      refine ⟨max first later, (field.1, result) :: items, .cons ⟨rfl, ?_⟩ (rest.imp ?_)⟩
      · exact resolveV_mono resolved (Nat.le_max_left _ _)
      · intro field item both
        exact ⟨both.1, resolveV_mono both.2 (Nat.le_max_right _ _)⟩

/-- The items of a node are resolved one by one. -/
theorem resolvesItems_of_each (each : ResolvedItems graph limit fields items)
    (resolves : ∀ field ∈ fields, ∀ done, resolveV graph limit field.2 = .ok done →
      Resolves graph field.2 done) : ResolvesItems graph fields items := by
  induction each with
  | nil => exact .nil
  | @cons field item fields items first _ induction =>
      obtain ⟨key, value⟩ := field
      obtain ⟨name, result⟩ := item
      obtain ⟨same, done⟩ := first
      cases same
      apply ResolvesItems.cons
      · exact resolves (key, value) List.mem_cons_self result done
      · exact induction (fun other member => resolves other (List.mem_cons_of_mem _ member))

/-- A value that calls nothing without end is resolved. -/
theorem resolved_of_acc (ends : Acc (fun called caller => Calls graph caller called) value)
    (values : ∀ other, ReflTransGen (Calls graph) value other → IsValue other) :
    ∃ limit result, resolveV graph limit value = .ok result := by
  induction ends with
  | intro value _ induction =>
      have inner {called : PyVal} (calls : Calls graph value called) :
          ∃ limit result, resolveV graph limit called = .ok result :=
        induction called calls (fun other reached => values other (.head calls reached))
      rcases value_cases graph (values value .refl) with
        scalar | ⟨fields, soul, node, rfl, refers, found⟩ | ⟨fields, soul, rfl, refers, missing⟩ |
          ⟨fields, rfl, node⟩
      · exact ⟨1, value, resolveV_scalar scalar⟩
      · obtain ⟨limit, result, resolved⟩ := inner (.reference refers found)
        exact ⟨limit + 1, result, (resolveV_reference refers found).trans resolved⟩
      · exact ⟨1, .dict [], resolveV_unknown refers missing⟩
      · have each : ∀ field ∈ kept fields,
            ∃ limit result, resolveV graph limit field.2 = .ok result :=
          fun field member => inner (.item node member)
        obtain ⟨limit, items, resolved⟩ := resolvedItems_of_each each
        exact ⟨limit + 1, .dict items, (resolveV_node_iff node).mpr ⟨items, resolved, rfl⟩⟩

/-- A resolved value is what the references lead to, without metadata. -/
theorem resolves_of_resolved (resolved : resolveV graph limit value = .ok result)
    (values : ∀ other, ReflTransGen (Calls graph) value other → IsValue other) :
    Resolves graph value result ∧ Plain result := by
  induction limit generalizing value result with
  | zero => cases resolved
  | succ limit induction =>
      have inner {called done : PyVal} (calls : Calls graph value called)
          (resolved : resolveV graph limit called = .ok done) :
          Resolves graph called done ∧ Plain done :=
        induction resolved (fun other reached => values other (.head calls reached))
      rcases value_cases graph (values value .refl) with
        scalar | ⟨fields, soul, node, rfl, refers, found⟩ | ⟨fields, soul, rfl, refers, missing⟩ |
          ⟨fields, rfl, node⟩
      · rw [resolveV_scalar scalar] at resolved
        cases resolved
        exact ⟨.scalar scalar, .scalar scalar⟩
      · rw [resolveV_reference refers found] at resolved
        obtain ⟨resolves, plain⟩ := inner (.reference refers found) resolved
        exact ⟨.reference refers found resolves, plain⟩
      · rw [resolveV_unknown refers missing] at resolved
        cases resolved
        refine ⟨.unknown refers missing, .node ?_ ?_⟩
        · intro field member
          cases member
        · intro field member
          cases member
      · obtain ⟨items, each, rfl⟩ := (resolveV_node_iff node).mp resolved
        constructor
        · apply Resolves.node node
          exact resolvesItems_of_each each (fun field member item done =>
            (inner (.item node member) done).1)
        · apply Plain.node
          · intro item member
            obtain ⟨field, inside, same, _⟩ := exists_of_mem_right each member
            rw [same]
            simpa using (List.mem_filter.mp inside).2
          · intro item member
            obtain ⟨field, inside, _, done⟩ := exists_of_mem_right each member
            exact (inner (.item node inside) done).2

/-! ### Finitely many values -/

mutual

/-- A value and the values of its items, and of theirs. -/
def parts : PyVal → List PyVal
  | .dict fields => .dict fields :: partsOfFields fields
  | value => [value]

def partsOfFields : List (String × PyVal) → List PyVal
  | [] => []
  | (_, value) :: fields => parts value ++ partsOfFields fields

end

theorem self_mem_parts (value : PyVal) : value ∈ parts value := by
  cases value <;> exact List.mem_cons_self

theorem parts_subset_partsOfFields {field : String × PyVal} (member : field ∈ fields) :
    parts field.2 ⊆ partsOfFields fields := by
  induction fields with
  | nil => cases member
  | cons first fields induction =>
      rcases List.mem_cons.mp member with same | later
      · subst same
        exact List.subset_append_left _ _
      · exact List.Subset.trans (induction later) (List.subset_append_right _ _)

mutual

/-- The items of a part are parts. -/
theorem item_mem_parts (value : PyVal) {field : String × PyVal}
    (part : .dict fields ∈ parts value) (member : field ∈ fields) :
    field.2 ∈ parts value := by
  cases value with
  | dict own =>
      rcases List.mem_cons.mp part with same | inside
      · cases same
        exact List.mem_cons_of_mem _
          (parts_subset_partsOfFields member (self_mem_parts field.2))
      · exact List.mem_cons_of_mem _ (item_mem_partsOfFields own inside member)
  | _ =>
      rw [parts, List.mem_singleton] at part
      · cases part
      · intro own impossible
        cases impossible

theorem item_mem_partsOfFields (own : List (String × PyVal)) {field : String × PyVal}
    (part : .dict fields ∈ partsOfFields own) (member : field ∈ fields) :
    field.2 ∈ partsOfFields own := by
  cases own with
  | nil => cases part
  | cons first own =>
      rcases List.mem_append.mp part with inside | later
      · exact List.mem_append_left _ (item_mem_parts first.2 inside member)
      · exact List.mem_append_right _ (item_mem_partsOfFields own later member)

end

theorem mem_of_lookup {soul : String} {node : PyVal} (found : graph.lookup soul = some node) :
    (soul, node) ∈ graph := by
  obtain ⟨earlier, later, split, _⟩ := List.lookup_eq_some_iff.mp found
  rw [split]
  exact List.mem_append_right _ List.mem_cons_self

/-- Only parts of the value and of the nodes are reached. -/
theorem finite_reached (graph : Nodes) (value : PyVal) :
    {other | ReflTransGen (Calls graph) value other}.Finite := by
  apply Set.Finite.subset (List.finite_toSet (parts value ++ graph.flatMap (parts ·.2)))
  intro other reached
  induction reached with
  | refl => exact List.mem_append_left _ (self_mem_parts value)
  | tail _ calls inside =>
      cases calls with
      | reference _ found =>
          apply List.mem_append_right
          apply List.mem_flatMap.mpr
          exact ⟨_, mem_of_lookup found, self_mem_parts _⟩
      | item node member =>
          have within := List.mem_of_mem_filter member
          rcases List.mem_append.mp inside with own | foreign
          · exact List.mem_append_left _ (item_mem_parts value own within)
          · obtain ⟨entry, known, part⟩ := List.mem_flatMap.mp foreign
            apply List.mem_append_right
            exact List.mem_flatMap.mpr ⟨entry, known, item_mem_parts entry.2 part within⟩

/-! ### When references are resolved -/

/-- `resolve_v` comes to an end, with every reference replaced and no metadata
left. -/
def Received.Resolved (received : Received) : Prop :=
  ∃ limit result,
    (∀ more, limit ≤ more → resolveV received.graph more received.value = .ok result) ∧
      Resolves received.graph received.value result ∧ Plain result

theorem Received.Resolved.straight {received : Received} (resolved : received.Resolved) :
    ¬ Circular (Calls received.graph) received.value := by
  obtain ⟨limit, result, reached, _⟩ := resolved
  exact not_circular_of_acc (acc_of_resolved (reached limit (Nat.le_refl limit)))

/-- References are resolved exactly where no node that is reached leads back to
itself. -/
theorem resolved_iff_straight (received : Received) :
    received.Resolved ↔ ¬ Circular (Calls received.graph) received.value := by
  constructor
  · exact Received.Resolved.straight
  · intro straight
    have ends := acc_of_not_circular (finite_reached _ _) straight
    obtain ⟨limit, result, resolved⟩ := resolved_of_acc ends received.values
    refine ⟨limit, result, ?_, resolves_of_resolved resolved received.values⟩
    intro more least
    exact resolveV_mono resolved least

end

/-! ### Two nodes that refer to each other -/

def toParent : PyVal := .dict [("#", .str "parent")]

def toChild : PyVal := .dict [("#", .str "child")]

/-- A parent with its child, and a child with its parent. -/
def family : Nodes :=
  [("parent", .dict [("child", toChild)]), ("child", .dict [("parent", toParent)])]

/-- The values that a reference to the parent is resolved by. -/
theorem family_reached {other : PyVal}
    (reached : ReflTransGen (Calls family) toParent other) :
    other ∈ [toParent, .dict [("child", toChild)], toChild, .dict [("parent", toParent)]] := by
  induction reached with
  | refl => exact List.mem_cons_self
  | tail _ calls inside =>
      simp only [List.mem_cons, List.not_mem_nil, or_false] at inside
      rcases inside with rfl | rfl | rfl | rfl
      · cases calls with
        | reference refers found =>
            cases refers
            cases found
            simp
        | item node _ => cases node
      · cases calls with
        | reference refers _ => cases refers
        | item _ member =>
            rw [show kept [("child", toChild)] = [("child", toChild)] by decide,
              List.mem_singleton] at member
            simp [member]
      · cases calls with
        | reference refers found =>
            cases refers
            cases found
            simp
        | item node _ => cases node
      · cases calls with
        | reference refers _ => cases refers
        | item _ member =>
            rw [show kept [("parent", toParent)] = [("parent", toParent)] by decide,
              List.mem_singleton] at member
            simp [member]

def familyReceived : Received where
  graph := family
  value := toParent
  values := by
    intro other reached
    have inside := family_reached reached
    simp only [List.mem_cons, List.not_mem_nil, or_false] at inside
    rcases inside with rfl | rfl | rfl | rfl
    · intro reference refers
      cases refers
      exact ⟨"parent", rfl⟩
    · intro reference refers
      cases refers
    · intro reference refers
      cases refers
      exact ⟨"child", rfl⟩
    · intro reference refers
      cases refers

/-- The reference to the parent is never resolved. -/
theorem family_unresolved : ¬ familyReceived.Resolved := by
  intro resolved
  apply resolved.straight
  have toParentNode : Calls family toParent (.dict [("child", toChild)]) :=
    .reference rfl rfl
  have toChildItem : Calls family (.dict [("child", toChild)]) ("child", toChild).2 :=
    .item rfl List.mem_cons_self
  have toChildNode : Calls family toChild (.dict [("parent", toParent)]) :=
    .reference rfl rfl
  have toParentItem : Calls family (.dict [("parent", toParent)]) ("parent", toParent).2 :=
    .item rfl List.mem_cons_self
  refine ⟨toParent, .refl, ?_⟩
  exact .head toParentNode (.head toChildItem (.head toChildNode (.single toParentItem)))

end Gun

end JumpscaleX
