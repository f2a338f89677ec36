import JumpscaleX.GunUtils
import JumpscaleX.Library.Convergence

/-!
# Merging updates

`ham_mix` writes every update into the graph, whatever `HAM` has answered.  So
the graphs behind two orders of the same updates are equal exactly when no two
of the updates are in conflict, and when none of them is behind the graph that
they are merged into.
-/

namespace JumpscaleX

open Stateful

namespace Gun

/-- The state that a graph has stored for the key of an update. -/
def Graph.stored (graph : Graph) (update : Update) : Rat :=
  getStateOf ((graph update.soul).bind Node.metadata) update.key

/-- `ensure_state` finds what it needs: states, or a soul to make them with. -/
def Node.Ready (node : Node) : Prop :=
  ∃ metadata, node.metadata = some metadata ∧
    (metadata.state = none → (node.fields SOUL).isSome)

/-- Two updates of one key agree on its value and its state. -/
def Update.Agrees (first second : Update) : Prop :=
  first.soul = second.soul → first.key = second.key →
    first.value = second.value ∧ first.state = second.state

/-- The update is not ahead of the clock. -/
def Timely (update : Int × Update) : Prop :=
  update.2.state ≤ update.1

/-- An order of the updates, with repetitions. -/
structure Orders (updates : List Update) (order : List (Int × Update)) : Prop where
  timely : ∀ update ∈ order, Timely update
  all : ∀ update, update ∈ order.map Prod.snd ↔ update ∈ updates

/-- A list with some of the updates, with repetitions. -/
structure Draws (updates : List Update) (drawn : List (Int × Update)) : Prop where
  timely : ∀ update ∈ drawn, Timely update
  some : ∀ update ∈ drawn, update.2 ∈ updates

/-- Merging the updates into the graph converges: every two orders reach one
graph, an update behind the graph changes nothing, and one that is applied
again changes nothing either. -/
structure Converges (str : PyVal → String) (graph : Graph) (updates : List Update) :
    Prop where
  orders : ∀ first second, Orders updates first → Orders updates second →
    ∃ merged, mixAll str first graph = .ok () merged ∧
      mixAll str second graph = .ok () merged
  historical : ∀ earlier update reached, Draws updates earlier →
    update.2 ∈ updates → Timely update → mixAll str earlier graph = .ok () reached →
      update.2.state < reached.stored update.2 →
        mixAll str [update] reached = .ok () reached
  again : ∀ earlier first second merged, Draws updates earlier → first.2 = second.2 →
    first.2 ∈ updates → Timely first → Timely second →
      mixAll str (earlier ++ [first]) graph = .ok () merged →
        mixAll str [second] merged = .ok () merged

/-- No two updates are in conflict, none is behind the graph, and the nodes
that they go to are ready. -/
structure Update.Harmless (graph : Graph) (updates : List Update) : Prop where
  agree : ∀ first ∈ updates, ∀ second ∈ updates, first.Agrees second
  current : ∀ update ∈ updates, graph.stored update ≤ update.state
  ready : ∀ update ∈ updates, ∀ node, graph update.soul = some node → node.Ready

/-! ### What one update writes -/

/-- The metadata with states that `ensure_state` leaves, of any node. -/
def Node.ensuredStates (node : Node) : String → Option Rat :=
  (node.metadata.bind Metadata.state).getD (fun key =>
    if key ≠ SOUL ∧ (key = METADATA ∨ (node.fields key).isSome) then some 0 else none)

def Node.ensuredSoul (node : Node) : Option PyVal :=
  match node.metadata.bind Metadata.state with
  | some _ => node.metadata.bind Metadata.soul
  | none => node.fields SOUL

/-- The node with an update. -/
def Node.updated (node : Node) (update : Update) : Node where
  metadata := some
    { soul := node.ensuredSoul
      state := some (Function.update
        (node.setField update.key update.value).ensuredStates update.key
          (some update.state)) }
  fields := Function.update node.fields update.key (some update.value)

/-- The graph with an update. -/
def Graph.updated (graph : Graph) (update : Update) : Graph :=
  Function.update graph update.soul
    (some (((graph update.soul).getD (newNode update.soul)).updated update))

section

variable (str : PyVal → String) (machine : Int) {graph : Graph} {update : Update}

theorem newNode_ready (soul : String) : (newNode soul).Ready :=
  ⟨_, rfl, fun none => by cases none⟩

theorem Update.soul_ne_key (update : Update) : SOUL ≠ update.key := by
  intro same
  apply update.named
  rw [← same]
  simp

/-- Setting the key and making sure of the states leaves the updated node. -/
theorem ensureState_ready {node : Node} (ready : node.Ready) (update : Update) :
    ∃ ensured, (node.setField update.key update.value).ensureState = .ok ensured ∧
      ensured.setState update.key update.state = node.updated update := by
  obtain ⟨⟨soul, state⟩, present, hasSoul⟩ := ready
  obtain ⟨metadata, fields⟩ := node
  change metadata = _ at present
  subst present
  cases state with
  | some states => exact ⟨_, rfl, rfl⟩
  | none =>
      obtain ⟨value, found⟩ := Option.isSome_iff_exists.mp (hasSoul rfl)
      change fields SOUL = some value at found
      have kept : Function.update fields update.key (some update.value) SOUL =
          some value := by
        rw [Function.update_of_ne update.soul_ne_key, found]
      simp [Node.ensureState, Node.setField, kept, Node.setState, Node.updated,
        Node.ensuredSoul, Node.ensuredStates, found]

theorem ensureState_error {node : Node} (unready : ¬ node.Ready) (update : Update) :
    ∃ key, (node.setField update.key update.value).ensureState = .error (.keyError key) := by
  obtain ⟨metadata, fields⟩ := node
  cases metadata with
  | none => exact ⟨_, rfl⟩
  | some metadata =>
      obtain ⟨soul, state⟩ := metadata
      cases state with
      | some states => exact absurd ⟨_, rfl, fun none => by cases none⟩ unready
      | none =>
          cases found : fields SOUL with
          | some value =>
              exact absurd ⟨_, rfl, fun _ => Option.isSome_iff_exists.mpr ⟨value, found⟩⟩
                unready
          | none =>
              refine ⟨SOUL, ?_⟩
              have kept : Function.update fields update.key (some update.value) SOUL =
                  none := by
                rw [Function.update_of_ne update.soul_ne_key, found]
              simp [Node.ensureState, Node.setField, kept]

theorem getStateOf_change :
    getStateOf (some
      { soul := some (.str update.soul)
        state := some (Function.update (fun _ => none) update.key (some update.state)) })
      update.key = update.state := by
  simp [getStateOf]

/-- The node that an update goes to. -/
theorem ready_getD (ready : ∀ node, graph update.soul = some node → node.Ready) :
    ((graph update.soul).getD (newNode update.soul)).Ready := by
  cases found : graph update.soul with
  | none => exact newNode_ready _
  | some node => exact ready node found

/-- Merging an update into a ready node writes it, whatever `HAM` answers. -/
theorem hamMix_ready (ready : ∀ node, graph update.soul = some node → node.Ready) :
    ∃ diff, hamMix str machine update.change graph = .ok diff (graph.updated update) := by
  obtain ⟨ensured, made, same⟩ := ensureState_ready (ready_getD ready) update
  obtain ⟨diffNode, madeDiff, _⟩ := ensureState_ready (newNode_ready update.soul) update
  refine ⟨Function.update (fun _ => none) update.soul
    (some (diffNode.setState update.key update.state)), ?_⟩
  simp only [hamMix, Update.change, List.foldlM_cons, List.foldlM_nil, bind_pure, mixItem,
    if_neg update.named, getStateOf_change, get_seq, modify_seq]
  rw [attempt_seq_of_ok made, Option.getD_none, attempt_seq_of_ok madeDiff]
  simp only [modify_seq, Function.update_idem, same]
  rfl

theorem hamMix_unready {node : Node} (found : graph update.soul = some node)
    (unready : ¬ node.Ready) :
    ∃ key reached, hamMix str machine update.change graph =
      .error (.keyError key) reached := by
  obtain ⟨key, failed⟩ := ensureState_error unready update
  refine ⟨key, Function.update graph update.soul
    (some (node.setField update.key update.value)), ?_⟩
  simp only [hamMix, Update.change, List.foldlM_cons, List.foldlM_nil, bind_pure, mixItem,
    if_neg update.named, getStateOf_change, get_seq, modify_seq, found, Option.getD_some]
  rw [attempt_seq_of_error failed]

end

/-! ### Updates in any order -/

section

variable {graph : Graph} {first second update : Update}

theorem Node.updated_comm (node : Node) (different : first.key ≠ second.key) :
    (node.updated first).updated second = (node.updated second).updated first := by
  have soul : (node.updated first).ensuredSoul = (node.updated second).ensuredSoul := rfl
  have fields := Function.update_comm different (some first.value) (some second.value)
    node.fields
  have states : Function.update (Function.update
        (node.setField first.key first.value).ensuredStates first.key (some first.state))
        second.key (some second.state) =
      Function.update (Function.update
        (node.setField second.key second.value).ensuredStates second.key
          (some second.state)) first.key (some first.state) := by
    funext key
    by_cases atFirst : key = first.key
    · subst atFirst
      rw [Function.update_self, Function.update_of_ne different, Function.update_self]
    · by_cases atSecond : key = second.key
      · subst atSecond
        rw [Function.update_self, Function.update_of_ne atFirst, Function.update_self]
      · rw [Function.update_of_ne atSecond, Function.update_of_ne atFirst,
          Function.update_of_ne atFirst, Function.update_of_ne atSecond]
        cases present : node.metadata.bind Metadata.state with
        | none => simp [Node.ensuredStates, Node.setField, present, atFirst, atSecond]
        | some states => simp [Node.ensuredStates, Node.setField, present]
  rw [Node.updated, soul]
  simp only [Node.updated, fields]
  exact congrArg (fun states => Node.mk (some (Metadata.mk _ (some states))) _) states

theorem Node.updated_again (node : Node) (update : Update) :
    (node.updated update).updated update = node.updated update := by
  simp [Node.updated, Node.ensuredSoul, Node.ensuredStates, Node.setField]

/-- Updates that agree commute. -/
theorem Graph.updated_comm (agree : first.Agrees second) :
    (graph.updated first).updated second = (graph.updated second).updated first := by
  by_cases soul : first.soul = second.soul
  · by_cases key : first.key = second.key
    · obtain ⟨value, state⟩ := agree soul key
      have same : first = second := by
        cases first
        cases second
        simp_all
      rw [same]
    · simp only [Graph.updated, soul, Function.update_self, Option.getD_some,
        Function.update_idem, Node.updated_comm _ key]
  · simp only [Graph.updated, Function.update_of_ne soul,
      Function.update_of_ne (Ne.symm soul)]
    exact Function.update_comm soul _ _ graph

theorem Graph.updated_again (graph : Graph) (update : Update) :
    (graph.updated update).updated update = graph.updated update := by
  simp only [Graph.updated, Function.update_self, Option.getD_some, Function.update_idem,
    Node.updated_again]

/-- An update leaves ready nodes ready. -/
theorem updated_ready {soul : String} {node : Node}
    (ready : ∀ node, graph soul = some node → node.Ready)
    (found : graph.updated update soul = some node) : node.Ready := by
  by_cases same : soul = update.soul
  · subst same
    rw [Graph.updated, Function.update_self] at found
    cases found
    exact ⟨_, rfl, fun none => by cases none⟩
  · rw [Graph.updated, Function.update_of_ne same] at found
    exact ready node found

theorem stored_updated_self : (graph.updated update).stored update = update.state := by
  simp [Graph.stored, Graph.updated, Node.updated, getStateOf]

/-- The stored state of any other key stays. -/
theorem stored_updated_of_ne (different : first.soul = second.soul → first.key ≠ second.key) :
    (graph.updated first).stored second = graph.stored second := by
  by_cases soul : second.soul = first.soul
  · have key := different soul.symm
    rw [Graph.stored, Graph.stored, Graph.updated, soul, Function.update_self]
    cases found : graph first.soul with
    | none => simp [Node.updated, Node.ensuredStates, Node.setField, newNode, getStateOf,
        Function.update_of_ne (Ne.symm key)]
    | some node =>
        cases present : node.metadata.bind Metadata.state with
        | none =>
            simp only [Node.updated, Node.ensuredStates, Node.setField, getStateOf, present,
              Option.getD_some, Option.bind_some, Function.update_of_ne (Ne.symm key),
              Option.getD_none]
            split <;> rfl
        | some states =>
            simp [Node.updated, Node.ensuredStates, Node.setField, getStateOf, present,
              Function.update_of_ne (Ne.symm key)]
  · rw [Graph.stored, Graph.stored, Graph.updated, Function.update_of_ne soul]

end

/-! ### Updates one after the other -/

section

variable {str : PyVal → String} {graph : Graph} {updates : List Update}

theorem mixAll_cons (update : Int × Update) (order : List (Int × Update)) :
    mixAll str (update :: order) =
      hamMix str update.1 update.2.change >>= fun _ => mixAll str order := by
  rw [mixAll, mixAll, List.forM_eq_forM, List.forM_cons, bind_assoc]
  rfl

/-- Some harmless updates are still harmless behind one of them. -/
theorem Update.Harmless.updated (harmless : Update.Harmless graph updates) {update : Update}
    (member : update ∈ updates) : Update.Harmless (graph.updated update) updates := by
  constructor
  · exact harmless.agree
  · intro other otherMember
    by_cases same : update.soul = other.soul ∧ update.key = other.key
    · have stored : (graph.updated update).stored other =
          (graph.updated update).stored update := by
        rw [Graph.stored, Graph.stored, same.1, same.2]
      rw [stored, stored_updated_self,
        (harmless.agree update member other otherMember same.1 same.2).2]
    · rw [stored_updated_of_ne fun soul key => same ⟨soul, key⟩]
      exact harmless.current other otherMember
  · intro other otherMember node found
    exact updated_ready (harmless.ready other otherMember) found

/-- Merging harmless updates writes them one after the other. -/
theorem Update.Harmless.mixAll (harmless : Update.Harmless graph updates)
    {order : List (Int × Update)} (members : ∀ update ∈ order, update.2 ∈ updates) :
    mixAll str order graph = .ok () ((order.map Prod.snd).foldl Graph.updated graph) := by
  induction order generalizing graph with
  | nil => rfl
  | cons update order induction =>
      obtain ⟨member, members⟩ := List.forall_mem_cons.mp members
      obtain ⟨diff, mixed⟩ :=
        hamMix_ready str update.1 (harmless.ready update.2 member)
      have rest := induction (harmless.updated member) members
      rw [mixAll_cons, seq_of_ok mixed]
      exact rest

theorem Update.Harmless.foldl (harmless : Update.Harmless graph updates)
    {order : List Update} (members : ∀ update ∈ order, update ∈ updates) :
    Update.Harmless (order.foldl Graph.updated graph) updates := by
  induction order generalizing graph with
  | nil => exact harmless
  | cons update order induction =>
      obtain ⟨member, members⟩ := List.forall_mem_cons.mp members
      exact induction (harmless.updated member) members

theorem mixAll_append_eq_ok_iff {first second : List (Int × Update)} {merged : Graph} :
    mixAll str (first ++ second) graph = .ok () merged ↔
      ∃ reached, mixAll str first graph = .ok () reached ∧
        mixAll str second reached = .ok () merged := by
  induction first generalizing graph with
  | nil =>
      constructor
      · intro done
        exact ⟨graph, rfl, done⟩
      · rintro ⟨reached, start, done⟩
        cases start
        exact done
  | cons update first induction =>
      simp only [List.cons_append, mixAll_cons, seq_eq_ok_iff, induction]
      constructor
      · rintro ⟨diff, between, mixed, reached, earlier, later⟩
        exact ⟨reached, ⟨diff, between, mixed, earlier⟩, later⟩
      · rintro ⟨reached, ⟨diff, between, mixed, earlier⟩, later⟩
        exact ⟨diff, between, mixed, reached, earlier, later⟩

/-- The node that an update was merged into was ready. -/
theorem ready_of_hamMix {machine : Int} {update : Update} {diff reached : Graph}
    (mixed : hamMix str machine update.change graph = .ok diff reached) :
    (∀ node, graph update.soul = some node → node.Ready) ∧
      reached = graph.updated update := by
  have ready : ∀ node, graph update.soul = some node → node.Ready := by
    intro node found
    by_contra unready
    obtain ⟨key, other, failed⟩ := hamMix_unready str machine found unready
    rw [failed] at mixed
    cases mixed
  refine ⟨ready, ?_⟩
  obtain ⟨other, same⟩ := hamMix_ready str machine ready
  rw [same] at mixed
  cases mixed
  rfl

theorem mixAll_singleton_eq_ok {update : Int × Update} {reached : Graph}
    (mixed : mixAll str [update] graph = .ok () reached) :
    (∀ node, graph update.2.soul = some node → node.Ready) ∧
      reached = graph.updated update.2 := by
  rw [mixAll_cons, seq_eq_ok_iff] at mixed
  obtain ⟨diff, between, mixed, rest⟩ := mixed
  cases rest
  exact ready_of_hamMix mixed

/-! ### Convergence -/

/-- An order that ends with a given update. -/
theorem orders_ending {update : Update} (member : update ∈ updates) :
    Orders updates ((updates ++ [update]).map fun update => (⌈update.state⌉, update)) := by
  have all (other : Update) : other ∈ updates ++ [update] ↔ other ∈ updates := by
    rw [List.mem_append, List.mem_singleton]
    constructor
    · rintro (present | same)
      · exact present
      · exact same ▸ member
    · exact Or.inl
  constructor
  · intro timed present
    obtain ⟨other, _, same⟩ := List.mem_map.mp present
    rw [← same]
    exact Int.le_ceil other.state
  · intro other
    rw [List.map_map, Function.comp_def, List.map_id']
    exact all other

theorem Orders.cons {update : Int × Update} {order : List (Int × Update)}
    (orders : Orders updates order) (member : update.2 ∈ updates) (timely : Timely update) :
    Orders updates (update :: order) := by
  constructor
  · exact List.forall_mem_cons.mpr ⟨timely, orders.timely⟩
  · intro other
    rw [List.map_cons, List.mem_cons, orders.all]
    constructor
    · rintro (same | present)
      · exact same ▸ member
      · exact present
    · exact Or.inr

/-- What the last update of an order has written. -/
theorem fields_of_ending {update : Update} {merged : Graph}
    (done : mixAll str ((updates ++ [update]).map fun update => (⌈update.state⌉, update)) graph =
      .ok () merged) :
    (merged update.soul).bind (fun node => node.fields update.key) = some update.value ∧
      merged.stored update = update.state := by
  rw [List.map_append, mixAll_append_eq_ok_iff] at done
  obtain ⟨reached, _, last⟩ := done
  obtain ⟨_, same⟩ := mixAll_singleton_eq_ok last
  rw [same]
  constructor
  · simp [Graph.updated, Node.updated]
  · exact stored_updated_self

/-- Merging converges exactly for harmless updates. -/
theorem converges_iff_harmless (str : PyVal → String) (graph : Graph)
    (updates : List Update) :
    Converges str graph updates ↔ Update.Harmless graph updates := by
  constructor
  · intro converges
    constructor
    · intro first firstMember second secondMember soul key
      obtain ⟨merged, endsFirst, endsSecond⟩ :=
        converges.orders _ _ (orders_ending firstMember) (orders_ending secondMember)
      obtain ⟨value, state⟩ := fields_of_ending endsFirst
      obtain ⟨otherValue, otherState⟩ := fields_of_ending endsSecond
      rw [Graph.stored, soul, key] at state
      rw [soul, key, otherValue] at value
      exact ⟨(Option.some.inj value).symm, state.symm.trans otherState⟩
    · intro update member
      by_contra behind
      have same := converges.historical [] (⌈update.state⌉, update) graph
        ⟨by simp, by simp⟩ member (Int.le_ceil _) rfl (not_le.mp behind)
      obtain ⟨_, unchanged⟩ := mixAll_singleton_eq_ok same
      have stored : graph.stored update = update.state := by
        rw [unchanged]
        exact stored_updated_self
      exact behind stored.le
    · intro update member
      have starting : Orders updates ((⌈update.state⌉, update) :: _) :=
        (orders_ending member).cons member (Int.le_ceil _)
      obtain ⟨merged, done, _⟩ := converges.orders _ _ starting starting
      rw [mixAll_cons, seq_eq_ok_iff] at done
      obtain ⟨diff, between, mixed, _⟩ := done
      exact (ready_of_hamMix mixed).1
  · intro harmless
    have commutes : Convergence.Commutes Graph.updated (· ∈ updates) := by
      intro state first second firstMember secondMember
      exact Graph.updated_comm (harmless.agree first firstMember second secondMember)
    have again : Convergence.Idempotent Graph.updated (· ∈ updates) := by
      intro state update _
      exact state.updated_again update
    constructor
    · intro first second ordersFirst ordersSecond
      have firstMembers : ∀ update ∈ first.map Prod.snd, update ∈ updates :=
        fun update => (ordersFirst.all update).mp
      have secondMembers : ∀ update ∈ second.map Prod.snd, update ∈ updates :=
        fun update => (ordersSecond.all update).mp
      refine ⟨(first.map Prod.snd).foldl Graph.updated graph, ?_, ?_⟩
      · exact harmless.mixAll (List.forall_mem_map.mp firstMembers)
      · rw [Convergence.foldl_eq_of_same_operations commutes again firstMembers
          fun update => (ordersFirst.all update).trans (ordersSecond.all update).symm]
        exact harmless.mixAll (List.forall_mem_map.mp secondMembers)
    · intro earlier update reached draws member _ done behind
      rw [harmless.mixAll draws.some] at done
      cases done
      have ahead := (harmless.foldl (List.forall_mem_map.mpr draws.some)).current _ member
      exact absurd behind (not_lt.mpr ahead)
    · intro earlier first second merged draws same member _ _ done
      obtain ⟨reached, before, last⟩ := mixAll_append_eq_ok_iff.mp done
      rw [harmless.mixAll draws.some] at before
      cases before
      have behind := harmless.foldl (List.forall_mem_map.mpr draws.some)
      obtain ⟨_, written⟩ := mixAll_singleton_eq_ok last
      rw [written, (behind.updated member).mixAll
        (List.forall_mem_singleton.mpr (same ▸ member)), List.map_singleton,
        List.foldl_cons, List.foldl_nil, ← same, Graph.updated_again]

end

/-! ### An older update -/

/-- The name of a node, set at a given time. -/
def namedAt (state : Rat) (name : String) : Update where
  soul := "1"
  key := "name"
  value := .str name
  state := state
  named := by decide

/-- An older name takes the place of a newer one. -/
theorem not_converges_older :
    ¬ ∀ (str : PyVal → String) (graph : Graph) (updates : List Update),
      Converges str graph updates := by
  intro claim
  let updates := [namedAt 2 "new", namedAt 1 "old"]
  have converges := claim (fun _ => "") (fun _ => none) updates
  have timely (state : Rat) (name : String) (before : state ≤ 2) :
      Timely (2, namedAt state name) := before
  have merged : ∃ diff, hamMix (fun _ => "") 2 (namedAt 2 "new").change (fun _ => none) =
      .ok diff (Graph.updated (fun _ => none) (namedAt 2 "new")) :=
    hamMix_ready _ _ nofun
  obtain ⟨diff, mixed⟩ := merged
  have newer : mixAll (fun _ => "") [(2, namedAt 2 "new")] (fun _ => none) =
      .ok () (Graph.updated (fun _ => none) (namedAt 2 "new")) := by
    rw [mixAll_cons, seq_of_ok mixed]
    rfl
  have stored : Graph.stored (Graph.updated (fun _ => none) (namedAt 2 "new"))
      (namedAt 1 "old") = 2 :=
    stored_updated_self
  have draws : Draws updates [(2, namedAt 2 "new")] :=
    ⟨List.forall_mem_singleton.mpr (timely 2 "new" le_rfl),
      List.forall_mem_singleton.mpr List.mem_cons_self⟩
  have older := converges.historical _ (2, namedAt 1 "old") _ draws
    (List.mem_cons_of_mem _ List.mem_cons_self) (timely 1 "old" one_le_two) newer
    (stored ▸ one_lt_two)
  obtain ⟨_, written⟩ := mixAll_singleton_eq_ok older
  rw [written, stored_updated_self] at stored
  exact absurd stored (by decide)

end Gun

end JumpscaleX
