import Mathlib.Algebra.Order.Floor.Ring
import Mathlib.Data.Rat.Floor
import Mathlib.Data.String.Basic
import Mathlib.Logic.Function.Basic
import JumpscaleX.Value

/-!
# The graph of the GunDB server

`GunUtils.py`: a graph has nodes by their soul, a node its values by their key
and, under `_`, the metadata with a state number for each key.  `hamMix`
applies a change to a graph, `HAM` is its conflict resolution.
-/

namespace JumpscaleX

open Stateful

namespace Gun

def METADATA : String := "_"

def STATE : String := ">"

def SOUL : String := "#"

/-- What stands under `_`: the soul, and the states of the keys. -/
structure Metadata where
  soul : Option PyVal
  state : Option (String → Option Rat)

structure Node where
  metadata : Option Metadata
  fields : String → Option PyVal

abbrev Graph := String → Option Node

/-- A node of a change, with its values in the order of the message. -/
structure ChangeNode where
  metadata : Option Metadata
  items : List (String × PyVal)

abbrev Change := List (String × ChangeNode)

/-- `get_state_of`. -/
def getStateOf (metadata : Option Metadata) (key : String) : Rat :=
  match metadata.bind Metadata.state with
  | some state => (state key).getD 0
  | none => 0

/-- `new_node` without values. -/
def newNode (name : String) : Node where
  metadata := some { soul := some (.str name), state := some (fun _ => none) }
  fields := fun _ => none

namespace Node

/-- `node[key] = val`. -/
def setField (node : Node) (key : String) (val : PyVal) : Node :=
  { node with fields := Function.update node.fields key (some val) }

/-- `ensure_state`.  Making the states of a node that has none lists its keys,
`_` among them, and takes the soul from under `#`. -/
def ensureState (node : Node) : Except Exn Node :=
  match node.metadata with
  | none => .error (.keyError METADATA)
  | some metadata =>
      match metadata.state, node.fields SOUL with
      | some _, _ => .ok node
      | none, none => .error (.keyError SOUL)
      | none, some soul =>
          .ok { node with
            metadata := some
              { soul := some soul
                state := some (fun key =>
                  if key ≠ SOUL ∧ (key = METADATA ∨ (node.fields key).isSome) then some 0
                  else none) } }

/-- `node["_"][">"][key] = state`, of a node with states. -/
def setState (node : Node) (key : String) (state : Rat) : Node :=
  { node with
    metadata := node.metadata.map (fun metadata =>
      { metadata with
        state := metadata.state.map (fun states =>
          Function.update states key (some state)) }) }

end Node

/-- The answers of `HAM`. -/
inductive Ham where
  | defer
  | historical
  | state
  | incoming
  | current
  /-- "Invalid CRDT Data: {} to {} at {} to {} " -/
  | err (incomingValue currentValue : String) (incomingState currentState : Rat)

/-- The text as which a value is compared; `str` is the built-in. -/
def comparedText (str : PyVal → String) : PyVal → String
  | .none => ""
  | .str text => text
  | value => str value

/-- `HAM`, with its second comparison of the states as the first one is. -/
def HAM (str : PyVal → String) (machineState : Int) (incomingState currentState : Rat)
    (incomingValue currentValue : PyVal) : Ham :=
  let incoming := comparedText str incomingValue
  let current := comparedText str currentValue
  if machineState < incomingState then .defer
  else if incomingState < currentState then .historical
  else if incomingState < currentState then .incoming
  else if incomingState = currentState then
    if incoming = current then .state
    else if incoming < current then .current
    else .incoming
  else .err incoming current incomingState currentState

/-- One value of a change: the body of the inner loop of `ham_mix`.  The
answer of `HAM` is not looked at. -/
def mixItem (str : PyVal → String) (machine : Int) (soul : String)
    (metadata : Option Metadata) (diff : Graph) (item : String × PyVal) :
    EStateM Exn Graph Graph :=
  let (key, val) := item
  if key ∈ [METADATA, SOUL, STATE] then return diff
  else do
    let graph ← getThe Graph
    let state := getStateOf metadata key
    let was := getStateOf ((graph soul).bind Node.metadata) key
    let known := ((graph soul).bind (fun node => node.fields key)).getD (.int 0)
    let _ham := HAM str machine state was val known
    let node := ((graph soul).getD (newNode soul)).setField key val
    modify (fun graph => Function.update graph soul (some node))
    let node ← attempt node.ensureState
    let diffNode ← attempt (((diff soul).getD (newNode soul)).setField key val).ensureState
    modify (fun graph => Function.update graph soul (some (node.setState key state)))
    return Function.update diff soul (some (diffNode.setState key state))

/-- `ham_mix`, at the time that the clock of the machine shows. -/
def hamMix (str : PyVal → String) (machine : Int) (change : Change) :
    EStateM Exn Graph Graph :=
  change.foldlM (fun diff node =>
    node.2.items.foldlM (mixItem str machine node.1 node.2.metadata) diff) (fun _ => none)

/-- An update of one key.  The three words that build up a node are no keys. -/
structure Update where
  soul : String
  key : String
  value : PyVal
  state : Rat
  named : key ∉ [METADATA, SOUL, STATE]

/-- The message that carries an update. -/
def Update.change (update : Update) : Change :=
  [(update.soul,
    { metadata := some
        { soul := some (.str update.soul)
          state := some (Function.update (fun _ => none) update.key (some update.state)) }
      items := [(update.key, update.value)] })]

/-- Apply updates one after the other, each at a time of its own. -/
def mixAll (str : PyVal → String) (updates : List (Int × Update)) :
    EStateM Exn Graph Unit :=
  updates.forM (fun update => do
    let _ ← hamMix str update.1 update.2.change
    return ())

end Gun

end JumpscaleX
