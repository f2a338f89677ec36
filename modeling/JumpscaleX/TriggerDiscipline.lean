import JumpscaleX.TriggersOfDelete
import JumpscaleX.TriggersOfNew

/-!
# When the operations obey their triggers

Each operation obeys exactly when it meets a condition on its arguments, on the
triggers and on the state it starts in.
-/

namespace JumpscaleX.Triggers

open Stateful

variable {σ : Type}

/-- When an operation obeys its triggers. -/
def Operation.Meets (model : Model σ) (world : World σ) : Operation → Prop
  | .new data _ kwargs =>
      ∀ source, Model.given model.host data kwargs = .ok source →
        source = .nothing ∨
          ∃ problem reached, model.firstObject source (start world) = .error problem reached
  | .get obj_id die =>
      die = true ∨ obj_id = 0 ∨
        ∀ reached, model.host.stor_get obj_id world ≠ .ok none reached
  | .set obj index true => model.SetMeets obj index (start world)
  | .set obj index false =>
      (world.objects obj).nid = 0 ∨ index = true ∧
        ∃ problem reached, model.setIndex obj false (start world) = .error problem reached
  | .save self => model.SaveMeets self (start world)
  | .deleteId id =>
      id = 0 ∨ ∃ problem reached,
        model.remove (some id) 1 (start world) = .error problem reached
  | .delete obj => (world.objects obj).nid = 0 ∨ (world.objects obj).id ≠ none
  | .objectDelete self =>
      ∀ answer after, model._triggers_call self .delete (start world) = .ok answer after →
        model.KeepsStored self after

/-- A host that stores and indexes without a failure. -/
def plainHost : Host Unit where
  url := "jumpscale.example.wallet.1"
  properties_unique := []
  classnameAcl := false
  classAcl := false
  json_check := fun _ => none
  json_loads := fun _ => none
  objclass := fun _ => pure 0
  ddict := fun _ => pure (.dict [])
  methods_add := fun _ world => world
  schema_get := fun _ => pure ⟨true, false⟩
  schema_change := pure PUnit.unit
  reattach := pure PUnit.unit
  unpack := fun raw => .ok ⟨1, 0, raw⟩
  has_schema := fun _ => pure true
  capnp_obj := fun _ => pure PUnit.unit
  data := fun _ => pure [3]
  check_empty_indexed_fields := fun _ => pure PUnit.unit
  find_ids := fun _ _ => pure []
  acl_save := fun _ => pure true
  acl_get := fun _ => pure none
  stor_get := fun _ => pure none
  stor_set := fun _ key => pure (key.getD 1)
  stor_delete := fun _ => pure PUnit.unit
  index_set := fun _ => pure PUnit.unit
  index_delete := fun _ => pure PUnit.unit
  index_delete_by_id := fun _ _ => pure PUnit.unit
  reset := fun _ => pure PUnit.unit
  json_version := fun _ _ impossible => by cases impossible

/-- A model with one trigger, which looks on. -/
def watchedModel : Model Unit where
  host := plainHost
  added := [fun _ _ => pure ⟨.nothing, false⟩]

/-- One stored object. -/
def storedWorld : World Unit where
  objects := fun _ => ⟨some 1, 1, some 0, none, false⟩
  nosave := false
  readonly := false
  rest := ()

end JumpscaleX.Triggers
