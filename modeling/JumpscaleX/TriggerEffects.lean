import JumpscaleX.TriggerRounds

/-!
# What the parts of an operation do to their triggers

Most of what an operation does is silent: it neither calls a trigger for an
action of the operation nor modifies the store or the index.  Other parts only
modify.  What is left are the rounds.
-/

namespace JumpscaleX.Triggers

open Stateful

variable {σ α β : Type} {actions : List Action}

theorem modified_mem_relevant (actions : List Action) {log : List Event} :
    Event.modified ∈ relevant actions log ↔ Event.modified ∈ log := by
  simp [relevant, Event.relevant]

/-! ## Silent parts -/

/-- The code shows nothing to the triggers of these actions. -/
def Silent (actions : List Action) (code : M σ α) : Prop :=
  ∀ events, Keeps (fun run => relevant actions run.log = events) code

namespace Silent

theorem final_eq {code : M σ α} (silent : Silent actions code) (run : Run σ) :
    relevant actions (final code run).log = relevant actions run.log :=
  silent _ run rfl

theorem of_ok {code : M σ α} (silent : Silent actions code) {run reached : Run σ}
    {value : α} (done : code run = .ok value reached) :
    relevant actions reached.log = relevant actions run.log := by
  rw [← silent.final_eq run, final_of_ok done]

theorem of_error {code : M σ α} (silent : Silent actions code) {run reached : Run σ}
    {problem : Exn} (failed : code run = .error problem reached) :
    relevant actions reached.log = relevant actions run.log := by
  rw [← silent.final_eq run, final_of_error failed]

theorem pure (value : α) : Silent actions (Pure.pure value : M σ α) := by
  intro events
  exact Keeps.pure value

theorem throw (problem : Exn) : Silent actions (MonadExcept.throw problem : M σ α) := by
  intro events
  exact Keeps.throw problem

theorem bind {first : M σ α} {next : α → M σ β} (firstSilent : Silent actions first)
    (nextSilent : ∀ value, Silent actions (next value)) :
    Silent actions (first >>= next) := by
  intro events
  exact Keeps.bind (firstSilent events) (fun value => nextSilent value events)

theorem attempt (outcome : Except Exn α) : Silent actions (attempt outcome : M σ α) := by
  intro events
  exact Keeps.attempt outcome

theorem lift (code : EStateM Exn (World σ) α) : Silent actions (lift code) := by
  intro events run shown
  rw [Triggers.lift, final_onPart]
  exact shown

theorem change {change : Run σ → Run σ} (same : ∀ run, (change run).log = run.log) :
    Silent actions (modify change : M σ PUnit) := by
  intro events
  apply Keeps.modify
  intro run shown
  rw [same]
  exact shown

theorem setattr (ref : Nat) (change : Obj → Obj) :
    Silent actions (setattr ref change : M σ PUnit) :=
  Silent.change (fun _ => rfl)

theorem attr (ref : Nat) (read : Obj → α) : Silent actions (attr ref read : M σ α) := by
  intro events
  exact Keeps.bind Keeps.get (fun _ => Keeps.pure _)

theorem runIf {condition : Prop} [Decidable condition] {code : M σ PUnit}
    (silent : Silent actions code) : Silent actions (runIf condition code) := by
  intro events
  exact Keeps.runIf (fun _ => silent events)

theorem forM {ι : Type} {items : List ι} {body : ι → M σ PUnit}
    (silent : ∀ item, Silent actions (body item)) : Silent actions (items.forM body) := by
  intro events
  exact Keeps.forM (fun item _ => silent item events)

theorem triggers_call (model : Model σ) (obj : Nat) {action : Action}
    (ignored : action ∉ actions) : Silent actions (model._triggers_call obj action) := by
  intro events run shown
  obtain ⟨calls, round, logged⟩ := triggers_call_round model obj action run
  rw [logged, relevant_append, round.irrelevant_calls ignored, List.append_nil]
  exact shown

theorem schema_new (model : Model σ) (source : Source) (ignored : .new ∉ actions) :
    Silent actions (model.schema_new source) := by
  apply bind (lift _)
  intro obj
  apply bind (triggers_call model obj ignored)
  intro _
  exact pure obj

theorem loads (model : Model σ) (raw : List Nat) (ignored : .new ∉ actions)
    (ignoredChange : .schema_change ∉ actions) : Silent actions (model.loads raw) := by
  apply bind
  · apply bind (attempt _)
    intro _
    apply bind (lift _)
    intro found
    apply bind (schema_new model _ ignored)
    intro obj
    exact pure (obj, found)
  · rintro ⟨obj, found⟩
    apply bind (setattr _ _)
    intro _
    cases found.sameUrl with
    | false => exact pure obj
    | true =>
        apply bind (triggers_call model obj ignored)
        intro _
        cases found.outdated with
        | false => exact pure obj
        | true =>
            apply bind (triggers_call model obj ignoredChange)
            intro _
            apply bind (lift _)
            intro _
            exact pure obj

theorem unserialize (model : Model σ) (id : Nat) (data : List Nat)
    (ignored : .new ∉ actions) (ignoredChange : .schema_change ∉ actions) :
    Silent actions (model._unserialize id data) := by
  apply bind (attempt _)
  intro stored
  apply bind (loads model _ ignored ignoredChange)
  intro obj
  apply bind (lift _)
  intro same
  apply bind (attempt _)
  intro _
  apply bind (setattr _ _)
  intro _
  exact pure obj

theorem get (model : Model σ) (obj_id : Nat) (die : Bool) (ignored : .new ∉ actions)
    (ignoredChange : .schema_change ∉ actions) (ignoredGet : .get ∉ actions) :
    Silent actions (model.get obj_id die) := by
  apply bind (attempt _)
  intro _
  apply bind (lift _)
  intro data
  cases data with
  | none =>
      cases die with
      | true => exact throw _
      | false => exact pure none
  | some data =>
      apply bind (unserialize model obj_id data ignored ignoredChange)
      intro obj
      apply bind (lift _)
      intro same
      apply bind (attempt _)
      intro _
      apply bind (triggers_call model obj ignoredGet)
      intro result
      exact pure (some result.1)

theorem find (model : Model σ) (ids : List Nat) (ignored : .new ∉ actions)
    (ignoredChange : .schema_change ∉ actions) (ignoredGet : .get ∉ actions) :
    Silent actions (model.find ids) := by
  induction ids with
  | nil => exact pure []
  | cons id ids induction =>
      refine bind ?_ (fun obj => bind induction (fun found => pure _))
      intro events run shown
      have kept := get model id true ignored ignoredChange ignoredGet events run shown
      unfold final at kept ⊢
      cases got : model.get id true run with
      | ok obj reached =>
          simp only [got] at kept ⊢
          exact kept
      | error problem reached =>
          simp only [got] at kept ⊢
          cases problem <;> exact kept

theorem checkUnique (model : Model σ) (self : Nat) (property : String)
    (ignored : .new ∉ actions) (ignoredChange : .schema_change ∉ actions)
    (ignoredGet : .get ∉ actions) : Silent actions (model.checkUnique self property) := by
  apply bind (lift _)
  intro ids
  apply bind (find model ids ignored ignoredChange ignoredGet)
  intro found
  match found with
  | [] => exact pure PUnit.unit
  | [other] =>
      apply bind (attr _ _)
      intro id
      apply bind (attr _ _)
      intro otherId
      exact attempt _
  | _ :: _ :: _ => exact throw _

end Silent

/-! ## Parts that modify -/

/-- The code shows modifications at most. -/
def Modifies (actions : List Action) (code : M σ α) : Prop :=
  ∀ run, ∃ number,
    relevant actions (final code run).log =
      relevant actions run.log ++ List.replicate number .modified

namespace Modifies

theorem of_silent {code : M σ α} (silent : Silent actions code) :
    Modifies actions code := by
  intro run
  exact ⟨0, by simp [silent.final_eq run]⟩

theorem bind {first : M σ α} {next : α → M σ β} (firstModifies : Modifies actions first)
    (nextModifies : ∀ value, Modifies actions (next value)) :
    Modifies actions (first >>= next) := by
  intro run
  obtain ⟨earlier, shown⟩ := firstModifies run
  cases outcome : first run with
  | error problem reached =>
      rw [final_of_error outcome] at shown
      rw [final_seq_of_error outcome]
      exact ⟨earlier, shown⟩
  | ok value between =>
      rw [final_of_ok outcome] at shown
      rw [final_seq_of_ok outcome]
      obtain ⟨later, shownLater⟩ := nextModifies value between
      refine ⟨earlier + later, ?_⟩
      rw [shownLater, shown, List.append_assoc, List.replicate_append_replicate]

theorem runIf {condition : Prop} [Decidable condition] {code : M σ PUnit}
    (modifies : Modifies actions code) : Modifies actions (runIf condition code) := by
  unfold Stateful.runIf
  split
  · exact modifies
  · exact of_silent (Silent.pure _)

theorem note : Modifies actions (note .modified : M σ PUnit) := by
  intro run
  refine ⟨1, ?_⟩
  have logged : (final (Triggers.note .modified : M σ PUnit) run).log =
      run.log ++ [.modified] := rfl
  rw [logged, relevant_append]
  rfl

theorem modifying (code : EStateM Exn (World σ) α) : Modifies actions (modifying code) := by
  apply bind (of_silent (Silent.lift code))
  intro value
  apply bind note
  intro _
  exact of_silent (Silent.pure value)

theorem setAcl (model : Model σ) (obj : Nat) : Modifies actions (model.setAcl obj) := by
  apply bind (of_silent (Silent.setattr _ _))
  intro _
  apply bind (of_silent (Silent.attr _ _))
  intro acl
  cases acl with
  | none => exact of_silent (Silent.pure _)
  | some acl =>
      obtain ⟨id, md5⟩ := acl
      cases id with
      | none =>
          apply bind (of_silent (Silent.lift _))
          intro written
          apply bind (runIf note)
          intro _
          exact of_silent (Silent.setattr _ _)
      | some id =>
          apply bind (of_silent (Silent.lift _))
          intro acl2
          refine bind (runIf ?_) (fun _ => of_silent (Silent.setattr _ _))
          apply bind (of_silent (Silent.runIf (Silent.setattr _ _)))
          intro _
          exact bind (of_silent (Silent.lift _)) (fun written => runIf note)

theorem storeNew (model : Model σ) (obj : Nat) (data : Stored) :
    Modifies actions (model.storeNew obj data) :=
  bind (modifying _) (fun _ => of_silent (Silent.setattr _ _))

theorem setStore (model : Model σ) (obj : Nat) : Modifies actions (model.setStore obj) := by
  apply bind (of_silent (Silent.lift _))
  intro bdata
  apply bind (of_silent (Silent.attr _ _))
  intro attrs
  apply bind (of_silent (Silent.attempt _))
  intro _
  cases attrs.id with
  | none =>
      apply bind (storeNew model obj _)
      intro _
      apply bind (of_silent (Silent.attr _ _))
      intro id
      apply bind (runIf (storeNew model obj _))
      intro _
      apply bind (of_silent (Silent.attr _ _))
      intro id
      exact of_silent (Silent.attempt _)
  | some id => exact bind (modifying _) (fun _ => of_silent (Silent.pure _))

theorem setIndex (model : Model σ) (obj : Nat) (store : Bool) :
    Modifies actions (model.setIndex obj store) :=
  bind (runIf (modifying _)) (fun _ => modifying _)

theorem remove (actions : List Action) (model : Model σ) (id : Option Nat) (nid : Nat) :
    Modifies actions (model.remove id nid) :=
  bind (modifying _) (fun _ => modifying _)

end Modifies

/-! ## What has been modified -/

/-- Modifications are never taken back. -/
theorem Modifies.keeps {code : M σ α} (modifies : Modifies [] code) :
    Keeps (fun run => Event.modified ∈ run.log) code := by
  intro run modified
  obtain ⟨number, shown⟩ := modifies run
  rw [← modified_mem_relevant [], shown]
  exact List.mem_append_left _ ((modified_mem_relevant []).mpr modified)

/-- Code that returns only once it has modified something. -/
def Writes (code : M σ α) : Prop :=
  ∀ run value reached, code run = .ok value reached → Event.modified ∈ reached.log

namespace Writes

theorem modifying (code : EStateM Exn (World σ) α) : Writes (modifying code) := by
  intro run value reached done
  obtain ⟨value', between, _, noted⟩ := seq_eq_ok_iff.mp done
  obtain ⟨_, between', written, returned⟩ := seq_eq_ok_iff.mp noted
  rw [return_eq_ok_iff] at returned
  rw [← returned.2, ← modify_eq_ok_iff.mp written]
  exact List.mem_append_right _ List.mem_cons_self

theorem bind_left {first : M σ α} {next : α → M σ β} (writes : Writes first)
    (modifies : ∀ value, Modifies [] (next value)) : Writes (first >>= next) := by
  intro run result reached done
  obtain ⟨value, between, written, later⟩ := seq_eq_ok_iff.mp done
  exact (modifies value).keeps.of_ok later (writes run value between written)

theorem bind_right {first : M σ α} {next : α → M σ β}
    (writes : ∀ value, Writes (next value)) : Writes (first >>= next) := by
  intro run result reached done
  obtain ⟨value, between, _, later⟩ := seq_eq_ok_iff.mp done
  exact writes value between result reached later

theorem setStore (model : Model σ) (obj : Nat) : Writes (model.setStore obj) := by
  apply bind_right
  intro bdata
  apply bind_right
  intro attrs
  apply bind_right
  intro _
  cases attrs.id with
  | none =>
      refine bind_left (bind_left (modifying _) (fun _ => ?_)) (fun _ => ?_)
      · exact Modifies.of_silent (Silent.setattr _ _)
      · apply Modifies.bind (Modifies.of_silent (Silent.attr _ _))
        intro id
        apply Modifies.bind (Modifies.runIf (Modifies.storeNew model obj _))
        intro _
        apply Modifies.bind (Modifies.of_silent (Silent.attr _ _))
        intro id
        exact Modifies.of_silent (Silent.attempt _)
  | some id => exact bind_left (modifying _) (fun _ => Modifies.of_silent (Silent.pure _))

end Writes

end JumpscaleX.Triggers
