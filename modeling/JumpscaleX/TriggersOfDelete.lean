import JumpscaleX.TriggersOfSet

/-!
# The triggers of a delete

The model deletes an object with one round of its triggers and an id without
any.  The object calls the triggers itself and then asks the model, which
calls them again.
-/

namespace JumpscaleX.Triggers

open Stateful

variable {σ α β : Type}

section Operations

variable {model : Model σ} {world : World σ}

/-! ## Delete -/

/-- An id is deleted without any trigger. -/
theorem deleteId_obeys_iff {id : Nat} :
    (Operation.deleteId id).ObeysTriggers model world ↔
      id = 0 ∨ ∃ problem reached,
        model.remove (some id) 1 (start world) = .error problem reached := by
  rw [obeysTriggers_iff, Operation.perform, Operation.documented]
  by_cases positive : id > 0
  · have passed : Fallible.ensure (id > 0) Exn.assertionError = .ok PUnit.unit :=
      Fallible.ensure_of positive
    have removed : model.deleteId id (start world) =
        model.remove (some id) 1 (start world) := attempt_seq_of_ok passed
    have silent := callsOf_of_modifies (start world)
      (Modifies.remove [.delete] model (some id) 1) rfl
    rw [final, removed, ← final]
    cases code : model.remove (some id) 1 (start world) with
    | error problem reached =>
        exact iff_of_true (Obeys.of_no_calls silent) (.inr ⟨problem, reached, rfl⟩)
    | ok value reached =>
        apply iff_of_false
        · exact Obeys.not_of_missing (triggers_pos model) silent
        · rintro (zero | ⟨_, _, failed⟩)
          · omega
          · cases failed
  · have refused : Fallible.ensure (id > 0) Exn.assertionError = .error .assertionError :=
      Fallible.ensure_of_not positive
    have failed : model.deleteId id (start world) = .error .assertionError (start world) :=
      attempt_seq_of_error refused
    rw [failed, final_of_error failed]
    exact iff_of_true (Obeys.of_no_calls rfl) (.inl (by omega))

section Delete

variable {obj : Nat} {run : Run σ} (model)

theorem delete_of_nid_zero (zero : (run.world.objects obj).nid = 0) :
    model.delete obj run = .error .assertionError run := by
  have refused : Fallible.ensure ((run.world.objects obj).nid ≠ 0) Exn.assertionError =
      .error .assertionError := Fallible.ensure_of_not (not_not_intro zero)
  exact attempt_seq_of_error refused

theorem delete_of_nid (nonzero : (run.world.objects obj).nid ≠ 0) :
    model.delete obj run =
      (if (run.world.objects obj).id.isSome = true then
        model._triggers_call obj .delete >>= fun answer =>
          if answer.2 then pure PUnit.unit
          else attr answer.1 id >>= fun attrs => model.remove attrs.id attrs.nid
      else pure PUnit.unit) run := by
  have passed : Fallible.ensure ((run.world.objects obj).nid ≠ 0) Exn.assertionError =
      .ok PUnit.unit := Fallible.ensure_of nonzero
  exact attempt_seq_of_ok passed

theorem delete_of_id_none (nonzero : (run.world.objects obj).nid ≠ 0)
    (none : (run.world.objects obj).id = none) :
    model.delete obj run = .ok PUnit.unit run := by
  rw [delete_of_nid model nonzero, none]
  rfl

/-- A stored object is deleted with one round of its triggers, and nothing is
removed when one of them stops. -/
theorem delete_round (nonzero : (run.world.objects obj).nid ≠ 0)
    (stored : (run.world.objects obj).id ≠ none) :
    ∃ calls ending number,
      Round .delete model._triggers.length 0 obj calls ending ∧
      relevant [.delete] (final (model.delete obj) run).log =
        relevant [.delete] run.log ++
          (calls.map .called ++ List.replicate number .modified) ∧
      (ending = .stopped → number = 0) ∧
      (hasReturned (model.delete obj run) = true → ending ≠ .raised) := by
  obtain ⟨calls, round, logged⟩ := triggers_call_round model obj .delete run
  have started := delete_of_nid model nonzero
  rw [if_pos (Option.isSome_iff_ne_none.mpr stored)] at started
  have shown := congrArg (relevant [.delete]) logged
  rw [relevant_append, round.relevant_calls (by simp)] at shown
  rw [final]
  cases code : model._triggers_call obj .delete run with
  | error problem reached =>
      rw [seq_of_error code] at started
      rw [final_of_error code] at shown
      refine ⟨calls, _, 0, round, ?_, ?_, ?_⟩
      · rw [started, shown]
        simp
      · simp
      · simp [started, hasReturned]
  | ok answer reached =>
      obtain ⟨obj2, stop⟩ := answer
      rw [seq_of_ok code] at started
      rw [final_of_ok code] at shown
      rw [code] at round
      cases stop with
      | true =>
          refine ⟨calls, _, 0, round, ?_, ?_, ?_⟩
          · rw [started, if_pos rfl]
            simp [shown, pure, EStateM.pure]
          · simp
          · simp [endingOf]
      | false =>
          obtain ⟨number, removed⟩ := Modifies.remove [.delete] model
            (reached.world.objects obj2).id (reached.world.objects obj2).nid reached
          have continued : model.delete obj run =
              model.remove (reached.world.objects obj2).id
                (reached.world.objects obj2).nid reached := started
          refine ⟨calls, _, number, round, ?_, ?_, ?_⟩
          · rw [continued, ← final, removed, shown, List.append_assoc]
          · simp [endingOf]
          · simp [endingOf]

end Delete

theorem delete_obeys_iff {obj : Nat} :
    (Operation.delete obj).ObeysTriggers model world ↔
      (world.objects obj).nid = 0 ∨ (world.objects obj).id ≠ none := by
  rw [obeysTriggers_iff, Operation.perform, Operation.documented]
  by_cases zero : (world.objects obj).nid = 0
  · have failed := delete_of_nid_zero model
      (show ((start world).world.objects obj).nid = 0 from zero)
    rw [failed, final_of_error failed]
    exact iff_of_true (Obeys.of_no_calls rfl) (.inl zero)
  by_cases none : (world.objects obj).id = none
  · have kept := delete_of_id_none model
      (show ((start world).world.objects obj).nid ≠ 0 from zero) none
    rw [kept, final_of_ok kept]
    apply iff_of_false
    · exact Obeys.not_of_missing (triggers_pos model) rfl
    · simp [zero, none]
  · obtain ⟨calls, ending, number, round, shown, silent, finished⟩ :=
      delete_round model (show ((start world).world.objects obj).nid ≠ 0 from zero) none
    rw [show relevant [.delete] (start world).log = [] from rfl, List.nil_append] at shown
    exact iff_of_true (Obeys.of_round round shown silent finished) (.inr none)

section ObjectDelete

variable {self : Nat} {run : Run σ}

/-- The model is not asked to delete the object, or it has nothing to delete. -/
def Model.KeepsStored (model : Model σ) (self : Nat) (run : Run σ) : Prop :=
  run.world.nosave = true ∨ run.world.readonly = true ∨ model.host.classAcl = true ∨
    (run.world.objects self).nid = 0 ∨ (run.world.objects self).id = none

theorem objectRemove_of_nosave (unsaved : run.world.nosave = true) :
    model.objectRemove self run = .ok PUnit.unit run := by
  have branch : model.objectRemove self run =
      (if run.world.nosave = true then pure PUnit.unit else _ : M σ PUnit) run := rfl
  rw [branch, if_pos unsaved]
  rfl

theorem objectRemove_of_saves (model : Model σ) (self : Nat) (saves : run.world.nosave = false) :
    model.objectRemove self run =
      (attempt (Fallible.ensure (run.world.readonly = false)
          (.base "object _readonly, cannot be saved.")) >>= fun _ =>
        runIf (model.host.classAcl = false) (model.delete self) >>= fun _ =>
          lift (model.host.reset self) >>= fun _ =>
            setattr self fun attrs => { attrs with id := none }) run := by
  have branch : model.objectRemove self run =
      (if run.world.nosave = true then pure PUnit.unit else _ : M σ PUnit) run := rfl
  rw [branch, if_neg (by simp [saves])]
  rfl

theorem Silent.objectReset {actions : List Action} :
    Silent actions (Triggers.lift (model.host.reset self) >>= fun _ =>
      Triggers.setattr self fun attrs => { attrs with id := none } : M σ PUnit) :=
  Silent.bind (Silent.lift _) (fun _ => Silent.setattr _ _)

/-- `delete` of the model, where it is called, and the reset of the object. -/
theorem objectRemove_shows (saves : run.world.nosave = false)
    (writable : run.world.readonly = false) :
    relevant [.delete] (final (model.objectRemove self) run).log =
      relevant [.delete]
        (final (runIf (model.host.classAcl = false) (model.delete self)) run).log := by
  have passed : Fallible.ensure (run.world.readonly = false)
      (Exn.base "object _readonly, cannot be saved.") = .ok PUnit.unit :=
    Fallible.ensure_of writable
  rw [final, objectRemove_of_saves model self saves, attempt_seq_of_ok passed, ← final]
  cases code : runIf (model.host.classAcl = false) (model.delete self) run with
  | error problem reached => rw [final_seq_of_error code, final_of_error code]
  | ok value reached =>
      rw [final_seq_of_ok code, final_of_ok code]
      exact Silent.objectReset.final_eq reached

theorem objectRemove_silent (keeps : model.KeepsStored self run) :
    relevant [.delete] (final (model.objectRemove self) run).log =
      relevant [.delete] run.log := by
  cases saved : run.world.nosave with
  | true => rw [final_of_ok (objectRemove_of_nosave saved)]
  | false =>
      cases locked : run.world.readonly with
      | true =>
          have refused : Fallible.ensure (run.world.readonly = false)
              (Exn.base "object _readonly, cannot be saved.") =
                .error (.base "object _readonly, cannot be saved.") :=
            Fallible.ensure_of_not (by simp [locked])
          have failed := (objectRemove_of_saves model self saved).trans
            (attempt_seq_of_error refused)
          rw [final_of_error failed]
      | false =>
          rw [objectRemove_shows saved locked]
          by_cases acl : model.host.classAcl = true
          · rw [runIf_of_not (by simp [acl])]
            rfl
          · rw [runIf, if_pos (by simpa using acl)]
            simp only [Model.KeepsStored, saved, locked, acl, Bool.false_eq_true,
              false_or] at keeps
            by_cases zero : (run.world.objects self).nid = 0
            · rw [final_of_error (delete_of_nid_zero model zero)]
            · have none := keeps.resolve_left zero
              rw [final_of_ok (delete_of_id_none model zero none)]

end ObjectDelete

theorem objectDelete_obeys_iff {self : Nat} :
    (Operation.objectDelete self).ObeysTriggers model world ↔
      ∀ answer after, model._triggers_call self .delete (start world) = .ok answer after →
        model.KeepsStored self after := by
  rw [obeysTriggers_iff, Operation.perform, Operation.documented]
  obtain ⟨calls, round, logged⟩ := triggers_call_round model self .delete (start world)
  have shown := congrArg (relevant [.delete]) logged
  rw [relevant_append, round.relevant_calls (by simp), relevant_nil,
    List.nil_append] at shown
  cases code : model._triggers_call self .delete (start world) with
  | error problem reached =>
      have failed : model.objectDelete self (start world) = .error problem reached :=
        seq_of_error code
      rw [final_of_error code] at shown
      rw [failed, final_of_error failed]
      apply iff_of_true
      · exact Obeys.of_round_alone round shown (by simp [hasReturned])
      · intro answer after done
        cases done
  | ok answer after =>
      have continued : model.objectDelete self (start world) =
          model.objectRemove self after := seq_of_ok code
      rw [final_of_ok code] at shown
      simp only [EStateM.Result.ok.injEq, and_imp, forall_apply_eq_imp_iff, forall_eq']
      rw [final, continued, ← final]
      have ended : endingOf (model._triggers_call self .delete (start world)) ≠ .raised := by
        rw [ne_eq, endingOf_eq_raised_iff, code]
        simp [hasReturned]
      constructor
      · intro obeys
        by_contra begins
        simp only [Model.KeepsStored, not_or, Bool.not_eq_true] at begins
        obtain ⟨saves, writable, acl, nonzero, stored⟩ := begins
        obtain ⟨calls2, ending, number, round2, removed, _⟩ :=
          delete_round model nonzero stored
        rw [objectRemove_shows saves writable, runIf, if_pos acl, removed, shown] at obeys
        refine Obeys.not_of_twice .delete (triggers_pos model) (by simp) ?_ obeys
        simp [round.starts_eq (triggers_pos model), round2.starts_eq (triggers_pos model)]
      · intro keeps
        rw [objectRemove_silent keeps, shown]
        exact Obeys.of_round_alone round rfl (fun _ => ended)

end Operations

end JumpscaleX.Triggers
