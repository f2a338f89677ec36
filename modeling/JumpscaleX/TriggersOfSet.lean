import JumpscaleX.TriggerEffects

/-!
# The triggers of a save

Obeying, and the operations that set an object.  A save has its rounds of
`set_pre` and `set_post`; what is open is whether a trigger comes in time.
-/

namespace JumpscaleX.Triggers

open Stateful

variable {σ α β : Type}

/-! ## Obeying -/

namespace Obeys

variable {count : Nat} {actions : List Action} {events : List Event} {returned : Bool}

theorem iff_veto (rounds : Rounds count actions (callsOf events) returned) :
    Obeys count actions returned events ↔
      ((∃ call ∈ callsOf events, call.stops = true) → Event.modified ∉ events) :=
  ⟨fun obeys => obeys.veto, fun veto => ⟨rounds, veto⟩⟩

/-- Nothing was called, and the operation raised. -/
theorem of_no_calls (none : callsOf events = []) : Obeys count actions false events := by
  constructor
  · rw [none]
    exact .pending actions
  · rintro ⟨call, member, _⟩
    rw [none] at member
    cases member

/-- One round for the one action, and nothing modified unless it ran through. -/
theorem of_round {action : Action} {obj : Nat} {calls : List Call} {ending : Ending}
    (round : Round action count 0 obj calls ending) {number : Nat}
    (shown : events = calls.map .called ++ List.replicate number .modified)
    (silent : ending = .stopped → number = 0)
    (finished : returned = true → ending ≠ .raised) :
    Obeys count [action] returned events := by
  have called : callsOf events = calls := by simp [shown]
  constructor
  · rw [called]
    cases returned with
    | false => exact .of_round round
    | true => exact .of_round_returned round (finished rfl)
  · intro stopped
    rw [called, round.stops_iff] at stopped
    rw [shown, silent stopped]
    simp

/-- One round for the one action, and nothing modified. -/
theorem of_round_alone {action : Action} {obj : Nat} {calls : List Call} {ending : Ending}
    (round : Round action count 0 obj calls ending) (shown : events = calls.map .called)
    (finished : returned = true → ending ≠ .raised) :
    Obeys count [action] returned events :=
  of_round round (by rw [shown, List.replicate_zero, List.append_nil]) (fun _ => rfl) finished

/-- Nothing was called, and the operation returned. -/
theorem not_of_missing {action : Action} (some : 0 < count) (none : callsOf events = []) :
    ¬ Obeys count (action :: actions) true events := by
  intro obeys
  have begun := obeys.rounds.first_started some (.inr rfl)
  rw [none] at begun
  simp at begun

/-- Two rounds were begun for one action. -/
theorem not_of_twice (action : Action) (some : 0 < count) (distinct : actions.Nodup)
    (twice : 2 ≤ starts action (callsOf events)) :
    ¬ Obeys count actions returned events :=
  fun obeys => obeys.rounds.not_of_starts some distinct twice

end Obeys

/-! ## Endings -/

/-- A trigger stops the round that is begun here. -/
def Model.Stops (model : Model σ) (obj : Nat) (action : Action) (run : Run σ) : Prop :=
  ∃ obj2 reached, model._triggers_call obj action run = .ok (obj2, true) reached

theorem endingOf_eq_stopped_iff {model : Model σ} {obj : Nat} {action : Action}
    {run : Run σ} :
    endingOf (model._triggers_call obj action run) = .stopped ↔
      model.Stops obj action run := by
  unfold Model.Stops
  cases model._triggers_call obj action run with
  | ok answer reached =>
      obtain ⟨obj2, stop⟩ := answer
      cases stop <;> simp [endingOf]
  | error problem reached => simp [endingOf]

theorem endingOf_eq_raised_iff {result : EStateM.Result Exn (Run σ) (Nat × Bool)} :
    endingOf result = .raised ↔ hasReturned result = false := by
  cases result with
  | ok answer reached =>
      obtain ⟨obj2, stop⟩ := answer
      cases stop <;> simp [endingOf, hasReturned]
  | error problem reached => simp [endingOf, hasReturned]

theorem final_map {code : M σ α} {change : α → β} (run : Run σ) :
    final (code >>= fun value => pure (change value)) run = final code run := by
  simp only [final, bind, EStateM.bind]
  cases code run <;> rfl

theorem hasReturned_map {code : M σ α} {change : α → β} (run : Run σ) :
    hasReturned ((code >>= fun value => pure (change value)) run) =
      hasReturned (code run) := by
  simp only [hasReturned, bind, EStateM.bind]
  cases code run <;> rfl

/-! ## Set -/

section Set

variable {model : Model σ} {obj : Nat} {index : Bool} {run : Run σ}

theorem setData_of_nid_zero (model : Model σ) (index store : Bool)
    (zero : (run.world.objects obj).nid = 0) :
    model.setData obj index store run = .error .assertionError run := by
  have failed : Fallible.ensure ((run.world.objects obj).nid ≠ 0) Exn.assertionError =
      .error .assertionError := Fallible.ensure_of_not (not_not_intro zero)
  exact attempt_seq_of_error failed

theorem setData_of_nid (model : Model σ) (index : Bool)
    (nonzero : (run.world.objects obj).nid ≠ 0) :
    model.setData obj index true run =
      (model._triggers_call obj .set_pre >>= fun answer =>
        if answer.2 then Model.setStopped answer.1 >>= fun _ => pure (answer.1, true)
        else model.setWrite answer.1 index true >>= fun _ => pure (answer.1, false)) run := by
  have passed : Fallible.ensure ((run.world.objects obj).nid ≠ 0) Exn.assertionError =
      .ok PUnit.unit := Fallible.ensure_of nonzero
  exact attempt_seq_of_ok passed

theorem setData_unstored_of_nid (model : Model σ) (index : Bool)
    (nonzero : (run.world.objects obj).nid ≠ 0) :
    model.setData obj index false run =
      (model.setWrite obj index false >>= fun _ => pure (obj, false)) run := by
  have passed : Fallible.ensure ((run.world.objects obj).nid ≠ 0) Exn.assertionError =
      .ok PUnit.unit := Fallible.ensure_of nonzero
  exact attempt_seq_of_ok passed

theorem set_of_error {store : Bool} {problem : Exn} {reached : Run σ}
    (failed : model.setData obj index store run = .error problem reached) :
    model.set obj index store run = .error problem reached :=
  seq_of_error failed

theorem set_of_stopped {store : Bool} {obj2 : Nat} {reached : Run σ}
    (stopped : model.setData obj index store run = .ok (obj2, true) reached) :
    model.set obj index store run = .ok obj2 reached :=
  seq_of_ok stopped

theorem set_of_data {store : Bool} {obj2 : Nat} {reached : Run σ}
    (done : model.setData obj index store run = .ok (obj2, false) reached) :
    model.set obj index store run =
      (model._triggers_call obj2 .set_post >>= fun answer => pure answer.1) reached :=
  seq_of_ok done

theorem Modifies.setWrite (actions : List Action) (model : Model σ) (obj : Nat)
    (index store : Bool) :
    Modifies actions (model.setWrite obj index store) := by
  apply Modifies.bind (Modifies.runIf (Modifies.bind (Modifies.setAcl model obj) ?_))
  · intro _
    exact Modifies.runIf (Modifies.setIndex model obj store)
  · intro _
    exact Modifies.setStore model obj

theorem Writes.setWrite : Writes (model.setWrite obj index true) := by
  refine Writes.bind_left ?_ (fun _ => Modifies.runIf (Modifies.setIndex model obj true))
  exact Writes.bind_right (fun _ => Writes.setStore model obj)

theorem Silent.setStopped {actions : List Action} :
    Silent actions (Model.setStopped obj : M σ PUnit) :=
  Silent.bind (Silent.attr _ _) (fun _ => Silent.attempt _)

/-- When a save lets its triggers of `set_pre` veto a modification of before,
and its triggers of `set_post` the save itself. -/
def Model.SetMeets (model : Model σ) (obj : Nat) (index : Bool) (run : Run σ) : Prop :=
  (run.world.objects obj).nid = 0 ∨
    (Event.modified ∈ run.log → ¬ model.Stops obj .set_pre run) ∧
      ∀ obj2 reached, model.setData obj index true run = .ok (obj2, false) reached →
        ¬ model.Stops obj2 .set_post reached

/-- The actions of a save. -/
abbrev saving : List Action := [.set_pre, .set_post]

section Rounds

variable {obj2 : Nat} {reached between : Run σ} {calls : List Call} {ending : Ending}

theorem setMeets_iff (nonzero : (run.world.objects obj).nid ≠ 0) :
    model.SetMeets obj index run ↔
      (Event.modified ∈ run.log → ¬ model.Stops obj .set_pre run) ∧
        ∀ obj2 reached, model.setData obj index true run = .ok (obj2, false) reached →
          ¬ model.Stops obj2 .set_post reached := by
  simp only [Model.SetMeets, nonzero, false_or]

/-- The calls of a round, behind a log that shows no calls. -/
theorem callsOf_round (before : callsOf (relevant saving run.log) = []) :
    callsOf (relevant saving run.log ++ calls.map .called) = calls := by
  rw [callsOf_append, before, callsOf_called, List.nil_append]

/-- A trigger of `set_pre` raises. -/
theorem set_obeys_of_raised (index : Bool) (nonzero : (run.world.objects obj).nid ≠ 0)
    (before : callsOf (relevant saving run.log) = []) {problem : Exn}
    (pre : model._triggers_call obj .set_pre run = .error problem reached) :
    Obeys model._triggers.length saving false
        (relevant saving (final (model.set obj index true) run).log) ∧
      model.SetMeets obj index run := by
  obtain ⟨calls, round, logged⟩ := triggers_call_round model obj .set_pre run
  have unset := (setData_of_nid model index nonzero).trans
    (seq_of_error pre)
  rw [pre] at round
  rw [final_of_error pre] at logged
  rw [final_of_error (set_of_error unset), logged, relevant_append,
    round.relevant_calls (by simp), setMeets_iff nonzero, Obeys.iff_veto]
  · rw [callsOf_round before, round.stops_iff]
    refine ⟨fun stopped => (by cases stopped), ?_, ?_⟩
    · rintro _ ⟨obj2, other, stopped⟩
      cases pre.symm.trans stopped
    · intro obj2 other done
      cases unset.symm.trans done
  · rw [callsOf_round before]
    exact .raised round

/-- A trigger of `set_pre` stops: it may be too late for what was modified
before. -/
theorem set_obeys_iff_of_stopped (nonzero : (run.world.objects obj).nid ≠ 0)
    (before : callsOf (relevant saving run.log) = [])
    (pre : model._triggers_call obj .set_pre run = .ok (obj2, true) reached)
    {returned : Bool} :
    Obeys model._triggers.length saving returned
        (relevant saving (final (model.set obj index true) run).log) ↔
      model.SetMeets obj index run := by
  obtain ⟨calls, round, logged⟩ := triggers_call_round model obj .set_pre run
  have started := (setData_of_nid model index nonzero).trans
    (seq_of_ok pre)
  have stops : model.Stops obj .set_pre run := ⟨obj2, reached, pre⟩
  rw [pre] at round
  rw [final_of_ok pre] at logged
  have ends : relevant saving (final (model.set obj index true) run).log =
      relevant saving reached.log := by
    cases code : (Model.setStopped obj2 : M σ PUnit) reached with
    | error problem between =>
        have failed := set_of_error (started.trans (seq_of_error code))
        rw [final_of_error failed, Silent.setStopped.of_error code]
    | ok value between =>
        have done := set_of_stopped (started.trans (seq_of_ok code))
        rw [final_of_ok done, Silent.setStopped.of_ok code]
  rw [ends, logged, relevant_append, round.relevant_calls (by simp), setMeets_iff nonzero,
    Obeys.iff_veto]
  · rw [callsOf_round before, round.stops_iff]
    simp only [endingOf, forall_const, List.mem_append, modified_not_mem_called, or_false,
      modified_mem_relevant, stops, not_true_eq_false, imp_false]
    constructor
    · intro unmodified
      refine ⟨unmodified, fun obj3 other done => ?_⟩
      obtain ⟨_, _, _, answered⟩ := seq_eq_ok_iff.mp (started.symm.trans done)
      rw [return_eq_ok_iff] at answered
      cases answered.1
    · intro both
      exact both.1
  · rw [callsOf_round before]
    exact .stopped round

/-- The triggers of `set_pre` run through, and the writing fails. -/
theorem set_obeys_of_unwritten (nonzero : (run.world.objects obj).nid ≠ 0)
    (before : callsOf (relevant saving run.log) = []) {problem : Exn}
    (pre : model._triggers_call obj .set_pre run = .ok (obj2, false) reached)
    (failed : model.setWrite obj2 index true reached = .error problem between) :
    Obeys model._triggers.length saving false
        (relevant saving (final (model.set obj index true) run).log) ∧
      model.SetMeets obj index run := by
  obtain ⟨calls, round, logged⟩ := triggers_call_round model obj .set_pre run
  have unset := ((setData_of_nid model index nonzero).trans
    (seq_of_ok pre)).trans (seq_of_error failed)
  obtain ⟨number, wrote⟩ := Modifies.setWrite saving model obj2 index true reached
  rw [pre] at round
  rw [final_of_ok pre] at logged
  rw [final_of_error failed, logged, relevant_append, round.relevant_calls (by simp)] at wrote
  have called : callsOf (relevant saving run.log ++ calls.map .called ++
      List.replicate number .modified) = calls := by
    rw [callsOf_append, callsOf_round before, callsOf_modified, List.append_nil]
  rw [final_of_error (set_of_error unset), wrote, setMeets_iff nonzero, Obeys.iff_veto]
  · rw [called, round.stops_iff]
    refine ⟨fun stopped => (by cases stopped), ?_, ?_⟩
    · rintro _ ⟨obj3, other, stopped⟩
      cases pre.symm.trans stopped
    · intro obj3 other done
      cases unset.symm.trans done
  · rw [called, ← List.append_nil calls]
    exact .ran round (.pending _)

/-- The object is written: a trigger of `set_post` that stops is too late. -/
theorem set_obeys_iff_of_written (nonzero : (run.world.objects obj).nid ≠ 0)
    (before : callsOf (relevant saving run.log) = [])
    (pre : model._triggers_call obj .set_pre run = .ok (obj2, false) reached)
    (written : model.setWrite obj2 index true reached = .ok PUnit.unit between)
    {returned : Bool}
    (implied : returned = true → hasReturned (model.set obj index true run) = true) :
    Obeys model._triggers.length saving returned
        (relevant saving (final (model.set obj index true) run).log) ↔
      model.SetMeets obj index run := by
  obtain ⟨calls, round, logged⟩ := triggers_call_round model obj .set_pre run
  have data := ((setData_of_nid model index nonzero).trans
    (seq_of_ok pre)).trans (seq_of_ok written)
  have done := set_of_data data
  obtain ⟨number, wrote⟩ := Modifies.setWrite saving model obj2 index true reached
  rw [pre] at round
  rw [final_of_ok pre] at logged
  rw [final_of_ok written, logged, relevant_append, round.relevant_calls (by simp)] at wrote
  have modified := (modified_mem_relevant saving).mpr
    (Writes.setWrite reached _ between written)
  rw [wrote] at modified
  obtain ⟨calls2, round2, logged2⟩ := triggers_call_round model obj2 .set_post between
  have ends : final (model.set obj index true) run =
      final (model._triggers_call obj2 .set_post) between := by
    rw [final, done, ← final, final_map]
  have called : callsOf (relevant saving run.log ++ calls.map .called ++
      List.replicate number .modified ++ calls2.map .called) = calls ++ calls2 := by
    rw [callsOf_append, callsOf_append, callsOf_round before, callsOf_modified,
      List.append_nil, callsOf_called]
  have stopped : (∃ call ∈ calls ++ calls2, call.stops = true) ↔
      model.Stops obj2 .set_post between := by
    rw [← endingOf_eq_stopped_iff, ← round2.stops_iff]
    have none : ¬ ∃ call ∈ calls, call.stops = true := by
      rw [round.stops_iff]
      intro impossible
      cases impossible
    simp only [List.mem_append, or_and_right, exists_or, none, false_or]
  rw [ends, logged2, relevant_append, wrote, round2.relevant_calls (by simp),
    setMeets_iff nonzero, Obeys.iff_veto]
  · rw [called, stopped]
    constructor
    · intro veto
      constructor
      · rintro _ ⟨obj3, other, early⟩
        cases pre.symm.trans early
      · intro obj3 other given stops
        cases data.symm.trans given
        exact veto stops (List.mem_append_left _ modified)
    · intro both stops
      exact (both.2 obj2 between data stops).elim
  · rw [called]
    apply Rounds.ran round
    cases returned with
    | false => exact .of_round round2
    | true =>
        apply Rounds.of_round_returned round2
        intro raised
        have returns := implied rfl
        rw [done, hasReturned_map, endingOf_eq_raised_iff.mp raised] at returns
        cases returns

end Rounds

/-- `set` has its rounds; what is open is whether they come in time. -/
theorem set_obeys_iff (before : callsOf (relevant saving run.log) = []) {returned : Bool}
    (implied : returned = true → hasReturned (model.set obj index true run) = true) :
    Obeys model._triggers.length saving returned
        (relevant saving (final (model.set obj index true) run).log) ↔
      model.SetMeets obj index run := by
  have failing : ∀ {problem : Exn} {reached : Run σ},
      model.set obj index true run = .error problem reached → returned = false := by
    intro problem reached failed
    rw [failed] at implied
    cases returned with
    | false => rfl
    | true => cases implied rfl
  by_cases zero : (run.world.objects obj).nid = 0
  · have failed := set_of_error (setData_of_nid_zero model index true zero)
    rw [final_of_error failed, failing failed]
    exact iff_of_true (Obeys.of_no_calls before) (.inl zero)
  have started := setData_of_nid model index zero
  cases pre : model._triggers_call obj .set_pre run with
  | error problem reached =>
      rw [failing (set_of_error (started.trans (seq_of_error pre)))]
      obtain ⟨obeys, meets⟩ := set_obeys_of_raised index zero before pre
      exact iff_of_true obeys meets
  | ok answer reached =>
      obtain ⟨obj2, stop⟩ := answer
      cases stop with
      | true => exact set_obeys_iff_of_stopped zero before pre
      | false =>
          cases code : model.setWrite obj2 index true reached with
          | error problem between =>
              rw [failing (set_of_error
                ((started.trans (seq_of_ok pre)).trans (seq_of_error code)))]
              obtain ⟨obeys, meets⟩ := set_obeys_of_unwritten zero before pre code
              exact iff_of_true obeys meets
          | ok value between => exact set_obeys_iff_of_written zero before pre code implied

end Set

section Operations

variable {model : Model σ} {world : World σ}

/-- The state an operation starts in. -/
abbrev start (world : World σ) : Run σ := ⟨world, []⟩

theorem obeysTriggers_iff (operation : Operation) :
    operation.ObeysTriggers model world ↔
      Obeys model._triggers.length operation.documented
        (hasReturned (operation.perform model (start world)))
        (relevant operation.documented
          (final (operation.perform model) (start world)).log) := Iff.rfl

/-! ## Set without the store -/

/-- The triggers of `set_post` are called and those of `set_pre` are not. -/
theorem not_obeys_of_post_alone {obj : Nat} {run : Run σ} {returned : Bool}
    (before : callsOf (relevant saving run.log) = []) :
    ¬ Obeys model._triggers.length saving returned
      (relevant saving (final (model._triggers_call obj .set_post) run).log) := by
  intro obeys
  obtain ⟨calls, round, logged⟩ := triggers_call_round model obj .set_post run
  have rounds := obeys.rounds
  rw [logged, relevant_append, round.relevant_calls (by simp), callsOf_append, before,
    callsOf_called, List.nil_append] at rounds
  have begun := rounds.first_started (triggers_pos model)
    (.inl (round.ne_nil (triggers_pos model)))
  rw [round.starts_eq (triggers_pos model)] at begun
  simp at begun

theorem callsOf_of_modifies {actions : List Action} {code : M σ α} (run : Run σ)
    (modifies : Modifies actions code) (before : callsOf (relevant actions run.log) = []) :
    callsOf (relevant actions (final code run).log) = [] := by
  obtain ⟨number, shown⟩ := modifies run
  rw [shown, callsOf_append, before, callsOf_modified]
  rfl

theorem setWrite_unstored {obj : Nat} {index : Bool} :
    model.setWrite obj index false = runIf (index = true) (model.setIndex obj false) := rfl

theorem set_unstored_obeys_iff {obj : Nat} {index : Bool} :
    (Operation.set obj index false).ObeysTriggers model world ↔
      (world.objects obj).nid = 0 ∨ index = true ∧
        ∃ problem reached, model.setIndex obj false (start world) = .error problem reached := by
  rw [obeysTriggers_iff, Operation.perform, Operation.documented, final_map, hasReturned_map]
  by_cases zero : (world.objects obj).nid = 0
  · have failed := set_of_error
      (setData_of_nid_zero model index false
        (show ((start world).world.objects obj).nid = 0 from zero))
    rw [failed, final_of_error failed]
    exact iff_of_true (Obeys.of_no_calls rfl) (.inl zero)
  have started := setData_unstored_of_nid model index
    (show ((start world).world.objects obj).nid ≠ 0 from zero)
  have silent := callsOf_of_modifies (start world)
    (Modifies.setWrite saving model obj index false) rfl
  cases code : model.setWrite obj index false (start world) with
  | error problem reached =>
      have failed := set_of_error (started.trans (seq_of_error code))
      rw [final_of_error code] at silent
      rw [failed, final_of_error failed]
      rw [setWrite_unstored, runIf_eq_error_iff] at code
      exact iff_of_true (Obeys.of_no_calls silent) (.inr ⟨code.1, problem, reached, code.2⟩)
  | ok value reached =>
      have done := set_of_data (started.trans (seq_of_ok code))
      have ends : final (model.set obj index false) (start world) =
          final (model._triggers_call obj .set_post) reached := by
        rw [final, done, ← final, final_map]
      rw [final_of_ok code] at silent
      rw [ends]
      apply iff_of_false (not_obeys_of_post_alone silent)
      rintro (same | ⟨indexed, problem, other, failed⟩)
      · exact zero same
      · rw [setWrite_unstored, runIf_eq_ok_iff] at code
        rcases code with ⟨_, passed⟩ | ⟨skipped, _⟩
        · cases passed.symm.trans failed
        · exact skipped indexed

/-! ## Save -/

theorem Modifies.prepare (actions : List Action) (model : Model σ) (self : Nat)
    (ignored : .new ∉ actions)
    (ignoredChange : .schema_change ∉ actions) (ignoredGet : .get ∉ actions) :
    Modifies actions (model.prepare self) := by
  apply Modifies.bind (Modifies.of_silent (Silent.lift _))
  intro _
  apply Modifies.bind (Modifies.of_silent (Silent.attr _ _))
  intro acl
  refine Modifies.bind (Modifies.runIf ?_) (fun _ => Modifies.of_silent ?_)
  · exact Modifies.bind (Modifies.of_silent (Silent.lift _))
      (fun _ => Modifies.runIf Modifies.note)
  · exact Silent.forM (fun property =>
      Silent.checkUnique model self property ignored ignoredChange ignoredGet)

/-- When `JSXObjectRoot.save` obeys. -/
def Model.SaveMeets (model : Model σ) (self : Nat) (run : Run σ) : Prop :=
  (run.world.objects self)._changed = true ∧
    ∀ after, lift (model.host.capnp_obj self) run = .ok PUnit.unit after →
      if after.world.nosave = true then
        ∀ obj reached, model._triggers_call self .set_pre after ≠ .ok (obj, false) reached
      else
        ∀ between, model.prepare self after = .ok PUnit.unit between →
          model.SetMeets self true between

/-- A model that does not save calls the triggers of `set_pre` alone. -/
theorem pre_alone_obeys_iff {self : Nat} {run : Run σ}
    (before : relevant saving run.log = []) :
    Obeys model._triggers.length saving
        (hasReturned (model._triggers_call self .set_pre run))
        (relevant saving (final (model._triggers_call self .set_pre) run).log) ↔
      ∀ obj reached, model._triggers_call self .set_pre run ≠ .ok (obj, false) reached := by
  obtain ⟨calls, round, logged⟩ := triggers_call_round model self .set_pre run
  rw [logged, relevant_append, round.relevant_calls (by simp), before, List.nil_append]
  have unmodified : (∃ call ∈ callsOf (calls.map Event.called), call.stops = true) →
      Event.modified ∉ calls.map Event.called := fun _ => modified_not_mem_called calls
  cases pre : model._triggers_call self .set_pre run with
  | error problem reached =>
      rw [pre] at round
      refine iff_of_true ⟨?_, unmodified⟩ (by simp)
      rw [callsOf_called]
      exact .raised round
  | ok answer reached =>
      obtain ⟨obj, stop⟩ := answer
      rw [pre] at round
      cases stop with
      | true =>
          refine iff_of_true ⟨?_, unmodified⟩ (by simp)
          rw [callsOf_called]
          exact .stopped round
      | false =>
          refine iff_of_false ?_ (fun none => none obj reached rfl)
          intro obeys
          have rounds := obeys.rounds
          rw [callsOf_called] at rounds
          have runs : ¬ ∃ call ∈ calls, call.stops = true := by
            rw [round.stops_iff]
            intro impossible
            cases impossible
          have post := rounds.started (triggers_pos model) runs .set_post (by simp)
          rw [round.starts_eq (triggers_pos model)] at post
          simp at post

/-- What follows `set` in a save shows nothing more. -/
theorem saveSet_obeys_iff {self : Nat} {run : Run σ}
    (before : callsOf (relevant saving run.log) = []) :
    Obeys model._triggers.length saving (hasReturned (model.saveSet self run))
        (relevant saving (final (model.saveSet self) run).log) ↔
      model.SetMeets self true run := by
  have silent : ∀ obj, Silent saving (do
      let id ← attr obj Obj.id
      attempt (Fallible.ensure (id.getD 0 ≠ 0) .assertionError)
      setattr self fun attrs => { attrs with id := id }
      return obj : M σ Nat) := fun obj =>
    Silent.bind (Silent.attr _ _) (fun id => Silent.bind (Silent.attempt _) (fun _ =>
      Silent.bind (Silent.setattr _ _) (fun _ => Silent.pure _)))
  cases code : model.set self true true run with
  | error problem reached =>
      have failed : model.saveSet self run = .error problem reached := seq_of_error code
      rw [failed, final_of_error failed, ← final_of_error code]
      exact set_obeys_iff before (fun impossible => by cases impossible)
  | ok obj reached =>
      have ends : relevant saving (final (model.saveSet self) run).log =
          relevant saving reached.log := by
        have continued : final (model.saveSet self) run = _ := final_seq_of_ok code
        rw [continued, (silent obj).final_eq]
      rw [ends, ← final_of_ok code]
      apply set_obeys_iff before
      intro _
      rw [code]
      rfl

theorem save_obeys_iff {self : Nat} :
    (Operation.save self).ObeysTriggers model world ↔
      model.SaveMeets self (start world) := by
  rw [obeysTriggers_iff, Operation.perform, Operation.documented, final_map, hasReturned_map]
  unfold Model.SaveMeets
  have branch : model.save self (start world) =
      (if (world.objects self)._changed = true then model.saveChanged self
        else pure self) (start world) := rfl
  cases changed : (world.objects self)._changed with
  | false =>
      rw [changed] at branch
      have kept : model.save self (start world) = .ok self (start world) := branch
      rw [kept, final_of_ok kept]
      apply iff_of_false
      · exact Obeys.not_of_missing (triggers_pos model) rfl
      · rintro ⟨impossible, _⟩
        cases impossible
  | true =>
      rw [changed, if_pos rfl] at branch
      rw [final, branch, ← final]
      simp only [true_and]
      cases code : lift (model.host.capnp_obj self) (start world) with
      | error problem reached =>
          have failed : model.saveChanged self (start world) = .error problem reached :=
            seq_of_error code
          rw [failed, final_of_error failed]
          apply iff_of_true
          · apply Obeys.of_no_calls
            rw [(Silent.lift _).of_error code]
            rfl
          · intro after done
            cases done
      | ok value after =>
          have shown : relevant saving after.log = [] := (Silent.lift _).of_ok code
          have continued : model.saveChanged self (start world) =
              (if after.world.nosave = true then
                model._triggers_call self .set_pre >>= fun answer => pure answer.1
              else model.prepare self >>= fun _ => model.saveSet self) after :=
            seq_of_ok code
          rw [final, continued, ← final]
          simp only [EStateM.Result.ok.injEq, true_and, forall_eq']
          cases unsaved : after.world.nosave with
          | true =>
              simp only [if_true]
              rw [final_map, hasReturned_map]
              exact pre_alone_obeys_iff shown
          | false =>
              simp only [Bool.false_eq_true, if_false]
              have silent := callsOf_of_modifies after
                (Modifies.prepare saving model self (by simp) (by simp) (by simp))
                (by rw [shown]; rfl)
              cases prepared : model.prepare self after with
              | error problem reached =>
                  have failed : (model.prepare self >>= fun _ => model.saveSet self) after =
                      .error problem reached := seq_of_error prepared
                  rw [final_of_error prepared] at silent
                  rw [failed, final_of_error failed]
                  exact iff_of_true (Obeys.of_no_calls silent) (fun _ done => by cases done)
              | ok value between =>
                  have set : (model.prepare self >>= fun _ => model.saveSet self) after =
                      model.saveSet self between := seq_of_ok prepared
                  rw [final_of_ok prepared] at silent
                  rw [final, set, ← final]
                  simp only [EStateM.Result.ok.injEq, true_and, forall_eq']
                  exact saveSet_obeys_iff silent

end Operations

end JumpscaleX.Triggers
