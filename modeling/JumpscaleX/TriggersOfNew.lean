import JumpscaleX.TriggersOfSet

/-!
# The triggers of a get and of a new object

A `get` has its round when it finds an object.  Making an object out of data
has the round of `Schema.new`, and for serialised data that of the
deserialiser, before `new` begins its own.
-/

namespace JumpscaleX.Triggers

open Stateful

variable {σ α β : Type}

section Operations

variable {model : Model σ} {world : World σ}

/-! ## Get -/

section Get

variable {obj_id : Nat} {die : Bool}

theorem get_of_zero (run : Run σ) :
    model.get 0 die run = .error (.base "id cannot be None or 0") run := by
  have refused : Fallible.ensure ((0 : Nat) ≠ 0) (Exn.base "id cannot be None or 0") =
      .error (.base "id cannot be None or 0") := Fallible.ensure_of_not (by simp)
  exact attempt_seq_of_error refused

/-- The part of `get` behind the store, for data that was found. -/
theorem get_found_obeys {run : Run σ} {data : List Nat}
    (before : relevant [.get] run.log = []) {code : M σ (Option Nat)}
    (continues : code run =
      (model._unserialize obj_id data >>= fun obj =>
        lift (model.host.has_schema obj) >>= fun same =>
          attempt (Fallible.ensure (same = true)
            (.jsBug "no object with id found, different schema url.")) >>= fun _ =>
              model._triggers_call obj .get >>= fun answer => pure (some answer.1)) run) :
    Obeys model._triggers.length [.get] (hasReturned (code run))
      (relevant [.get] (final code run).log) := by
  rw [final, continues, ← final]
  cases read : model._unserialize obj_id data run with
  | error problem reached =>
      rw [seq_of_error read, final_seq_of_error read]
      apply Obeys.of_no_calls
      rw [(Silent.unserialize model obj_id data (by simp) (by simp)).of_error read, before]
      rfl
  | ok obj between =>
      have shown : relevant [.get] between.log = [] :=
        ((Silent.unserialize model obj_id data (by simp) (by simp)).of_ok read).trans before
      rw [seq_of_ok read, final_seq_of_ok read]
      cases compared : lift (model.host.has_schema obj) between with
      | error problem reached =>
          rw [seq_of_error compared, final_seq_of_error compared]
          apply Obeys.of_no_calls
          rw [(Silent.lift _).of_error compared, shown]
          rfl
      | ok same after =>
          have still : relevant [.get] after.log = [] :=
            ((Silent.lift _).of_ok compared).trans shown
          rw [seq_of_ok compared, final_seq_of_ok compared]
          cases same with
          | false =>
              have refused : (attempt (Fallible.ensure (false = true)
                  (.jsBug "no object with id found, different schema url.")) :
                    M σ PUnit) after =
                  .error (.jsBug "no object with id found, different schema url.") after :=
                rfl
              rw [seq_of_error refused, final_seq_of_error refused]
              apply Obeys.of_no_calls
              rw [still]
              rfl
          | true =>
              have passed : (attempt (Fallible.ensure (true = true)
                  (.jsBug "no object with id found, different schema url.")) :
                    M σ PUnit) after = .ok PUnit.unit after := rfl
              obtain ⟨calls, round, logged⟩ := triggers_call_round model obj .get after
              rw [seq_of_ok passed, final_seq_of_ok passed, final_map, hasReturned_map,
                logged, relevant_append, round.relevant_calls (by simp), still]
              apply Obeys.of_round_alone round rfl
              intro returned raised
              rw [endingOf_eq_raised_iff.mp raised] at returned
              cases returned

/-- Only a `get` that does not die on an unknown id leaves its triggers out. -/
theorem get_obeys_iff :
    (Operation.get obj_id die).ObeysTriggers model world ↔
      die = true ∨ obj_id = 0 ∨
        ∀ reached, model.host.stor_get obj_id world ≠ .ok none reached := by
  rw [obeysTriggers_iff, Operation.perform, Operation.documented, final_map, hasReturned_map]
  by_cases zero : obj_id = 0
  · subst zero
    rw [get_of_zero, final_of_error (get_of_zero _)]
    exact iff_of_true (Obeys.of_no_calls rfl) (.inr (.inl rfl))
  have passed : Fallible.ensure (obj_id ≠ 0) (Exn.base "id cannot be None or 0") =
      .ok PUnit.unit := Fallible.ensure_of zero
  have started : model.get obj_id die (start world) =
      (lift (model.host.stor_get obj_id) >>= fun _ => _) (start world) :=
    attempt_seq_of_ok passed
  cases code : model.host.stor_get obj_id world with
  | error problem reached =>
      have failed : lift (model.host.stor_get obj_id) (start world) =
          .error problem ⟨reached, []⟩ := by
        rw [lift, onPart_eq_error_iff]
        exact ⟨reached, code, rfl⟩
      rw [started, final, started, ← final, seq_of_error failed, final_seq_of_error failed]
      exact iff_of_true (Obeys.of_no_calls rfl) (.inr (.inr (by simp)))
  | ok data reached =>
      have read : lift (model.host.stor_get obj_id) (start world) =
          .ok data ⟨reached, []⟩ := by
        rw [lift, onPart_eq_ok_iff]
        exact ⟨reached, code, rfl⟩
      rw [seq_of_ok read] at started
      cases data with
      | some data =>
          refine iff_of_true ?_ (.inr (.inr (by simp)))
          rw [started, final, started, ← final]
          exact get_found_obeys rfl rfl
      | none =>
          rw [started, final, started, ← final]
          cases die with
          | true => exact iff_of_true (Obeys.of_no_calls rfl) (.inl rfl)
          | false =>
              apply iff_of_false
              · exact Obeys.not_of_missing (triggers_pos model) rfl
              · simp [zero]

end Get

/-! ## New -/

section New

variable {obj nid : Nat} {run : Run σ}

/-- The first object that `new` makes out of data, with its triggers. -/
def Model.firstObject (model : Model σ) : Model.Given → M σ Nat
  | .nothing => lift (model.host.objclass .nothing)
  | .value (.dict items) => model.schema_new (.datadict (.dict items))
  | .value _ => throw (.base "need dict")
  | .bytes raw =>
      match model.host.json_loads raw with
      | some data => model.schema_new (.datadict data)
      | none => model.loadsObject raw >>= fun answer => pure answer.1
  | .obj ref => do
      let data ← lift (model.host.ddict ref)
      model.schema_new (.datadict data)

/-- The rounds of `new` that a log shows to have begun. -/
def begun (run : Run σ) : Nat :=
  starts .new (callsOf (relevant [.new] run.log))

theorem Silent.begun_eq {code : M σ α} (silent : Silent [.new] code) (run : Run σ) :
    begun (final code run) = begun run := by
  rw [begun, silent.final_eq, begun]

theorem triggers_call_begun (model : Model σ) (obj : Nat) (run : Run σ) :
    begun (final (model._triggers_call obj .new) run) = begun run + 1 := by
  obtain ⟨calls, round, logged⟩ := triggers_call_round model obj .new run
  rw [begun, logged, relevant_append, round.relevant_calls (by simp), callsOf_append,
    callsOf_called, starts_append, round.starts_eq (triggers_pos model), if_pos rfl, begun]

/-- Code that begins one round unless it raises, and then obeys so far. -/
def Model.BeginsOnce (model : Model σ) (code : M σ α) : Prop :=
  ∀ run, relevant [.new] run.log = [] →
    (∀ problem reached, code run = .error problem reached →
      Obeys model._triggers.length [.new] false (relevant [.new] reached.log)) ∧
    ∀ value reached, code run = .ok value reached → begun reached = 1

theorem Model.BeginsOnce.after_silent {first : M σ α} {next : α → M σ β}
    (silent : Silent [.new] first) (begins : ∀ value, model.BeginsOnce (next value)) :
    model.BeginsOnce (first >>= next) := by
  intro run before
  cases code : first run with
  | error problem reached =>
      rw [seq_of_error code]
      constructor
      · rintro _ _ ⟨⟩
        apply Obeys.of_no_calls
        rw [silent.of_error code, before]
        rfl
      · intro value other done
        cases done
  | ok value between =>
      rw [seq_of_ok code]
      exact begins value between ((silent.of_ok code).trans before)

theorem Model.BeginsOnce.then_silent {first : M σ α} {next : α → M σ β}
    (begins : model.BeginsOnce first)
    (returns : ∀ value run, ∃ result, next value run = .ok result run) :
    model.BeginsOnce (first >>= next) := by
  intro run before
  obtain ⟨raising, returning⟩ := begins run before
  constructor
  · intro problem reached failed
    rcases seq_eq_error_iff.mp failed with failed | ⟨value, between, _, failed⟩
    · exact raising problem reached failed
    · obtain ⟨result, done⟩ := returns value between
      cases done.symm.trans failed
  · intro result reached done
    obtain ⟨value, between, first, later⟩ := seq_eq_ok_iff.mp done
    obtain ⟨other, same⟩ := returns value between
    cases same.symm.trans later
    exact returning value _ first

theorem Model.BeginsOnce.triggers_call : model.BeginsOnce (model._triggers_call obj .new) := by
  intro run before
  constructor
  · intro problem reached failed
    obtain ⟨calls, round, logged⟩ := triggers_call_round model obj .new run
    rw [final_of_error failed] at logged
    rw [logged, relevant_append, round.relevant_calls (by simp), before]
    exact Obeys.of_round_alone round rfl (by simp)
  · intro value reached done
    have counted := triggers_call_begun model obj run
    rw [final_of_ok done, begun, begun, before] at counted
    exact counted

theorem Model.BeginsOnce.schema_new (source : Source) :
    model.BeginsOnce (model.schema_new source) := by
  apply after_silent (Silent.lift _)
  intro obj
  exact then_silent triggers_call (fun _ run => ⟨obj, rfl⟩)

theorem Model.BeginsOnce.throw (problem : Exn) :
    model.BeginsOnce (MonadExcept.throw problem : M σ α) := by
  intro run before
  constructor
  · intro other reached failed
    rw [throw_eq_error_iff] at failed
    rw [← failed.2, before]
    exact Obeys.of_no_calls rfl
  · intro value reached done
    exact (throw_ne_ok done).elim

theorem Model.BeginsOnce.firstObject (model : Model σ) {source : Model.Given}
    (data : source ≠ .nothing) :
    model.BeginsOnce (model.firstObject source) := by
  cases source with
  | nothing => exact (data rfl).elim
  | value value => 
      cases value with
      | dict items => exact schema_new _
      | _ => exact throw _
  | bytes raw =>
      simp only [Model.firstObject]
      cases model.host.json_loads raw with
      | some value => exact schema_new _
      | none =>
          refine then_silent ?_ (fun answer run => ⟨answer.1, rfl⟩)
          apply after_silent (Silent.attempt _)
          intro _
          apply after_silent (Silent.lift _)
          intro found
          exact then_silent (schema_new _) (fun obj run => ⟨(obj, found), rfl⟩)
  | obj ref =>
      apply after_silent (Silent.lift _)
      intro value
      exact schema_new _

/-- What `new` does to the object before its triggers. -/
def Model.adopted (model : Model σ) (obj nid : Nat) : M σ PUnit :=
  modify (fun run => { run with world := model.host.methods_add obj run.world }) >>= fun _ =>
    setattr obj fun attrs => { attrs with nid := nid }

theorem Silent.adopted {actions : List Action} : Silent actions (model.adopted obj nid) :=
  Silent.bind (Silent.change (fun _ => rfl)) (fun _ => Silent.setattr _ _)

theorem newRest_eq :
    model.newRest obj nid run =
      (model._triggers_call obj .new >>= fun answer => pure answer.1)
        (final (model.adopted obj nid) run) := rfl

theorem newRest_begun : begun (final (model.newRest obj nid) run) = begun run + 1 := by
  rw [final, newRest_eq, ← final, final_map, triggers_call_begun, Silent.adopted.begun_eq]

theorem newRest_obeys (before : relevant [.new] run.log = []) :
    Obeys model._triggers.length [.new] (hasReturned (model.newRest obj nid run))
      (relevant [.new] (final (model.newRest obj nid) run).log) := by
  rw [final, newRest_eq, ← final, final_map, hasReturned_map]
  obtain ⟨calls, round, logged⟩ :=
    triggers_call_round model obj .new (final (model.adopted obj nid) run)
  rw [logged, relevant_append, round.relevant_calls (by simp), Silent.adopted.final_eq, before]
  apply Obeys.of_round_alone round rfl
  intro returned raised
  rw [endingOf_eq_raised_iff.mp raised] at returned
  cases returned

theorem begun_then_silent {first : M σ α} {next : α → M σ β}
    (silent : ∀ value, Silent [.new] (next value)) :
    begun (final (first >>= next) run) = begun (final first run) := by
  cases code : first run with
  | error problem reached => rw [final_seq_of_error code, final_of_error code]
  | ok value between =>
      rw [final_seq_of_ok code, final_of_ok code, (silent value).begun_eq]

/-- What `loadsRest` does behind its own round. -/
def Model.outdatedChange (model : Model σ) (obj : Nat) (found : Found) : M σ Nat :=
  if found.outdated then
    model._triggers_call obj .schema_change >>= fun _ =>
      lift model.host.schema_change >>= fun _ => pure obj
  else pure obj

theorem Silent.outdatedChange {found : Found} :
    Silent [.new] (model.outdatedChange obj found) := by
  unfold Model.outdatedChange
  split
  · apply Silent.bind (Silent.triggers_call model obj (by simp))
    intro _
    exact Silent.bind (Silent.lift _) (fun _ => Silent.pure _)
  · exact Silent.pure _

/-- Serialised data of the model's own url begins a second round. -/
theorem loadsRest_begun {raw : List Nat} {found : Found} :
    (∀ problem reached, model.loadsRest raw obj found run = .error problem reached →
      begun run + 1 ≤ begun reached) ∧
    ∀ value reached, model.loadsRest raw obj found run = .ok value reached →
      begun run ≤ begun reached := by
  let set : M σ PUnit := setattr obj fun attrs =>
    { attrs with
      id := if Model.int_from_bytes ((raw.drop 1).take 4) = 0 then none
        else some (Model.int_from_bytes ((raw.drop 1).take 4)) }
  have begins : model.loadsRest raw obj found run =
      (if found.sameUrl = true then
        model._triggers_call obj .new >>= fun _ => model.outdatedChange obj found
      else pure obj) (final set run) := rfl
  have silent : Silent [.new] set := Silent.setattr _ _
  have same : begun (final set run) = begun run := silent.begun_eq run
  cases url : found.sameUrl with
  | false =>
      rw [url] at begins
      have done : model.loadsRest raw obj found run = .ok obj (final set run) := begins
      constructor
      · intro problem reached failed
        cases done.symm.trans failed
      · intro value reached returned
        cases done.symm.trans returned
        exact same.ge
  | true =>
      rw [url, if_pos rfl] at begins
      have counted : begun (final (model.loadsRest raw obj found) run) = begun run + 1 := by
        rw [final, begins, ← final, begun_then_silent (fun _ => Silent.outdatedChange),
          triggers_call_begun, same]
      constructor
      · intro problem reached failed
        rw [final_of_error failed] at counted
        exact counted.ge
      · intro value reached returned
        rw [final_of_ok returned] at counted
        omega

theorem create_of_error {source : Model.Given} (data : source ≠ .nothing) {problem : Exn}
    {reached : Run σ} (failed : model.firstObject source run = .error problem reached) :
    ∃ other, model.create source run = .error other reached := by
  cases source with
  | nothing => exact (data rfl).elim
  | value value => cases value <;> exact ⟨problem, failed⟩
  | obj ref => exact ⟨problem, failed⟩
  | bytes raw =>
      simp only [Model.firstObject] at failed
      simp only [Model.create]
      cases parsed : model.host.json_loads raw with
      | some value =>
          simp only [parsed] at failed
          simp only [failed]
          have refused : Fallible.ensure (raw.head? = some 3)
              (Exn.base "version wrong, versionnr found: (needs to be 1 or 10)") =
                .error (.base "version wrong, versionnr found: (needs to be 1 or 10)") :=
            Fallible.ensure_of_not (model.host.json_version raw value parsed)
          have unread : model.loadsObject raw reached =
              .error (.base "version wrong, versionnr found: (needs to be 1 or 10)") reached :=
            attempt_seq_of_error refused
          exact ⟨_, seq_of_error unread⟩
      | none =>
          simp only [parsed] at failed
          rcases seq_eq_error_iff.mp failed with failed | ⟨_, _, _, impossible⟩
          · exact ⟨problem, seq_of_error failed⟩
          · cases impossible

/-- Behind a first object, `new` begins a second round. -/
theorem new_begun (nid : Nat) {source : Model.Given} (data : source ≠ .nothing) {between : Run σ}
    (done : model.firstObject source run = .ok obj between) :
    begun between + 1 ≤
      begun (final (model.create source >>= fun obj => model.newRest obj nid) run) := by
  have directly : model.create source run = .ok obj between →
      begun between + 1 ≤
        begun (final (model.create source >>= fun obj => model.newRest obj nid) run) := by
    intro created
    rw [final_seq_of_ok created, newRest_begun]
  cases source with
  | nothing => exact (data rfl).elim
  | value value => cases value <;> exact directly done
  | obj ref => exact directly done
  | bytes raw =>
      simp only [Model.firstObject] at done
      cases parsed : model.host.json_loads raw with
      | some value =>
          simp only [parsed] at done
          apply directly
          simp only [Model.create, parsed, done]
      | none =>
          simp only [parsed] at done
          obtain ⟨answer, other, loaded, returned⟩ := seq_eq_ok_iff.mp done
          rw [return_eq_ok_iff] at returned
          obtain ⟨sameObj, sameRun⟩ := returned
          have created : model.create (.bytes raw) run =
              model.loadsRest raw answer.1 answer.2 other := by
            simp only [Model.create, parsed]
            exact seq_of_ok loaded
          rw [← sameRun]
          cases code : model.loadsRest raw answer.1 answer.2 other with
          | error problem reached =>
              rw [final_seq_of_error (created.trans code)]
              exact loadsRest_begun.1 problem reached code
          | ok value reached =>
              rw [final_seq_of_ok (created.trans code), newRest_begun]
              exact Nat.succ_le_succ (loadsRest_begun.2 value reached code)

theorem new_obeys_iff {data : Model.Data} {kwargs : List (String × PyVal)} :
    (Operation.new data nid kwargs).ObeysTriggers model world ↔
      ∀ source, Model.given model.host data kwargs = .ok source →
        source = .nothing ∨
          ∃ problem reached, model.firstObject source (start world) = .error problem reached := by
  rw [obeysTriggers_iff, Operation.perform, Operation.documented, final_map, hasReturned_map]
  cases given : Model.given model.host data kwargs with
  | error problem =>
      have failed : model.new data nid kwargs (start world) = .error problem (start world) :=
        attempt_seq_of_error given
      rw [failed, final_of_error failed]
      apply iff_of_true (Obeys.of_no_calls rfl)
      intro source done
      cases done
  | ok source => 
      have continued : model.new data nid kwargs (start world) =
          (model.create source >>= fun obj => model.newRest obj nid) (start world) :=
        attempt_seq_of_ok given
      simp only [Except.ok.injEq, forall_eq']
      rw [final, continued, ← final]
      by_cases nothing : source = .nothing
      · subst nothing
        refine iff_of_true ?_ (.inl rfl)
        cases created : model.create .nothing (start world) with
        | error problem reached =>
            rw [seq_of_error created, final_seq_of_error created]
            apply Obeys.of_no_calls
            rw [(Silent.lift _).of_error created]
            rfl
        | ok obj reached =>
            rw [seq_of_ok created, final_seq_of_ok created]
            exact newRest_obeys ((Silent.lift _).of_ok created)
      · obtain ⟨raising, returning⟩ :=
          Model.BeginsOnce.firstObject model nothing (start world) rfl
        cases first : model.firstObject source (start world) with
        | error problem reached =>
            obtain ⟨other, created⟩ := create_of_error nothing first
            rw [seq_of_error created, final_seq_of_error created]
            exact iff_of_true (raising problem reached first)
              (.inr ⟨problem, reached, rfl⟩)
        | ok obj between =>
            apply iff_of_false
            · apply Obeys.not_of_twice .new (triggers_pos model) (by simp)
              have twice := new_begun nid nothing first
              rw [returning obj between first] at twice
              exact twice
            · simp [nothing]

end New

end Operations

end JumpscaleX.Triggers
