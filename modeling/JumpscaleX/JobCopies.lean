import JumpscaleX.JobCustody
import JumpscaleX.JobProgress

/-!
# Copies of a job

Processes, calls of `check_ready` and the database have copies of a job.  All
of them have its dependencies and its return queues, as long as no id is given
to a second job.
-/

namespace JumpscaleX

open Runs Stateful

/-- No id is given to a second job. -/
def Action.FreshIds (system : System) : Action → Prop
  | .create id _ => system.created id = none
  | _ => True

namespace System

/-- What the places of the processes show. -/
def view {α : Type} (system : System) (shown : Place → Option α) (processId : ProcessId) :
    Option α :=
  (system.processes processId).bind (fun process => shown process.place)

/-- The job that a process works on. -/
def working (system : System) : ProcessId → Option Job :=
  system.view Place.works

/-- The job whose result a process puts, with the queues that still lack it. -/
def posting (system : System) : ProcessId → Option (Job × List String) :=
  system.view Place.posts

/-- A copy of a job, somewhere in the system. -/
inductive Copy (system : System) (job : Job) : Prop where
  | stored : system.backend.jobs job.id = some job → Copy system job
  | working (processId : ProcessId) : system.working processId = some job → Copy system job
  | posting (processId : ProcessId) (queueNames : List String) :
      system.posting processId = some (job, queueNames) → Copy system job
  | loaded (call : Nat) : system.loaded call = some job → Copy system job

/-- All copies are copies of the job that `schedule` saved under their id. -/
structure Traced (system : System) : Prop extends Proper system where
  copied : ∀ job, system.Copy job →
    ∃ first, system.created job.id = some first ∧ job.Same first

variable {system : System}

theorem initial_traced (now : Nat) (workers : WorkerId → WorkerObj) :
    (initial now workers).Traced where
  toProper := initial_proper now workers
  copied := by
    rintro job (impossible | ⟨_, impossible⟩ | ⟨_, _, impossible⟩ | ⟨_, impossible⟩)
    all_goals cases impossible

/-! ### Steps of processes -/

section

variable {processId : ProcessId} {process : Process} {step : Process.Step}

theorem view_advance {α : Type} (shown : Place → Option α) (processId : ProcessId)
    (step : Process.Step) :
    (system.advance processId step).view shown =
      Function.update (system.view shown) processId
        (step.2.bind (fun process => shown process.place)) := by
  funext other
  by_cases same : other = processId
  · subst same
    simp [view, advance]
  · rw [Function.update_of_ne same]
    simp [view, advance, Function.update_of_ne same]

theorem working_advance :
    (system.advance processId step).working =
      Function.update system.working processId (Process.working step) :=
  view_advance Place.works processId step

theorem posting_advance :
    (system.advance processId step).posting =
      Function.update system.posting processId (Process.posting step) :=
  view_advance Place.posts processId step

theorem working_of_runs (runs : system.processes processId = some process) :
    system.working processId = process.place.works := by
  simp [working, view, runs]

theorem posting_of_runs (runs : system.processes processId = some process) :
    system.posting processId = process.place.posts := by
  simp [posting, view, runs]

theorem advance_jobs (unsaved : ∀ job, step.1 ≠ .saveJob job) :
    (system.advance processId step).backend.jobs = system.backend.jobs := by
  change (step.1.apply system.backend).jobs = system.backend.jobs
  cases operation : step.1 with
  | saveJob job => exact absurd operation (unsaved job)
  | get res => cases res <;> rfl
  | _ => rfl

/-- A process that stops to work on its job leaves the others their work. -/
theorem working_released (rests : Process.working step = none) {other : ProcessId}
    {job : Job} (works : (system.advance processId step).working other = some job) :
    other ≠ processId ∧ system.working other = some job := by
  rw [working_advance, rests] at works
  rcases Custody.update_eq_some works with ⟨_, impossible⟩ | elsewhere
  · cases impossible
  · exact elsewhere

/-- The stored jobs behind a save. -/
theorem stored_behind_save {saved job : Job} {id : JobId} (saves : step.1 = .saveJob saved)
    (found : (system.advance processId step).backend.jobs id = some job) :
    (id = saved.id ∧ job = saved) ∨ (id ≠ saved.id ∧ system.backend.jobs id = some job) := by
  change (step.1.apply system.backend).jobs id = some job at found
  rw [saves] at found
  rcases Custody.update_eq_some found with ⟨same, value⟩ | elsewhere
  · exact .inl ⟨same, (Option.some.inj value).symm⟩
  · exact .inr elsewhere

theorem mute_unsaved {operation : Operation} (mute : operation.Mute) (job : Job) :
    operation ≠ .saveJob job := by
  rintro rfl
  exact mute

theorem mute_unposted {operation : Operation} (mute : operation.Mute) (queueName : String)
    (message : ResultMessage) : operation ≠ .post queueName message := by
  rintro rfl
  exact mute

theorem executes_unsaved {operation : Operation} {executed : Job}
    (executes : operation.Executes executed) (job : Job) : operation ≠ .saveJob job := by
  rintro rfl
  exact executes

theorem executes_unposted {operation : Operation} {executed : Job}
    (executes : operation.Executes executed) (queueName : String)
    (message : ResultMessage) : operation ≠ .post queueName message := by
  rintro rfl
  exact executes

/-- The work behind a step that leaves the process its work, up to the copy. -/
theorem working_kept {after : Option Job} (works : Process.working step = after)
    (same : ∀ job, after = some job →
      ∃ old, system.working processId = some old ∧ job.Same old)
    {other : ProcessId} {job : Job}
    (worked : (system.advance processId step).working other = some job) :
    ∃ old, system.working other = some old ∧ job.Same old := by
  rw [working_advance, works] at worked
  rcases Custody.update_eq_some worked with ⟨rfl, value⟩ | ⟨_, worked⟩
  · exact same job value
  · exact ⟨job, worked, .refl job⟩

/-- A step makes its copies from others. -/
theorem next_copy {job : Job} (evaluation : Evaluation) (proper : system.Proper)
    (runs : system.processes processId = some process)
    (copy : (system.advance processId (system.next process evaluation)).Copy job) :
    ∃ old, system.Copy old ∧ job.Same old := by
  have progress : Process.Progress system.backend process
      (system.next process evaluation).1 (Process.working (system.next process evaluation))
      (Process.posting (system.next process evaluation)) :=
    Process.step_progress (proper.sound processId process runs)
  have working := working_of_runs runs
  have posting := posting_of_runs runs
  cases copy with
  | stored found =>
      by_cases saves : ∃ saved, (system.next process evaluation).1 = .saveJob saved
      · obtain ⟨saved, saves⟩ := saves
        rcases stored_behind_save saves found with ⟨_, rfl⟩ | ⟨_, found⟩
        · obtain ⟨old, works, same⟩ := progress.saved saves
          exact ⟨old, .working processId (working.trans works), same⟩
        · exact ⟨job, .stored found, .refl job⟩
      · rw [advance_jobs (fun saved same => saves ⟨saved, same⟩)] at found
        exact ⟨job, .stored found, .refl job⟩
  | working worker works =>
      rw [working_advance] at works
      rcases Custody.update_eq_some works with ⟨_, behind⟩ | ⟨_, works⟩
      · rcases progress.working behind with ⟨old, before, same⟩ | ⟨id, stored, found, same⟩
        · exact ⟨old, .working processId (working.trans before), same⟩
        · have keyed := proper.keyed id stored found
          exact ⟨stored, .stored (keyed.symm ▸ found), same⟩
      · exact ⟨job, .working worker works, .refl job⟩
  | posting worker queueNames posts =>
      rw [posting_advance] at posts
      rcases Custody.update_eq_some posts with ⟨_, behind⟩ | ⟨_, posts⟩
      · rcases progress.posting behind with ⟨works, _⟩ | ⟨names, before, _⟩
        · exact ⟨job, .working processId (working.trans works), .refl job⟩
        · exact ⟨job, .posting processId names (posting.trans before), .refl job⟩
      · exact ⟨job, .posting worker queueNames posts, .refl job⟩
  | loaded call value => exact ⟨job, .loaded call value, .refl job⟩

end

/-! ### Actions other than the steps of processes -/

theorem view_launch {α : Type} (shown : Place → Option α) (processId : ProcessId)
    (workerId : WorkerId) (onetime : Bool) (pid : Nat) (unseen : shown .starting = none) :
    (system.launch processId workerId onetime pid).view shown = system.view shown := by
  unfold launch
  split
  · rfl
  · rename_i idle
    funext other
    by_cases same : other = processId
    · subst same
      simp [view, idle, unseen]
    · simp [view, Function.update_of_ne same]

theorem working_launch (processId : ProcessId) (workerId : WorkerId) (onetime : Bool)
    (pid : Nat) : (system.launch processId workerId onetime pid).working = system.working :=
  view_launch Place.works processId workerId onetime pid rfl

theorem posting_launch (processId : ProcessId) (workerId : WorkerId) (onetime : Bool)
    (pid : Nat) : (system.launch processId workerId onetime pid).posting = system.posting :=
  view_launch Place.posts processId workerId onetime pid rfl

/-- What a call of `check_ready` saves is a copy of what it loaded. -/
theorem checked_copy {call : Nat} {die : Bool} {saved : Job}
    (saves : system.checked call die = some saved) :
    ∃ job, system.loaded call = some job ∧ saved.Same job ∧ saved.state = job.state ∧
      saved.result = job.result := by
  obtain ⟨job, found, saves⟩ := Option.bind_eq_some_iff.mp saves
  obtain ⟨errorCat, rfl⟩ := MyJob.checkReady_saved saves
  exact ⟨job, found, .refl _, rfl, rfl⟩

theorem check_same {call : Nat} {die : Bool} (unsaved : system.checked call die = none) :
    system.check call die =
      { system with loaded := Function.update system.loaded call none } := by
  rw [check, unsaved]

theorem check_saves {call : Nat} {die : Bool} {saved : Job}
    (saves : system.checked call die = some saved) :
    system.check call die =
      { system with
        backend := system.backend.setJob saved
        loaded := Function.update system.loaded call none } := by
  rw [check, saves]

/-- A deleted job is no longer stored; all else stays. -/
theorem deleted_jobs {id other : JobId} {job : Job}
    (found : (system.delete id).backend.jobs other = some job) :
    system.backend.jobs other = some job := by
  rcases Custody.update_eq_some found with ⟨_, impossible⟩ | ⟨_, found⟩
  · cases impossible
  · exact found

/-! ### All actions -/

/-- An action makes its copies from others, or from what `schedule` is given. -/
theorem step_copy {action : Action} {job : Job} (proper : system.Proper)
    (copy : (system.step action).Copy job) :
    (∃ old, system.Copy old ∧ job.Same old) ∨
      ∃ id request, action = .create id request ∧
        (id ≠ 0 ∧ system.backend.jobs id = none) ∧
        job = request.job id system.backend.now := by
  have untouched {job : Job} (copy : system.Copy job) : ∃ old, system.Copy old ∧ job.Same old :=
    ⟨job, copy, .refl job⟩
  cases action with
  | work processId evaluation =>
      change (system.work processId evaluation).Copy job at copy
      unfold work at copy
      split at copy
      · exact .inl (untouched copy)
      · rename_i process runs
        exact .inl (next_copy evaluation proper runs copy)
  | launch processId workerId onetime pid =>
      have kept : (system.launch processId workerId onetime pid).backend = system.backend ∧
          (system.launch processId workerId onetime pid).loaded = system.loaded := by
        unfold launch
        split <;> exact ⟨rfl, rfl⟩
      obtain ⟨backend, loaded⟩ := kept
      left
      apply untouched
      cases copy with
      | stored found => exact .stored (backend ▸ found)
      | working worker works => exact .working worker (working_launch _ _ _ _ ▸ works)
      | posting worker queueNames posts =>
          exact .posting worker queueNames (posting_launch _ _ _ _ ▸ posts)
      | loaded call value => exact .loaded call (loaded ▸ value)
  | create id request =>
      by_cases given : id ≠ 0 ∧ system.backend.jobs id = none
      · have same : system.step (.create id request) = _ := if_pos given
        rw [same] at copy
        rcases copy with found | ⟨worker, works⟩ | ⟨worker, names, posts⟩ | ⟨call, value⟩
        · rcases Custody.update_eq_some found with ⟨_, value⟩ | ⟨_, found⟩
          · exact .inr ⟨id, request, rfl, given, (Option.some.inj value).symm⟩
          · exact .inl (untouched (.stored found))
        · exact .inl (untouched (.working worker works))
        · exact .inl (untouched (.posting worker names posts))
        · exact .inl (untouched (.loaded call value))
      · have same : system.step (.create id request) = system := if_neg given
        rw [same] at copy
        exact .inl (untouched copy)
  | put id =>
      by_cases member : id ∈ system.scheduling
      · have same : system.step (.put id) = _ := if_pos member
        rw [same] at copy
        rcases copy with found | ⟨worker, works⟩ | ⟨worker, names, posts⟩ | ⟨call, value⟩
        · exact .inl (untouched (.stored found))
        · exact .inl (untouched (.working worker works))
        · exact .inl (untouched (.posting worker names posts))
        · exact .inl (untouched (.loaded call value))
      · have same : system.step (.put id) = system := if_neg member
        rw [same] at copy
        exact .inl (untouched copy)
  | delete id =>
      rcases copy with found | ⟨worker, works⟩ | ⟨worker, names, posts⟩ | ⟨call, value⟩
      · exact .inl (untouched (.stored (deleted_jobs found)))
      · exact .inl (untouched (.working worker works))
      · exact .inl (untouched (.posting worker names posts))
      · exact .inl (untouched (.loaded call value))
  | load call id =>
      change (system.load call id).Copy job at copy
      unfold load at copy
      split at copy
      · exact .inl (untouched copy)
      · rename_i stored present
        have keyed := proper.keyed id stored present
        rcases copy with found | ⟨worker, works⟩ | ⟨worker, names, posts⟩ | ⟨other, value⟩
        · exact .inl (untouched (.stored found))
        · exact .inl (untouched (.working worker works))
        · exact .inl (untouched (.posting worker names posts))
        · rcases Custody.update_eq_some value with ⟨_, value⟩ | ⟨_, value⟩
          · cases value
            exact .inl (untouched (.stored (keyed.symm ▸ present)))
          · exact .inl (untouched (.loaded other value))
  | check call die =>
      rcases copy with found | ⟨worker, works⟩ | ⟨worker, names, posts⟩ | ⟨other, value⟩
      · cases saves : system.checked call die with
        | none =>
            rw [System.step, check_same saves] at found
            exact .inl (untouched (.stored found))
        | some saved =>
            rw [System.step, check_saves saves] at found
            rcases Custody.update_eq_some found with ⟨_, value⟩ | ⟨_, found⟩
            · cases value
              obtain ⟨old, value, same, _⟩ := checked_copy saves
              exact .inl ⟨old, .loaded call value, same⟩
            · exact .inl (untouched (.stored found))
      · exact .inl (untouched (.working worker works))
      · exact .inl (untouched (.posting worker names posts))
      · rcases Custody.update_eq_some value with ⟨_, impossible⟩ | ⟨_, value⟩
        · cases impossible
        · exact .inl (untouched (.loaded other value))
  | start id | halt | stopWorker workerId worker | renewWorker workerId worker | tick =>
      rcases copy with found | ⟨worker, works⟩ | ⟨worker, names, posts⟩ | ⟨call, value⟩
      · exact .inl (untouched (.stored found))
      · exact .inl (untouched (.working worker works))
      · exact .inl (untouched (.posting worker names posts))
      · exact .inl (untouched (.loaded call value))

/-- What is created stays created. -/
theorem created_step {action : Action} (fits : action.FreshIds system) {id : JobId}
    {first : Job} (known : system.created id = some first) :
    (system.step action).created id = some first := by
  cases action with
  | work processId evaluation =>
      change (system.work processId evaluation).created id = some first
      unfold work
      split <;> exact known
  | launch processId workerId onetime pid =>
      change (system.launch processId workerId onetime pid).created id = some first
      unfold launch
      split <;> exact known
  | create other request =>
      change (system.create other request).created id = some first
      unfold create
      split
      · rw [← known]
        apply Function.update_of_ne
        rintro rfl
        have unknown : system.created id = none := fits
        rw [unknown] at known
        cases known
      · exact known
  | put other =>
      change (system.put other).created id = some first
      unfold put
      split <;> exact known
  | load call other =>
      change (system.load call other).created id = some first
      unfold load
      split <;> exact known
  | _ => exact known

/-- Only the steps of processes are logged. -/
theorem step_log {action : Action}
    (unworked : ∀ processId evaluation, action ≠ .work processId evaluation) :
    (system.step action).log = system.log := by
  cases action with
  | work processId evaluation => exact absurd rfl (unworked processId evaluation)
  | launch processId workerId onetime pid =>
      change (system.launch processId workerId onetime pid).log = _
      unfold launch
      split <;> rfl
  | create id request =>
      change (system.create id request).log = _
      unfold create
      split <;> rfl
  | put id =>
      change (system.put id).log = _
      unfold put
      split <;> rfl
  | load call id =>
      change (system.load call id).log = _
      unfold load
      split <;> rfl
  | _ => rfl

/-- What a step adds to the log. -/
theorem mem_log_step {action : Action} {entry : ProcessId × Operation}
    (member : entry ∈ (system.step action).log) :
    entry ∈ system.log ∨
      ∃ processId evaluation process, action = .work processId evaluation ∧
        system.processes processId = some process ∧
        entry = (processId, (system.next process evaluation).1) := by
  by_cases works : ∃ processId evaluation, action = .work processId evaluation
  · obtain ⟨processId, evaluation, rfl⟩ := works
    change entry ∈ (system.work processId evaluation).log at member
    unfold work at member
    split at member
    · exact .inl member
    · rename_i process runs
      rcases List.mem_cons.mp member with same | member
      · exact .inr ⟨processId, evaluation, process, rfl, runs, same⟩
      · exact .inl member
  · rw [step_log (fun processId evaluation same =>
      works ⟨processId, evaluation, same⟩)] at member
    exact .inl member

theorem step_traced (traced : system.Traced) {action : Action}
    (fits : action.FreshIds system) : (system.step action).Traced where
  toProper := step_proper traced.toProper action
  copied := by
    intro job copy
    rcases step_copy traced.toProper copy with
      ⟨old, before, same⟩ | ⟨id, request, rfl, given, rfl⟩
    · obtain ⟨first, known, alike⟩ := traced.copied old before
      exact ⟨first, created_step fits (same.1 ▸ known), same.trans alike⟩
    · refine ⟨request.job id system.backend.now, ?_, .refl _⟩
      have created : system.step (.create id request) = _ := if_pos given
      rw [created]
      exact Function.update_self ..

end System

end JumpscaleX
