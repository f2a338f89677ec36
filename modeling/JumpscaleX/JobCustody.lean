import JumpscaleX.JobPlaces

/-!
# Custody of the jobs

The start queue, the processes and the pending calls of `schedule` as holders
of ids.  As long as `schedule` gets ids that are nowhere and no job is started
again, an id is in one place.
-/

namespace JumpscaleX

open Runs Stateful

namespace System

variable {system : System} {processId : ProcessId} {process : Process}
  {evaluation : Evaluation}

/-- What a process holds, and what a call of `schedule` is about to put. -/
def held (system : System) : ProcessId ⊕ JobId → Option JobId
  | .inl processId => (system.processes processId).bind (fun process => process.place.holds)
  | .inr id => if id ∈ system.scheduling then some id else none

def custody (system : System) : Custody JobId (ProcessId ⊕ JobId) where
  queue := system.backend.queueJobsStart.filterMap Token.id?
  held := system.held

/-- The id is in the start queue. -/
def Queued (system : System) (id : JobId) : Prop :=
  .job id ∈ system.backend.queueJobsStart

/-- The process holds the id in the iteration that it executes. -/
def Holds (system : System) (processId : ProcessId) (id : JobId) : Prop :=
  system.held (.inl processId) = some id

/-- What holds of every run: processes are at sound places, and jobs are stored
under their ids. -/
structure Proper (system : System) : Prop where
  sound : ∀ processId process, system.processes processId = some process →
    process.place.Sound
  keyed : ∀ id job, system.backend.jobs id = some job → job.id = id

@[simp] theorem queue_custody (id : JobId) :
    id ∈ system.custody.queue ↔ system.Queued id := by
  constructor
  · intro member
    obtain ⟨token, waits, same⟩ := List.mem_filterMap.mp member
    cases token with
    | job other =>
        cases same
        exact waits
    | halt => cases same
  · intro waits
    exact List.mem_filterMap.mpr ⟨.job id, waits, rfl⟩

theorem held_draft {id other : JobId} (found : system.held (.inr id) = some other) :
    other = id ∧ id ∈ system.scheduling := by
  rw [held] at found
  split at found
  · rename_i member
    exact ⟨(Option.some.inj found).symm, member⟩
  · cases found

theorem held_of_draft {id : JobId} (member : id ∈ system.scheduling) :
    system.custody.held (.inr id) = some id :=
  if_pos member

/-- An id is queued, or held by a process, or about to be put. -/
theorem located_iff {id : JobId} :
    system.custody.Located id ↔
      system.Queued id ∨ (∃ processId, system.Holds processId id) ∨
        id ∈ system.scheduling := by
  constructor
  · intro located
    rcases located with waits | ⟨holder, found⟩
    · exact .inl ((queue_custody id).mp waits)
    · cases holder with
      | inl processId => exact .inr (.inl ⟨processId, found⟩)
      | inr other =>
          obtain ⟨same, member⟩ := held_draft found
          exact .inr (.inr (same ▸ member))
  · rintro (waits | ⟨processId, found⟩ | member)
    · exact .inl ((queue_custody id).mpr waits)
    · exact .inr ⟨.inl processId, found⟩
    · exact .inr ⟨.inr id, held_of_draft member⟩

/-! ### Steps of processes -/

theorem held_advance (step : Process.Step) :
    (system.advance processId step).held =
      Function.update system.held (.inl processId) (Process.held step) := by
  funext holder
  cases holder with
  | inl other =>
      by_cases same : other = processId
      · subst same
        simp [held, advance, Process.held]
      · rw [Function.update_of_ne (by simpa using same)]
        simp [held, advance, Function.update_of_ne same]
  | inr id =>
      rw [Function.update_of_ne (by simp)]
      rfl

theorem held_inl (runs : system.processes processId = some process) :
    system.custody.held (.inl processId) = process.place.holds := by
  simp [custody, held, runs]

/-- How a step of a process changes the custody of the ids. -/
inductive Passed (system : System) (processId : ProcessId) (process : Process)
    (step : Process.Step) : Prop where
  | stays : (step.1.apply system.backend).jobs = system.backend.jobs →
      (system.advance processId step).custody = system.custody →
      Passed system processId process step
  | takes (id : JobId) (rest : List JobId) :
      (step.1.apply system.backend).jobs = system.backend.jobs →
      system.custody.held (.inl processId) = none → system.custody.queue = id :: rest →
      (system.advance processId step).custody =
        system.custody.take (.inl processId) id rest →
      Passed system processId process step
  | returns (id : JobId) :
      (step.1.apply system.backend).jobs = system.backend.jobs →
      system.custody.held (.inl processId) = some id →
      (system.advance processId step).custody =
        system.custody.giveBack (.inl processId) id →
      Passed system processId process step
  | ends (job : Job) :
      step.1 = .saveJob job → job.state.finished = true →
      system.custody.held (.inl processId) = some job.id →
      (system.advance processId step).custody = system.custody.hold (.inl processId) none →
      Passed system processId process step
  | resets (job : Job) :
      step.1 = .saveJob job → job.state.finished = false →
      system.custody.held (.inl processId) = some job.id →
      (system.advance processId step).custody = system.custody →
      Passed system processId process step
  | dismisses (id : JobId) :
      (step.1.apply system.backend).jobs = system.backend.jobs →
      system.custody.held (.inl processId) = some id → system.backend.jobs id = none →
      (system.advance processId step).custody = system.custody.hold (.inl processId) none →
      Passed system processId process step
  | loses :
      (step.1.apply system.backend).jobs = system.backend.jobs →
      process.LosesJob system.backend →
      (system.advance processId step).custody = system.custody.hold (.inl processId) none →
      Passed system processId process step

theorem custody_advance {step : Process.Step} {after : Option JobId}
    (holds : Process.held step = after) :
    (system.advance processId step).custody =
      { queue := (step.1.apply system.backend).queueJobsStart.filterMap Token.id?
        held := Function.update system.custody.held (.inl processId) after } := by
  rw [custody, held_advance, holds]
  rfl

/-- The custody behind a step that leaves the ids in the start queue alone. -/
theorem custody_advance_same {step : Process.Step} {after : Option JobId}
    (holds : Process.held step = after)
    (queue : (step.1.apply system.backend).queueJobsStart.filterMap Token.id? =
      system.custody.queue) :
    (system.advance processId step).custody =
      system.custody.hold (.inl processId) after := by
  rw [custody_advance holds, queue]
  rfl

/-- Nothing changes when the process holds what it held. -/
theorem hold_same {custody : Custody JobId (ProcessId ⊕ JobId)}
    {holder : ProcessId ⊕ JobId} {after : Option JobId}
    (same : custody.held holder = after) : custody.hold holder after = custody := by
  rw [Custody.hold, ← same, Function.update_eq_self]

theorem next_passed (evaluation : Evaluation) (proper : system.Proper)
    (runs : system.processes processId = some process) :
    Passed system processId process (system.next process evaluation) := by
  have handover : Process.Handover system.backend process
      (system.next process evaluation).1 (Process.held (system.next process evaluation)) :=
    Process.step_handover (proper.sound processId process runs) proper.keyed
  have held := held_inl runs
  generalize system.next process evaluation = step at handover
  obtain ⟨operation, behind⟩ := step
  generalize holds : Process.held (operation, behind) = after at handover
  cases handover with
  | quiet quiet =>
      have queue := congrArg (·.filterMap Token.id?) (quiet.queueJobsStart system.backend)
      apply Passed.stays (quiet.jobs system.backend)
      rw [custody_advance_same holds queue]
      exact hold_same held
  | @takesJob id rest front free =>
      apply Passed.takes id (rest.filterMap Token.id?) rfl (held.trans free)
      · rw [custody, front]
        rfl
      · rw [custody_advance holds]
        change Custody.mk (system.backend.queueJobsStart.tail.filterMap Token.id?) _ = _
        rw [front]
        rfl
  | takesHalt front free =>
      have queue : system.backend.queueJobsStart.tail.filterMap Token.id? =
          system.custody.queue := by
        rw [custody, front]
        rfl
      apply Passed.stays rfl
      rw [custody_advance_same holds queue]
      exact hold_same (held.trans free)
  | @returns id has =>
      apply Passed.returns id rfl (held.trans has)
      rw [custody_advance holds]
      change Custody.mk ((system.backend.queueJobsStart ++ [Token.job id]).filterMap
        Token.id?) _ = _
      rw [List.filterMap_append]
      rfl
  | @ends job has finished =>
      exact .ends job rfl finished (held.trans has) (custody_advance_same holds rfl)
  | @resets job has unfinished =>
      apply Passed.resets job rfl unfinished (held.trans has)
      rw [custody_advance_same holds rfl]
      exact hold_same (held.trans has)
  | @dismisses id has absent =>
      exact .dismisses id rfl (held.trans has) absent (custody_advance_same holds rfl)
  | loses quiet loses =>
      have queue := congrArg (·.filterMap Token.id?) (quiet.queueJobsStart system.backend)
      exact .loses (quiet.jobs system.backend) loses (custody_advance_same holds queue)

/-! ### Properness of every run -/

theorem setJob_keyed {backend : Backend} {job : Job}
    (keyed : ∀ id job, backend.jobs id = some job → job.id = id) :
    ∀ id found, (backend.setJob job).jobs id = some found → found.id = id := by
  intro id found stored
  by_cases same : id = job.id
  · subst same
    change Function.update backend.jobs job.id (some job) job.id = some found at stored
    rw [Function.update_self] at stored
    cases stored
    rfl
  · change Function.update backend.jobs job.id (some job) id = some found at stored
    rw [Function.update_of_ne same] at stored
    exact keyed id found stored

theorem apply_keyed {backend : Backend} {operation : Operation}
    (keyed : ∀ id job, backend.jobs id = some job → job.id = id) :
    ∀ id job, (operation.apply backend).jobs id = some job → job.id = id := by
  cases operation with
  | saveJob job => exact setJob_keyed keyed
  | get res => cases res <;> exact keyed
  | _ => exact keyed

theorem initial_proper (now : Nat) (workers : WorkerId → WorkerObj) :
    (initial now workers).Proper where
  sound := by
    intro processId process impossible
    cases impossible
  keyed := by
    intro id job impossible
    cases impossible

theorem work_proper (proper : system.Proper) (processId : ProcessId)
    (evaluation : Evaluation) : (system.work processId evaluation).Proper := by
  unfold work
  split
  · exact proper
  · rename_i process runs
    refine ⟨?_, apply_keyed proper.keyed⟩
    intro other found stored
    by_cases same : other = processId
    · subst same
      have behind : (system.next process evaluation).2 = some found := by
        simpa [advance] using stored
      exact Process.step_sound (proper.sound other process runs) found behind
    · apply proper.sound other found
      simpa [advance, Function.update_of_ne same] using stored

theorem launch_proper (proper : system.Proper) (processId : ProcessId)
    (workerId : WorkerId) (onetime : Bool) (pid : Nat) :
    (system.launch processId workerId onetime pid).Proper := by
  unfold launch
  split
  · exact proper
  · refine ⟨?_, proper.keyed⟩
    intro other found stored
    by_cases same : other = processId
    · subst same
      simp only [Function.update_self, Option.some.injEq] at stored
      cases stored
      trivial
    · apply proper.sound other found
      simpa [Function.update_of_ne same] using stored

theorem step_proper (proper : system.Proper) (action : Action) :
    (system.step action).Proper := by
  cases action with
  | work processId evaluation => exact work_proper proper processId evaluation
  | launch processId workerId onetime pid =>
      exact launch_proper proper processId workerId onetime pid
  | create id request =>
      change (system.create id request).Proper
      unfold create
      split
      · exact ⟨proper.sound, setJob_keyed proper.keyed⟩
      · exact proper
  | put id =>
      change (system.put id).Proper
      unfold put
      split
      · exact ⟨proper.sound, proper.keyed⟩
      · exact proper
  | delete id =>
      refine ⟨proper.sound, ?_⟩
      intro other job stored
      change Function.update system.backend.jobs id none other = some job at stored
      by_cases same : other = id
      · subst same
        rw [Function.update_self] at stored
        cases stored
      · rw [Function.update_of_ne same] at stored
        exact proper.keyed other job stored
  | load call id =>
      change (system.load call id).Proper
      unfold load
      split <;> exact ⟨proper.sound, proper.keyed⟩
  | check call die =>
      refine ⟨proper.sound, ?_⟩
      change ∀ id job, (System.check system call die).backend.jobs id = some job → job.id = id
      unfold check
      dsimp only
      split
      · exact proper.keyed
      · exact setJob_keyed proper.keyed
  | _ => exact ⟨proper.sound, proper.keyed⟩

theorem run_proper (now : Nat) (workers : WorkerId → WorkerObj) (actions : List Action) :
    (run now workers actions).Proper :=
  run_always Proper (fun _ action proper => step_proper proper action)
    (initial_proper now workers) actions

/-! ### Actions other than the steps of processes -/

theorem custody_launch (workerId : WorkerId) (onetime : Bool) (pid : Nat) :
    (system.launch processId workerId onetime pid).custody = system.custody := by
  unfold launch
  split
  · rfl
  · rename_i idle
    have free : system.custody.held (.inl processId) = none := by
      simp [custody, held, idle]
    refine Eq.trans ?_ (hold_same free)
    rw [custody, Custody.hold]
    congr 1
    funext holder
    cases holder with
    | inl other =>
        by_cases same : other = processId
        · subst same
          simp [held, Place.holds]
        · rw [Function.update_of_ne (by simpa using same)]
          simp [held, custody, Function.update_of_ne same]
    | inr id =>
        rw [Function.update_of_ne (by simp)]
        rfl

theorem custody_create (id : JobId) (request : JobRequest)
    (given : id ≠ 0 ∧ system.backend.jobs id = none) :
    (system.create id request).custody = system.custody.hold (.inr id) (some id) := by
  rw [create, if_pos given, custody, Custody.hold]
  congr 1
  funext holder
  cases holder with
  | inl processId =>
      rw [Function.update_of_ne (by simp)]
      rfl
  | inr other =>
      by_cases same : other = id
      · subst same
        rw [Function.update_self]
        simp [held]
      · rw [Function.update_of_ne (by simpa using same)]
        simp [held, custody, same]

theorem custody_put {id : JobId} (member : id ∈ system.scheduling)
    (drafts : system.scheduling.Nodup) :
    (system.put id).custody = system.custody.giveBack (.inr id) id := by
  rw [put, if_pos member, custody, Custody.giveBack]
  congr 1
  · change ((system.backend.queueJobsStart ++ [Token.job id]).filterMap Token.id?) = _
    rw [List.filterMap_append]
    rfl
  · funext holder
    cases holder with
    | inl processId =>
        rw [Function.update_of_ne (by simp)]
        rfl
    | inr other =>
        by_cases same : other = id
        · subst same
          rw [Function.update_self]
          simp [held, drafts.not_mem_erase]
        · rw [Function.update_of_ne (by simpa using same)]
          simp [held, custody, List.mem_erase_of_ne same]

theorem custody_halt : (system.step .halt).custody = system.custody := by
  change Custody.mk ((system.backend.queueJobsStart ++ [Token.halt]).filterMap Token.id?) _ = _
  rw [List.filterMap_append]
  simp [custody, Token.id?]
  rfl

end System

/-- Starts no job again, and gives a new job no id that still is somewhere. -/
def Action.Orderly (system : System) : Action → Prop
  | .create id _ => ¬ system.custody.Located id
  | .start _ => False
  | _ => True

namespace System

variable {system : System}

/-- Every id is in one place, and no call of `schedule` is pending twice. -/
structure Kept (system : System) : Prop extends Proper system where
  unique : system.custody.Unique
  drafts : system.scheduling.Nodup

theorem initial_kept (now : Nat) (workers : WorkerId → WorkerObj) :
    (initial now workers).Kept where
  toProper := initial_proper now workers
  unique := by
    have free (holder : ProcessId ⊕ JobId) :
        (initial now workers).custody.held holder = none := by
      cases holder <;> rfl
    refine ⟨List.nodup_nil, ?_, ?_⟩
    · intro holder id found
      rw [free] at found
      cases found
    · intro first second id found
      rw [free] at found
      cases found
  drafts := List.nodup_nil

theorem Passed.unique {processId : ProcessId} {process : Process} {step : Process.Step}
    (passed : Passed system processId process step) (unique : system.custody.Unique) :
    (system.advance processId step).custody.Unique := by
  cases passed with
  | stays _ custody => exact custody ▸ unique
  | takes id rest _ _ front custody =>
      rw [custody]
      exact unique.take front
  | returns id _ has custody =>
      rw [custody]
      exact unique.giveBack has
  | ends job _ _ _ custody =>
      rw [custody]
      exact unique.release
  | resets job _ _ _ custody => exact custody ▸ unique
  | dismisses id _ _ _ custody =>
      rw [custody]
      exact unique.release
  | loses _ _ custody =>
      rw [custody]
      exact unique.release

theorem work_kept (kept : system.Kept) (processId : ProcessId) (evaluation : Evaluation) :
    (system.work processId evaluation).Kept := by
  refine ⟨work_proper kept.toProper processId evaluation, ?_, ?_⟩
  · unfold work
    split
    · exact kept.unique
    · rename_i process runs
      exact (next_passed evaluation kept.toProper runs).unique kept.unique
  · unfold work
    split <;> exact kept.drafts

theorem step_kept (kept : system.Kept) {action : Action} (orderly : action.Orderly system) :
    (system.step action).Kept := by
  have proper := step_proper kept.toProper action
  cases action with
  | work processId evaluation => exact work_kept kept processId evaluation
  | launch processId workerId onetime pid =>
      refine ⟨proper, ?_, ?_⟩
      · change (system.launch processId workerId onetime pid).custody.Unique
        rw [custody_launch]
        exact kept.unique
      · change (system.launch processId workerId onetime pid).scheduling.Nodup
        unfold launch
        split <;> exact kept.drafts
  | create id request =>
      by_cases given : id ≠ 0 ∧ system.backend.jobs id = none
      · refine ⟨proper, ?_, ?_⟩
        · change (system.create id request).custody.Unique
          rw [custody_create id request given]
          exact kept.unique.enter orderly
        · change (system.create id request).scheduling.Nodup
          rw [create, if_pos given]
          refine List.nodup_cons.mpr ⟨?_, kept.drafts⟩
          intro member
          exact orderly (located_iff.mpr (.inr (.inr member)))
      · have same : system.step (.create id request) = system := if_neg given
        rw [same]
        exact kept
  | put id =>
      by_cases member : id ∈ system.scheduling
      · refine ⟨proper, ?_, ?_⟩
        · change (system.put id).custody.Unique
          rw [custody_put member kept.drafts]
          exact kept.unique.giveBack (held_of_draft member)
        · change (system.put id).scheduling.Nodup
          rw [put, if_pos member]
          exact kept.drafts.erase id
      · have same : system.step (.put id) = system := if_neg member
        rw [same]
        exact kept
  | start id => exact orderly.elim
  | halt =>
      refine ⟨proper, ?_, kept.drafts⟩
      rw [custody_halt]
      exact kept.unique
  | load call id =>
      refine ⟨proper, ?_, ?_⟩
      · change (system.load call id).custody.Unique
        unfold load
        split <;> exact kept.unique
      · change (system.load call id).scheduling.Nodup
        unfold load
        split <;> exact kept.drafts
  | check call die =>
      refine ⟨proper, ?_, kept.drafts⟩
      have same : (system.check call die).custody = system.custody := by
        unfold check
        simp only [custody]
        split <;> rfl
      exact same ▸ kept.unique
  | _ => exact ⟨proper, kept.unique, kept.drafts⟩

end System

end JumpscaleX
