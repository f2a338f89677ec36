import JumpscaleX.JobCustody

/-!
# No job is lost

A worker that halts, or that ends with an error, leaves the job behind that it
just took off the queue.  As long as no process does this, every scheduled job
is in the queue, or in the hands of one process, or has come to its end.
-/

namespace JumpscaleX

open Runs Stateful

/-- Scheduling, working, halting and deleting. -/
def Action.Scheduling : Action → Prop
  | .start _ | .load _ _ | .check _ _ => False
  | _ => True

/-- No process loses a job that is not deleted, and no new job gets an id that
still is somewhere. -/
def Action.KeepsJobs (system : System) : Action → Prop
  | .work processId _ =>
      ∀ process id, system.processes processId = some process →
        system.Holds processId id → system.deleted id = false →
        ¬ process.LosesJob system.backend
  | .create id _ => ¬ system.custody.Located id
  | _ => True

namespace System

/-- The stored state of the job is `OK` or `ERROR`. -/
def Finished (system : System) (id : JobId) : Prop :=
  ∃ job, system.backend.jobs id = some job ∧ job.state.finished = true

/-- The id is in the start queue, or one process holds it, or the job has come
to its end, and only one of these. -/
def InOnePlace (system : System) (id : JobId) : Prop :=
  (system.Queued id ∧ (¬ ∃ processId, system.Holds processId id) ∧ ¬ system.Finished id) ∨
  (¬ system.Queued id ∧ (∃! processId, system.Holds processId id) ∧ ¬ system.Finished id) ∨
  (¬ system.Queued id ∧ (¬ ∃ processId, system.Holds processId id) ∧ system.Finished id)

def NoJobLost (system : System) : Prop :=
  ∀ id, system.scheduled id = true → system.deleted id = false → system.InOnePlace id

/-- The job is stored and has not come to its end. -/
def Open (system : System) (id : JobId) : Prop :=
  ∃ job, system.backend.jobs id = some job ∧ job.state.finished = false

/-- Jobs that are somewhere are open, and the other scheduled ones finished. -/
structure Tracked (system : System) : Prop extends Kept system where
  separate : ∀ id ∈ system.scheduling, system.scheduled id = false
  waiting : ∀ id, system.deleted id = false → system.custody.Located id → system.Open id
  found : ∀ id, system.scheduled id = true → system.deleted id = false →
    system.custody.Located id ∨ system.Finished id

variable {system : System}

theorem Open.not_finished {id : JobId} (unfinished : system.Open id) :
    ¬ system.Finished id := by
  rintro ⟨job, stored, finished⟩
  obtain ⟨other, same, still⟩ := unfinished
  rw [stored] at same
  cases same
  rw [finished] at still
  cases still

/-- What tracking says about one id. -/
theorem Tracked.noJobLost (tracked : system.Tracked) : system.NoJobLost := by
  intro id scheduled kept
  have unpending : id ∉ system.scheduling := by
    intro member
    rw [tracked.separate id member] at scheduled
    cases scheduled
  have unqueued (processId : ProcessId) (holds : system.Holds processId id) :
      ¬ system.Queued id := by
    intro waits
    exact tracked.unique.apart (.inl processId) id holds ((queue_custody id).mpr waits)
  by_cases located : system.custody.Located id
  · have unfinished := (tracked.waiting id kept located).not_finished
    rcases located_iff.mp located with waits | ⟨processId, holds⟩ | member
    · left
      refine ⟨waits, ?_, unfinished⟩
      rintro ⟨processId, holds⟩
      exact unqueued processId holds waits
    · right
      left
      refine ⟨unqueued processId holds, ⟨processId, holds, ?_⟩, unfinished⟩
      intro other otherHolds
      exact Sum.inl.inj
        (tracked.unique.alone (.inl other) (.inl processId) id otherHolds holds)
    · exact absurd member unpending
  · right
    right
    refine ⟨?_, ?_, ?_⟩
    · intro waits
      exact located (located_iff.mpr (.inl waits))
    · intro holds
      exact located (located_iff.mpr (.inr (.inl holds)))
    · exact (tracked.found id scheduled kept).resolve_left located

theorem initial_tracked (now : Nat) (workers : WorkerId → WorkerObj) :
    (initial now workers).Tracked where
  toKept := initial_kept now workers
  separate := by
    intro id member
    cases member
  waiting := by
    rintro id _ (waits | ⟨holder, found⟩)
    · cases waits
    · cases holder <;> cases found
  found := by
    intro id impossible
    cases impossible

/-! ### Steps -/

theorem jobs_setJob (backend : Backend) (job : Job) :
    (backend.setJob job).jobs = Function.update backend.jobs job.id (some job) := rfl

/-- A save changes no other job. -/
theorem setJob_other {backend : Backend} {job : Job} {id : JobId} (other : id ≠ job.id) :
    (backend.setJob job).jobs id = backend.jobs id :=
  Function.update_of_ne other _ _

theorem setJob_self (backend : Backend) (job : Job) :
    (backend.setJob job).jobs job.id = some job :=
  Function.update_self ..

theorem open_congr {after : System} {id : JobId}
    (same : after.backend.jobs id = system.backend.jobs id) (unfinished : system.Open id) :
    after.Open id := by
  obtain ⟨job, stored, still⟩ := unfinished
  exact ⟨job, same.trans stored, still⟩

theorem finished_congr {after : System} {id : JobId}
    (same : after.backend.jobs id = system.backend.jobs id)
    (finished : system.Finished id) : after.Finished id := by
  obtain ⟨job, stored, done⟩ := finished
  exact ⟨job, same.trans stored, done⟩

section

variable {processId : ProcessId} {process : Process} {step : Process.Step}

theorem advance_other {job : Job} {id : JobId} (saves : step.1 = .saveJob job)
    (other : id ≠ job.id) :
    (system.advance processId step).backend.jobs id = system.backend.jobs id := by
  change (step.1.apply system.backend).jobs id = system.backend.jobs id
  rw [saves]
  exact setJob_other other

theorem advance_saved {job : Job} (saves : step.1 = .saveJob job) :
    (system.advance processId step).backend.jobs job.id = some job := by
  change (step.1.apply system.backend).jobs job.id = some job
  rw [saves]
  exact setJob_self system.backend job

theorem Passed.waiting (passed : Passed system processId process step)
    (tracked : system.Tracked) {id : JobId} (undeleted : system.deleted id = false)
    (located : (system.advance processId step).custody.Located id) :
    (system.advance processId step).Open id := by
  cases passed with
  | stays jobs custody =>
      rw [custody] at located
      exact open_congr (congrFun jobs id) (tracked.waiting id undeleted located)
  | takes taken rest jobs free front custody =>
      rw [custody, Custody.located_take free front] at located
      exact open_congr (congrFun jobs id) (tracked.waiting id undeleted located)
  | returns returned jobs has custody =>
      rw [custody, Custody.located_giveBack tracked.unique has] at located
      exact open_congr (congrFun jobs id) (tracked.waiting id undeleted located)
  | ends job saves _ has custody =>
      rw [custody, Custody.located_release tracked.unique has] at located
      obtain ⟨located, other⟩ := located
      exact open_congr (advance_other saves other) (tracked.waiting id undeleted located)
  | resets job saves unfinished has custody =>
      rw [custody] at located
      by_cases same : id = job.id
      · exact ⟨job, same ▸ advance_saved saves, unfinished⟩
      · exact open_congr (advance_other saves same) (tracked.waiting id undeleted located)
  | dismisses dismissed jobs has absent custody =>
      rw [custody] at located
      exact open_congr (congrFun jobs id)
        (tracked.waiting id undeleted (Custody.located_of_release located))
  | loses jobs loses custody =>
      rw [custody] at located
      exact open_congr (congrFun jobs id)
        (tracked.waiting id undeleted (Custody.located_of_release located))

theorem Passed.found (passed : Passed system processId process step)
    (tracked : system.Tracked)
    (keeps : ∀ id, system.Holds processId id → system.deleted id = false →
      ¬ process.LosesJob system.backend)
    {id : JobId} (scheduled : system.scheduled id = true)
    (undeleted : system.deleted id = false) :
    (system.advance processId step).custody.Located id ∨
      (system.advance processId step).Finished id := by
  have before := tracked.found id scheduled undeleted
  cases passed with
  | stays jobs custody =>
      rw [custody]
      exact before.imp_right (finished_congr (congrFun jobs id))
  | takes taken rest jobs free front custody =>
      rw [custody, Custody.located_take free front]
      exact before.imp_right (finished_congr (congrFun jobs id))
  | returns returned jobs has custody =>
      rw [custody, Custody.located_giveBack tracked.unique has]
      exact before.imp_right (finished_congr (congrFun jobs id))
  | ends job saves finished has custody =>
      by_cases same : id = job.id
      · right
        exact ⟨job, same ▸ advance_saved saves, finished⟩
      · rw [custody, Custody.located_release tracked.unique has]
        exact before.imp (fun located => ⟨located, same⟩)
          (finished_congr (advance_other saves same))
  | resets job saves unfinished has custody =>
      rw [custody]
      by_cases same : id = job.id
      · left
        exact .inr ⟨.inl processId, same ▸ has⟩
      · exact before.imp_right (finished_congr (advance_other saves same))
  | dismisses dismissed jobs has absent custody =>
      rw [custody, Custody.located_release tracked.unique has]
      refine before.imp (fun located => ⟨located, ?_⟩) (finished_congr (congrFun jobs id))
      rintro rfl
      obtain ⟨job, stored, _⟩ := tracked.waiting id undeleted located
      rw [absent] at stored
      cases stored
  | loses jobs loses custody =>
      rw [custody]
      refine before.imp (fun located => located.release ?_)
        (finished_congr (congrFun jobs id))
      intro holds
      exact keeps id holds undeleted loses

end

theorem work_tracked (tracked : system.Tracked) (processId : ProcessId)
    (evaluation : Evaluation)
    (keeps : (Action.work processId evaluation).KeepsJobs system) :
    (system.work processId evaluation).Tracked := by
  have kept := work_kept tracked.toKept processId evaluation
  unfold work at kept ⊢
  split at kept
  · exact tracked
  · rename_i process runs
    have passed := next_passed evaluation tracked.toProper runs
    refine ⟨kept, tracked.separate, ?_, ?_⟩
    · intro id undeleted located
      exact passed.waiting tracked undeleted located
    · intro id scheduled undeleted
      apply passed.found tracked _ scheduled undeleted
      intro held holds
      exact keeps process held runs holds

theorem create_tracked (tracked : system.Tracked) {id : JobId} (request : JobRequest)
    (given : id ≠ 0 ∧ system.backend.jobs id = none)
    (absent : ¬ system.custody.Located id)
    (kept : (system.create id request).Kept) : (system.create id request).Tracked := by
  have free : system.custody.held (.inr id) = none := by
    cases held : system.custody.held (.inr id) with
    | none => rfl
    | some other =>
        obtain ⟨same, _⟩ := held_draft held
        exact absurd (.inr ⟨.inr id, same ▸ held⟩) absent
  have located (other : JobId) : (system.create id request).custody.Located other ↔
      system.custody.Located other ∨ other = id := by
    rw [custody_create id request given]
    exact Custody.located_enter free other
  have jobs : (system.create id request).backend.jobs =
      Function.update system.backend.jobs id
        (some (request.job id system.backend.now)) := by
    rw [create, if_pos given]
    rfl
  have others {other : JobId} (different : other ≠ id) :
      (system.create id request).backend.jobs other = system.backend.jobs other := by
    rw [jobs, Function.update_of_ne different]
  have scheduled : (system.create id request).scheduled =
      Function.update system.scheduled id false := by
    rw [create, if_pos given]
  have deleted : (system.create id request).deleted =
      Function.update system.deleted id false := by
    rw [create, if_pos given]
  have scheduling : (system.create id request).scheduling = id :: system.scheduling := by
    rw [create, if_pos given]
  refine ⟨kept, ?_, ?_, ?_⟩
  · intro other member
    rw [scheduling] at member
    rw [scheduled]
    by_cases same : other = id
    · rw [same, Function.update_self]
    · rw [Function.update_of_ne same]
      exact tracked.separate other ((List.mem_cons.mp member).resolve_left same)
  · intro other undeleted found
    by_cases same : other = id
    · refine ⟨request.job id system.backend.now, ?_, rfl⟩
      rw [same, jobs, Function.update_self]
    · rw [deleted, Function.update_of_ne same] at undeleted
      apply open_congr (others same)
      exact tracked.waiting other undeleted (((located other).mp found).resolve_right same)
  · intro other put undeleted
    by_cases same : other = id
    · exact .inl ((located other).mpr (.inr same))
    · rw [scheduled, Function.update_of_ne same] at put
      rw [deleted, Function.update_of_ne same] at undeleted
      exact (tracked.found other put undeleted).imp
        (fun before => (located other).mpr (.inl before)) (finished_congr (others same))

theorem put_tracked (tracked : system.Tracked) {id : JobId}
    (member : id ∈ system.scheduling) (kept : (system.put id).Kept) :
    (system.put id).Tracked := by
  have located (other : JobId) :
      (system.put id).custody.Located other ↔ system.custody.Located other := by
    rw [custody_put member tracked.drafts]
    exact Custody.located_giveBack tracked.unique (held_of_draft member) other
  have jobs : (system.put id).backend.jobs = system.backend.jobs := by
    rw [put, if_pos member]
    rfl
  have scheduled : (system.put id).scheduled =
      Function.update system.scheduled id true := by
    rw [put, if_pos member]
  have deleted : (system.put id).deleted = system.deleted := by
    rw [put, if_pos member]
  have scheduling : (system.put id).scheduling = system.scheduling.erase id := by
    rw [put, if_pos member]
  refine ⟨kept, ?_, ?_, ?_⟩
  · intro other later
    rw [scheduling] at later
    obtain ⟨different, earlier⟩ := (tracked.drafts.mem_erase_iff).mp later
    rw [scheduled, Function.update_of_ne different]
    exact tracked.separate other earlier
  · intro other undeleted found
    rw [deleted] at undeleted
    exact open_congr (congrFun jobs other)
      (tracked.waiting other undeleted ((located other).mp found))
  · intro other put undeleted
    rw [deleted] at undeleted
    by_cases same : other = id
    · left
      rw [located, same]
      exact .inr ⟨.inr id, held_of_draft member⟩
    · rw [scheduled, Function.update_of_ne same] at put
      exact (tracked.found other put undeleted).imp (located other).mpr
        (finished_congr (congrFun jobs other))

theorem delete_tracked (tracked : system.Tracked) (id : JobId)
    (kept : (system.delete id).Kept) : (system.delete id).Tracked := by
  have others {other : JobId} (undeleted : (system.delete id).deleted other = false) :
      other ≠ id ∧ system.deleted other = false := by
    change Function.update system.deleted id true other = false at undeleted
    by_cases same : other = id
    · rw [same, Function.update_self] at undeleted
      cases undeleted
    · rw [Function.update_of_ne same] at undeleted
      exact ⟨same, undeleted⟩
  have jobs {other : JobId} (different : other ≠ id) :
      (system.delete id).backend.jobs other = system.backend.jobs other :=
    Function.update_of_ne different _ _
  refine ⟨kept, tracked.separate, ?_, ?_⟩
  · intro other undeleted located
    obtain ⟨different, undeleted⟩ := others undeleted
    exact open_congr (jobs different) (tracked.waiting other undeleted located)
  · intro other scheduled undeleted
    obtain ⟨different, undeleted⟩ := others undeleted
    exact (tracked.found other scheduled undeleted).imp_right
      (finished_congr (jobs different))

/-- An action that changes neither the custody nor the jobs. -/
theorem Tracked.of_same {after : System} (tracked : system.Tracked) (kept : after.Kept)
    (custody : after.custody = system.custody)
    (jobs : after.backend.jobs = system.backend.jobs)
    (scheduling : after.scheduling = system.scheduling)
    (scheduled : after.scheduled = system.scheduled)
    (deleted : after.deleted = system.deleted) : after.Tracked := by
  refine ⟨kept, ?_, ?_, ?_⟩
  · rw [scheduling, scheduled]
    exact tracked.separate
  · intro id undeleted located
    rw [deleted] at undeleted
    rw [custody] at located
    exact open_congr (congrFun jobs id) (tracked.waiting id undeleted located)
  · intro id put undeleted
    rw [scheduled] at put
    rw [deleted] at undeleted
    rw [custody]
    exact (tracked.found id put undeleted).imp_right (finished_congr (congrFun jobs id))

theorem Action.orderly_of_keepsJobs {action : Action} (scheduling : action.Scheduling)
    (keeps : action.KeepsJobs system) : action.Orderly system := by
  cases action with
  | create id request => exact keeps
  | start id => exact scheduling.elim
  | _ => trivial

theorem step_tracked (tracked : system.Tracked) {action : Action}
    (scheduling : action.Scheduling) (keeps : action.KeepsJobs system) :
    (system.step action).Tracked := by
  have kept := step_kept tracked.toKept (Action.orderly_of_keepsJobs scheduling keeps)
  cases action with
  | work processId evaluation => exact work_tracked tracked processId evaluation keeps
  | launch processId workerId onetime pid =>
      refine tracked.of_same kept (custody_launch workerId onetime pid) ?_ ?_ ?_ ?_
      all_goals
        simp only [step, launch]
        split <;> rfl
  | create id request =>
      by_cases given : id ≠ 0 ∧ system.backend.jobs id = none
      · exact create_tracked tracked request given keeps kept
      · have same : system.step (.create id request) = system := if_neg given
        rw [same]
        exact tracked
  | put id =>
      by_cases member : id ∈ system.scheduling
      · exact put_tracked tracked member kept
      · have same : system.step (.put id) = system := if_neg member
        rw [same]
        exact tracked
  | start id => exact scheduling.elim
  | halt => exact tracked.of_same kept custody_halt rfl rfl rfl rfl
  | stopWorker workerId worker => exact tracked.of_same kept rfl rfl rfl rfl rfl
  | renewWorker workerId worker => exact tracked.of_same kept rfl rfl rfl rfl rfl
  | delete id => exact delete_tracked tracked id kept
  | load call id => exact scheduling.elim
  | check call die => exact scheduling.elim
  | tick => exact tracked.of_same kept rfl rfl rfl rfl rfl

/-- In a run in which no process loses a job, no scheduled job is lost. -/
theorem run_noJobLost (now : Nat) (workers : WorkerId → WorkerObj)
    (actions : List Action) (scheduling : ∀ action ∈ actions, action.Scheduling)
    (keeps : Along Action.KeepsJobs step (initial now workers) actions) :
    (run now workers actions).NoJobLost := by
  apply Tracked.noJobLost
  apply run_keeps Tracked _ (initial_tracked now workers) (along_and_forall keeps scheduling)
  intro system action tracked fits
  exact step_tracked tracked fits.1 fits.2

end System

section

def idleWorker : WorkerObj where
  state := .new
  halt := false
  currentJob := noJob
  lastUpdate := 0
  pid := 0

def plainRequest : JobRequest where
  dependencies := []
  timeout := 0
  returnQueues := []
  returnQueuesReset := false

/-- A worker takes the id of a scheduled job off the queue. -/
def takenRun : List Action :=
  [.create 1 plainRequest, .put 1, .launch 0 0 false 7,
    .work 0 (.returned none), .work 0 (.returned none)]

/-- Before it looks again, it is asked to halt. -/
def haltedRun : List Action :=
  takenRun ++ [.stopWorker 0 idleWorker, .work 0 (.returned none)]

theorem run_noJobLost_taken :
    (System.run 1 (fun _ => idleWorker) takenRun).NoJobLost := by
  apply System.run_noJobLost
  · simp [takenRun, Action.Scheduling]
  · refine ⟨?_, trivial, trivial, ?_, ?_, trivial⟩
    · rintro (waits | ⟨holder, found⟩)
      · cases waits
      · cases holder <;> cases found
    · intro process id _ holds
      cases show none = some id from holds
    · intro process id _ holds
      cases show none = some id from holds

/-- The job is neither in the queue nor held, and it did not end. -/
theorem not_noJobLost_halted :
    ¬ ∀ now workers actions, (∀ action ∈ actions, Action.Scheduling action) →
      (System.run now workers actions).NoJobLost := by
  intro claim
  have placed := claim 1 (fun _ => idleWorker) haltedRun
    (by simp [haltedRun, takenRun, Action.Scheduling]) 1 rfl rfl
  have unqueued : ¬ (System.run 1 (fun _ => idleWorker) haltedRun).Queued 1 := by
    change Token.job 1 ∉ []
    simp
  have unfinished : ¬ (System.run 1 (fun _ => idleWorker) haltedRun).Finished 1 := by
    apply System.Open.not_finished
    exact ⟨plainRequest.job 1 1, rfl, rfl⟩
  have free (processId : ProcessId) :
      ¬ (System.run 1 (fun _ => idleWorker) haltedRun).Holds processId 1 := by
    intro holds
    by_cases same : processId = 0
    · subst same
      cases show none = some 1 from holds
    · change ((Function.update (Function.update (Function.update (Function.update
        (fun _ => none) 0 _) 0 _) 0 _) 0 _) processId).bind _ = some 1 at holds
      simp [Function.update_of_ne same] at holds
  rcases placed with ⟨waits, _⟩ | ⟨_, ⟨processId, holds, _⟩, _⟩ | ⟨_, _, finished⟩
  · exact unqueued waits
  · exact free processId holds
  · exact unfinished finished

end

end JumpscaleX
