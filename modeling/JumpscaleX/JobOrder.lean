import JumpscaleX.Library.Precedence
import JumpscaleX.JobCopies
import JumpscaleX.JobScans
import JumpscaleX.JobsKept

/-!
# Jobs are executed in the order of their dependencies

In every run a job is executed behind its dependencies only.  When no id is
given to a second job, no job on a cycle is executed; when besides no job is
started again, neither is a job that depends on one that failed.
-/

namespace JumpscaleX

open Precedence Relation Runs Stateful

namespace Log

/-- The ids of the jobs that were executed, the latest first. -/
def executed (log : Log) : List JobId :=
  log.filterMap (fun entry =>
    match entry.2 with
    | .evaluate job _ => some job.id
    | _ => none)

/-- A process stored the job as `ERROR`. -/
def Failed (log : Log) (id : JobId) : Prop :=
  ∃ processId saved, (processId, Operation.saveJob saved) ∈ log ∧ saved.id = id ∧
    saved.state = .error

variable {log : Log} {id : JobId}

theorem mem_executed :
    id ∈ executed log ↔
      ∃ processId job evaluation, (processId, Operation.evaluate job evaluation) ∈ log ∧
        job.id = id := by
  constructor
  · intro member
    obtain ⟨⟨processId, operation⟩, found, same⟩ := List.mem_filterMap.mp member
    cases operation with
    | evaluate job evaluation => exact ⟨processId, job, evaluation, found, Option.some.inj same⟩
    | _ => cases same
  · rintro ⟨processId, job, evaluation, found, rfl⟩
    exact List.mem_filterMap.mpr ⟨(processId, .evaluate job evaluation), found, rfl⟩

theorem Succeeded.executed (succeeded : Succeeded log id) : id ∈ Log.executed log := by
  obtain ⟨processId, saved, earlier, found, _, _, job, evaluation, member, same⟩ := succeeded
  have before : (processId, Operation.evaluate job evaluation) ∈ earlier :=
    (List.takeWhile_sublist _).subset member
  exact mem_executed.mpr
    ⟨processId, job, evaluation, found.subset (List.mem_cons_of_mem _ before), same⟩

/-- A job that succeeded was stored as `OK`. -/
theorem Succeeded.saved (succeeded : Succeeded log id) :
    ∃ processId saved, (processId, Operation.saveJob saved) ∈ log ∧ saved.id = id ∧
      saved.state = .ok := by
  obtain ⟨processId, saved, earlier, found, same, fine, _⟩ := succeeded
  exact ⟨processId, saved, found.subset List.mem_cons_self, same, fine⟩

/-- An ordered log executes what a job needs before the job. -/
theorem Ordered.grounded {needs : JobId → JobId → Prop} (ordered : Ordered log)
    (known : ∀ processId job evaluation dep,
      (processId, Operation.evaluate job evaluation) ∈ log → needs job.id dep →
      dep ∈ job.dependencies) : Grounded needs (Log.executed log) := by
  induction log with
  | nil => exact .nil
  | cons entry log induction =>
      have earlier : Grounded needs (Log.executed log) := by
        apply induction
        · intro processId job evaluation before found
          exact ordered processId job evaluation before (found.trans (List.suffix_cons _ _))
        · intro processId job evaluation dep found
          exact known processId job evaluation dep (List.mem_cons_of_mem _ found)
      obtain ⟨processId, operation⟩ := entry
      cases operation with
      | evaluate job evaluation =>
          apply Grounded.cons _ earlier
          intro dep needed
          have member := known processId job evaluation dep List.mem_cons_self needed
          exact (ordered processId job evaluation log List.suffix_rfl dep member).2.executed
      | _ => exact earlier

end Log

/-- No id is given to a second job, and no job is started again. -/
def Action.Once (system : System) : Action → Prop
  | .create id _ => system.created id = none
  | .start _ => False
  | _ => True

namespace System

/-- The job depends on another one, as `schedule` saved it. -/
def DependsOn (system : System) (id dep : JobId) : Prop :=
  ∃ job, system.created id = some job ∧ dep ∈ job.dependencies

/-- A process that scans a dependency sees the state that is stored. -/
def ScansStored (system : System) : Prop :=
  ∀ processId process evaluation dep state, system.processes processId = some process →
    (system.next process evaluation).1 = .scan dep state →
    ∃ job, system.backend.jobs dep = some job ∧ job.state = state

/-- Jobs are executed behind what they depend on, and none that depends on
itself. -/
def Topological (system : System) : Prop :=
  Grounded system.DependsOn (Log.executed system.log) ∧
    ∀ id, TransGen system.DependsOn id id → id ∉ Log.executed system.log

/-- No job that depends on a failed one is executed. -/
def FailuresStop (system : System) : Prop :=
  ∀ id dep, TransGen system.DependsOn id dep → Log.Failed system.log dep →
    id ∉ Log.executed system.log

/-- What the processes and the stored jobs show was done as they show it. -/
structure Attested (system : System) : Prop extends Proper system where
  done : ∀ processId process, system.processes processId = some process →
    process.place.Done processId system.log
  stored : ∀ id job, system.backend.jobs id = some job → job.state.fulfilled = true →
    Log.Succeeded system.log id
  loaded : ∀ call job, system.loaded call = some job → job.state.fulfilled = true →
    Log.Succeeded system.log job.id
  scans : ∀ processId dep state, (processId, Operation.scan dep state) ∈ system.log →
    state.fulfilled = true → Log.Succeeded system.log dep
  ordered : Log.Ordered system.log

variable {system : System}

theorem initial_attested (now : Nat) (workers : WorkerId → WorkerObj) :
    (initial now workers).Attested where
  toProper := initial_proper now workers
  done := by
    intro processId process impossible
    cases impossible
  stored := by
    intro id job impossible
    cases impossible
  loaded := by
    intro call job impossible
    cases impossible
  scans := by
    intro processId dep state impossible
    cases impossible
  ordered := by
    intro processId job evaluation earlier impossible
    cases List.suffix_nil.mp impossible

/-! ### Steps -/

/-- A process in its iteration has the dependencies of its job behind it. -/
theorem Attested.ready (attested : system.Attested) {processId : ProcessId}
    {process : Process} {job : Job} (runs : system.processes processId = some process)
    (place : process.place = .evaluating job) :
    ∀ dep ∈ job.dependencies,
      Log.FoundDone processId system.log dep ∧ Log.Succeeded system.log dep := by
  intro dep member
  have done := attested.done processId process runs
  rw [place] at done
  obtain ⟨state, fulfilled, scanned⟩ := done dep member
  refine ⟨⟨state, fulfilled, scanned⟩, ?_⟩
  exact attested.scans processId dep state ((List.takeWhile_sublist _).subset scanned) fulfilled

theorem next_attested (attested : system.Attested) {processId : ProcessId}
    {process : Process} (evaluation : Evaluation)
    (runs : system.processes processId = some process)
    (proper : (system.advance processId (system.next process evaluation)).Proper) :
    (system.advance processId (system.next process evaluation)).Attested := by
  have arrives : Process.Arrives processId system.log (system.next process evaluation) :=
    Process.step_arrives evaluation (attested.done processId process runs)
  have tells : Process.Tells system.backend process (system.next process evaluation).1 :=
    Process.step_tells evaluation
  have done := attested.done processId process runs
  have sound := attested.sound processId process runs
  generalize system.next process evaluation = step at arrives tells proper ⊢
  have before {id : JobId} (succeeded : Log.Succeeded system.log id) :
      Log.Succeeded (system.advance processId step).log id := succeeded.cons _
  refine ⟨proper, ?_, ?_, ?_, ?_, ?_⟩
  · intro other next found
    rcases Custody.update_eq_some found with ⟨rfl, same⟩ | ⟨different, found⟩
    · exact arrives next same
    · exact (attested.done other next found).cons step.1 (Ne.symm different)
  · intro id job found fulfilled
    by_cases saves : ∃ saved, step.1 = .saveJob saved
    · obtain ⟨saved, saves⟩ := saves
      rcases stored_behind_save saves found with ⟨rfl, rfl⟩ | ⟨_, found⟩
      · obtain ⟨fine, ended, place, same⟩ := tells.fulfilling sound saves fulfilled
        rw [place] at done
        have log : (system.advance processId step).log =
            (processId, .saveJob job) :: system.log := by
          rw [advance, saves]
        exact ⟨processId, job, system.log, ⟨[], log.symm⟩, rfl, fine, same ▸ done⟩
      · exact before (attested.stored id job found fulfilled)
    · rw [advance_jobs (fun saved same => saves ⟨saved, same⟩)] at found
      exact before (attested.stored id job found fulfilled)
  · intro call job found fulfilled
    exact before (attested.loaded call job found fulfilled)
  · intro other dep state member fulfilled
    apply before
    rcases List.mem_cons.mp member with same | member
    · obtain ⟨jobDep, found, rfl⟩ := tells.scanned (Prod.mk.inj same).2.symm
      exact attested.stored dep jobDep found fulfilled
    · exact attested.scans other dep state member fulfilled
  · apply attested.ordered.cons
    intro job evaluation executes
    exact attested.ready runs (tells.executing executes)

/-- An action that makes no step of a process and saves no job that is done. -/
theorem Attested.of_same {after : System} (attested : system.Attested)
    (proper : after.Proper) (log : after.log = system.log)
    (places : ∀ processId process, after.processes processId = some process →
      system.processes processId = some process ∨ process.place = .starting)
    (jobs : ∀ id job, after.backend.jobs id = some job → job.state.fulfilled = true →
      Log.Succeeded system.log id)
    (loaded : ∀ call job, after.loaded call = some job → job.state.fulfilled = true →
      Log.Succeeded system.log job.id) : after.Attested := by
  refine ⟨proper, ?_, ?_, ?_, ?_, ?_⟩
  · rw [log]
    intro processId process found
    rcases places processId process found with found | place
    · exact attested.done processId process found
    · rw [place]
      trivial
  · rw [log]
    exact jobs
  · rw [log]
    exact loaded
  · rw [log]
    exact attested.scans
  · rw [log]
    exact attested.ordered

theorem step_attested (attested : system.Attested) (action : Action) :
    (system.step action).Attested := by
  have proper := step_proper attested.toProper action
  cases action with
  | work processId evaluation =>
      change (system.work processId evaluation).Attested
      change (system.work processId evaluation).Proper at proper
      unfold work at proper ⊢
      split at proper
      · exact attested
      · rename_i process runs
        exact next_attested attested evaluation runs proper
  | launch processId workerId onetime pid =>
      change (system.launch processId workerId onetime pid).Attested
      change (system.launch processId workerId onetime pid).Proper at proper
      unfold launch at proper ⊢
      split at proper
      · exact attested
      · refine attested.of_same proper rfl ?_ attested.stored attested.loaded
        intro other process found
        rcases Custody.update_eq_some found with ⟨_, same⟩ | ⟨_, found⟩
        · cases same
          exact .inr rfl
        · exact .inl found
  | create id request =>
      by_cases given : id ≠ 0 ∧ system.backend.jobs id = none
      · have same : system.step (.create id request) = _ := if_pos given
        rw [same] at proper ⊢
        refine attested.of_same proper rfl (fun _ _ => .inl) ?_ attested.loaded
        intro other job found fulfilled
        rcases Custody.update_eq_some found with ⟨_, same⟩ | ⟨_, found⟩
        · cases same
          cases fulfilled
        · exact attested.stored other job found fulfilled
      · have same : system.step (.create id request) = system := if_neg given
        rw [same]
        exact attested
  | put id =>
      by_cases member : id ∈ system.scheduling
      · have same : system.step (.put id) = _ := if_pos member
        rw [same] at proper ⊢
        exact attested.of_same proper rfl (fun _ _ => .inl) attested.stored attested.loaded
      · have same : system.step (.put id) = system := if_neg member
        rw [same]
        exact attested
  | delete id =>
      refine attested.of_same proper rfl (fun _ _ => .inl) ?_ attested.loaded
      intro other job found
      exact attested.stored other job (deleted_jobs found)
  | load call id =>
      change (system.load call id).Attested
      change (system.load call id).Proper at proper
      unfold load at proper ⊢
      split at proper
      · exact attested
      · rename_i stored present
        refine attested.of_same proper rfl (fun _ _ => .inl) attested.stored ?_
        intro other job value fulfilled
        rcases Custody.update_eq_some value with ⟨_, same⟩ | ⟨_, value⟩
        · cases same
          rw [attested.keyed id stored present]
          exact attested.stored id stored present fulfilled
        · exact attested.loaded other job value fulfilled
  | check call die =>
      refine attested.of_same proper rfl (fun _ _ => .inl) ?_ ?_
      · intro id job found fulfilled
        change (system.check call die).backend.jobs id = some job at found
        cases saves : system.checked call die with
        | none =>
            rw [check_same saves] at found
            exact attested.stored id job found fulfilled
        | some saved =>
            rw [check_saves saves] at found
            rcases Custody.update_eq_some found with ⟨rfl, same⟩ | ⟨_, found⟩
            · cases same
              obtain ⟨old, value, same, state, _⟩ := checked_copy saves
              rw [same.1]
              exact attested.loaded call old value (state ▸ fulfilled)
            · exact attested.stored id job found fulfilled
      · intro other job value
        rcases Custody.update_eq_some value with ⟨_, impossible⟩ | ⟨_, value⟩
        · cases impossible
        · exact attested.loaded other job value
  | start id | halt | stopWorker workerId worker | renewWorker workerId worker | tick =>
      exact attested.of_same proper rfl (fun _ _ => .inl) attested.stored attested.loaded

/-! ### Runs without reused ids -/

/-- Every job that was executed is a copy of one that `schedule` saved. -/
structure Recorded (system : System) : Prop extends Traced system where
  executed : ∀ processId job evaluation,
    (processId, Operation.evaluate job evaluation) ∈ system.log →
    ∃ first, system.created job.id = some first ∧ job.Same first

theorem step_recorded (recorded : system.Recorded) {action : Action}
    (fits : action.FreshIds system) : (system.step action).Recorded where
  toTraced := step_traced recorded.toTraced fits
  executed := by
    intro processId job evaluation member
    have before : ∃ first, system.created job.id = some first ∧ job.Same first := by
      rcases mem_log_step member with member | ⟨worker, _, process, _, runs, same⟩
      · exact recorded.executed processId job evaluation member
      · have place := (Process.step_tells _).executing (Prod.mk.inj same).2.symm
        apply recorded.copied job
        apply Copy.working worker
        rw [working_of_runs runs, place]
        rfl
    obtain ⟨first, known, same⟩ := before
    exact ⟨first, created_step fits known, same⟩

theorem run_recorded (now : Nat) (workers : WorkerId → WorkerObj) {actions : List Action}
    (fits : Along Action.FreshIds step (initial now workers) actions) :
    (run now workers actions).Recorded := by
  apply run_keeps Recorded _ _ fits
  · intro system action recorded fits
    exact step_recorded recorded fits
  · refine ⟨initial_traced now workers, ?_⟩
    intro processId job evaluation impossible
    cases impossible

/-- The order of execution respects the dependencies. -/
theorem Recorded.grounded (recorded : system.Recorded) (attested : system.Attested) :
    Grounded system.DependsOn (Log.executed system.log) := by
  apply attested.ordered.grounded
  rintro processId job evaluation dep member ⟨created, known, needed⟩
  obtain ⟨first, same, alike⟩ := recorded.executed processId job evaluation member
  rw [same] at known
  cases known
  rw [alike.2.1]
  exact needed

/-- What an executed job needs, directly or not, was executed well. -/
theorem Recorded.succeeded (recorded : system.Recorded) (attested : system.Attested)
    {id dep : JobId} (executed : id ∈ Log.executed system.log)
    (needs : TransGen system.DependsOn id dep) : Log.Succeeded system.log dep := by
  obtain ⟨last, others, created, known, needed⟩ := TransGen.tail'_iff.mp needs
  have member := (recorded.grounded attested).indirect_mem executed others
  obtain ⟨processId, job, evaluation, found, rfl⟩ := Log.mem_executed.mp member
  obtain ⟨first, same, alike⟩ := recorded.executed processId job evaluation found
  rw [same] at known
  cases known
  obtain ⟨before, earlier, split⟩ := List.append_of_mem found
  have suffix : (processId, Operation.evaluate job evaluation) :: earlier <:+ system.log :=
    ⟨before, split.symm⟩
  have ready :=
    (attested.ordered processId job evaluation earlier suffix dep (alike.2.1 ▸ needed)).2
  obtain ⟨worker, saved, rest, position, facts⟩ := ready
  exact ⟨worker, saved, rest, position.trans ((List.suffix_cons _ _).trans suffix), facts⟩

/-! ### Runs in which every job is put once -/

theorem Action.freshIds_of_once {action : Action} (fits : action.Once system) :
    action.FreshIds system := by
  cases action with
  | create id request => exact fits
  | _ => trivial

/-- A step of a process brings no id into the queue or into a hand. -/
theorem Passed.located {processId : ProcessId} {process : Process} {step : Process.Step}
    (passed : Passed system processId process step) {id : JobId}
    (unique : system.custody.Unique)
    (located : (system.advance processId step).custody.Located id) :
    system.custody.Located id := by
  cases passed with
  | stays _ custody | resets _ _ _ _ custody =>
      rw [custody] at located
      exact located
  | takes taken rest _ free front custody =>
      rw [custody, Custody.located_take free front] at located
      exact located
  | returns returned _ has custody =>
      rw [custody, Custody.located_giveBack unique has] at located
      exact located
  | ends _ _ _ _ custody | dismisses _ _ _ _ custody | loses _ _ custody =>
      rw [custody] at located
      exact Custody.located_of_release located

/-- A process that stores an end has the id in its hand, and lets it go. -/
theorem next_ends {processId : ProcessId} {process : Process} {evaluation : Evaluation}
    {saved : Job} (kept : system.Kept) (runs : system.processes processId = some process)
    (saves : (system.next process evaluation).1 = .saveJob saved)
    (finished : saved.state.finished = true) :
    system.custody.Located saved.id ∧
      ¬ (system.advance processId (system.next process evaluation)).custody.Located
          saved.id := by
  have handover : Process.Handover system.backend process
      (system.next process evaluation).1 (Process.held (system.next process evaluation)) :=
    Process.step_handover (kept.sound processId process runs) kept.keyed
  have held := held_inl runs
  generalize system.next process evaluation = step at handover saves ⊢
  obtain ⟨operation, behind⟩ := step
  cases saves
  generalize holds : Process.held (Operation.saveJob saved, behind) = after at handover
  cases handover with
  | quiet quiet => exact quiet.elim
  | ends has =>
      have custody : (system.advance processId (.saveJob saved, behind)).custody =
          system.custody.hold (.inl processId) none :=
        custody_advance_same holds rfl
      rw [custody, Custody.located_release kept.unique (held.trans has)]
      exact ⟨.inr ⟨.inl processId, held.trans has⟩, fun located => located.2 rfl⟩
  | resets _ unfinished =>
      rw [finished] at unfinished
      cases unfinished
  | loses quiet => exact quiet.elim

/-- Only `schedule` brings an id into the system, and a new one. -/
theorem located_step (kept : system.Kept) {action : Action} (fits : action.Once system)
    {id : JobId} (located : (system.step action).custody.Located id) :
    system.custody.Located id ∨
      system.created id = none ∧ (system.step action).created id ≠ none := by
  cases action with
  | work processId evaluation =>
      change (system.work processId evaluation).custody.Located id at located
      unfold work at located
      split at located
      · exact .inl located
      · rename_i process runs
        exact .inl ((next_passed evaluation kept.toProper runs).located kept.unique located)
  | launch processId workerId onetime pid =>
      change (system.launch processId workerId onetime pid).custody.Located id at located
      rw [custody_launch] at located
      exact .inl located
  | create other request =>
      by_cases given : other ≠ 0 ∧ system.backend.jobs other = none
      · have unknown : system.created other = none := fits
        by_cases same : id = other
        · right
          rw [same]
          refine ⟨unknown, ?_⟩
          have created : system.step (.create other request) = _ := if_pos given
          rw [created]
          change Function.update system.created other _ other ≠ none
          rw [Function.update_self]
          exact Option.some_ne_none _
        · left
          change (system.create other request).custody.Located id at located
          rw [custody_create other request given] at located
          rcases located with waits | ⟨holder, found⟩
          · exact .inl waits
          · rcases Custody.update_eq_some found with ⟨_, value⟩ | ⟨_, found⟩
            · exact absurd (Option.some.inj value).symm same
            · exact .inr ⟨holder, found⟩
      · have same : system.step (.create other request) = system := if_neg given
        rw [same] at located
        exact .inl located
  | put other =>
      by_cases member : other ∈ system.scheduling
      · change (system.put other).custody.Located id at located
        rw [custody_put member kept.drafts,
          Custody.located_giveBack kept.unique (held_of_draft member)] at located
        exact .inl located
      · have same : system.step (.put other) = system := if_neg member
        rw [same] at located
        exact .inl located
  | start other => exact fits.elim
  | halt =>
      rw [custody_halt] at located
      exact .inl located
  | load call other =>
      have same : (system.load call other).custody = system.custody := by
        unfold load
        split <;> rfl
      exact .inl (same ▸ located)
  | check call die =>
      have same : (system.check call die).custody = system.custody := by
        unfold check
        simp only [custody]
        split <;> rfl
      exact .inl (same ▸ located)
  | _ => exact .inl located

/-- A job whose end was stored is nowhere any more, and ended in one way. -/
structure Single (system : System) : Prop extends Kept system where
  known : ∀ id, system.custody.Located id → system.created id ≠ none
  ended : ∀ processId saved, (processId, Operation.saveJob saved) ∈ system.log →
    saved.state.finished = true →
    ¬ system.custody.Located saved.id ∧ system.created saved.id ≠ none
  alike : ∀ first second saved other, (first, Operation.saveJob saved) ∈ system.log →
    (second, Operation.saveJob other) ∈ system.log → saved.state.finished = true →
    other.state.finished = true → saved.id = other.id → saved.state = other.state

theorem orderly_of_once (single : system.Single) {action : Action}
    (fits : action.Once system) : action.Orderly system := by
  cases action with
  | create id request =>
      intro located
      exact single.known id located fits
  | start id => exact fits.elim
  | _ => trivial

/-- An end is stored of a job that is somewhere, and then nowhere any more. -/
theorem Single.stores {processId : ProcessId} {evaluation : Evaluation} {process : Process}
    (single : system.Single) {saved : Job} {worker : ProcessId}
    (runs : system.processes processId = some process)
    (same : (worker, Operation.saveJob saved) =
      (processId, (system.next process evaluation).1))
    (finished : saved.state.finished = true) :
    system.custody.Located saved.id ∧
      ¬ (system.step (.work processId evaluation)).custody.Located saved.id := by
  have step : system.step (.work processId evaluation) =
      system.advance processId (system.next process evaluation) := by
    rw [System.step, work, runs]
  rw [step]
  exact next_ends single.toKept runs (Prod.mk.inj same).2.symm finished

theorem step_single (single : system.Single) {action : Action} (fits : action.Once system) :
    (system.step action).Single := by
  have stays {id : JobId} (known : system.created id ≠ none) :
      (system.step action).created id ≠ none := by
    obtain ⟨first, known⟩ := Option.ne_none_iff_exists'.mp known
    rw [created_step (Action.freshIds_of_once fits) known]
    exact Option.some_ne_none first
  refine ⟨step_kept single.toKept (orderly_of_once single fits), ?_, ?_, ?_⟩
  · intro id located
    rcases located_step single.toKept fits located with before | ⟨_, known⟩
    · exact stays (single.known id before)
    · exact known
  · intro worker saved member finished
    rcases mem_log_step member with member | ⟨processId, evaluation, process, rfl, runs, same⟩
    · obtain ⟨absent, known⟩ := single.ended worker saved member finished
      refine ⟨?_, stays known⟩
      intro located
      rcases located_step single.toKept fits located with before | ⟨unknown, _⟩
      · exact absent before
      · exact known unknown
    · obtain ⟨before, absent⟩ := single.stores runs same finished
      exact ⟨absent, stays (single.known _ before)⟩
  · intro first second saved other member otherMember finished otherFinished same
    rcases mem_log_step member with
      earlier | ⟨processId, evaluation, process, rfl, runs, entry⟩
    · rcases mem_log_step otherMember with
        otherEarlier | ⟨processId, evaluation, process, rfl, runs, entry⟩
      · exact single.alike first second saved other earlier otherEarlier finished
          otherFinished same
      · have before := (single.stores runs entry otherFinished).1
        exact absurd (same ▸ before) (single.ended first saved earlier finished).1
    · have before := (single.stores runs entry finished).1
      rcases mem_log_step otherMember with
        otherEarlier | ⟨_, _, _, action, otherRuns, otherEntry⟩
      · exact absurd (same ▸ before)
          (single.ended second other otherEarlier otherFinished).1
      · cases action
        rw [runs] at otherRuns
        cases otherRuns
        cases entry.trans otherEntry.symm
        rfl

theorem run_single (now : Nat) (workers : WorkerId → WorkerObj) {actions : List Action}
    (fits : Along Action.Once step (initial now workers) actions) :
    (run now workers actions).Single := by
  apply run_keeps Single _ _ fits
  · intro system action single fits
    exact step_single single fits
  · refine ⟨initial_kept now workers, ?_, ?_, ?_⟩
    · rintro id (waits | ⟨holder, found⟩)
      · cases waits
      · cases holder <;> cases found
    · intro processId saved impossible
      cases impossible
    · intro first second saved other impossible
      cases impossible

theorem run_attested (now : Nat) (workers : WorkerId → WorkerObj) (actions : List Action) :
    (run now workers actions).Attested :=
  run_always Attested (fun _ action attested => step_attested attested action)
    (initial_attested now workers) actions

/-- A job is only executed when its dependencies have just been found done.  So
the order of execution is the one of the dependencies when no id is given
again, and failures stop what depends on them when no job is started again. -/
theorem run_inOrder (now : Nat) (workers : WorkerId → WorkerObj) (actions : List Action) :
    (run now workers actions).ScansStored ∧ Log.Ordered (run now workers actions).log ∧
      (Along Action.FreshIds step (initial now workers) actions →
        (run now workers actions).Topological) ∧
      (Along Action.Once step (initial now workers) actions →
        (run now workers actions).FailuresStop) := by
  have attested := run_attested now workers actions
  refine ⟨?_, attested.ordered, ?_, ?_⟩
  · intro processId process evaluation dep state _ scans
    exact (Process.step_tells evaluation).scanned scans
  · intro fresh
    have grounded := (run_recorded now workers fresh).grounded attested
    refine ⟨grounded, ?_⟩
    intro id cycle
    exact grounded.not_mem_of_cycle cycle
  · intro once
    have fresh : Along Action.FreshIds step (initial now workers) actions :=
      along_imp (fun _ _ => Action.freshIds_of_once) once
    rintro id dep needs ⟨processId, failed, stored, rfl, error⟩ executed
    obtain ⟨worker, saved, found, same, fine⟩ :=
      ((run_recorded now workers fresh).succeeded attested executed needs).saved
    have alike := (run_single now workers once).alike worker processId saved failed found stored
      (by rw [fine]; rfl) (by rw [error]; rfl) same
    rw [fine, error] at alike
    cases alike

end System

section

def requestBehind (dependencies : List JobId) : JobRequest :=
  { plainRequest with dependencies := dependencies }

/-- Two jobs are executed, the second behind the first. -/
def chainedRun : List Action :=
  [.create 1 plainRequest, .put 1, .create 2 (requestBehind [1]), .put 2,
    .launch 0 0 false 7] ++
    List.replicate 20 (.work 0 (.returned (some (.dict []))))

/-- Then the first is started again and fails, and a third one is executed
that depends on the second. -/
def restartedRun : List Action :=
  chainedRun ++ [.start 1, .create 3 (requestBehind [2]), .put 3] ++
    List.replicate 8 (.work 0 (.executionError [])) ++
    List.replicate 7 (.work 0 (.returned (some (.dict []))))

theorem run_inOrder_chained :
    (System.run 1 (fun _ => idleWorker) chainedRun).Topological ∧
      (System.run 1 (fun _ => idleWorker) chainedRun).FailuresStop := by
  obtain ⟨_, _, topological, failures⟩ :=
    System.run_inOrder 1 (fun _ => idleWorker) chainedRun
  constructor
  · apply topological
    refine ⟨rfl, trivial, rfl, trivial, trivial, ?_⟩
    apply along_of_forall
    intro state action member
    rw [List.eq_of_mem_replicate member]
    trivial
  · apply failures
    refine ⟨rfl, trivial, rfl, trivial, trivial, ?_⟩
    apply along_of_forall
    intro state action member
    rw [List.eq_of_mem_replicate member]
    trivial

/-- A job is executed behind a later one, which is deleted then, and whose id a
third one gets that depends on the first. -/
def reusedRun : List Action :=
  [.create 1 (requestBehind [2]), .create 2 plainRequest, .put 2, .put 1,
    .launch 0 0 false 7] ++
    List.replicate 20 (.work 0 (.returned (some (.dict [])))) ++
    [.delete 2, .create 2 (requestBehind [1])]

/-- With an id given again a job is on a cycle that was executed, and with a
job started again one is executed that needs a failed one. -/
theorem not_inOrder_again :
    (¬ ∀ now workers actions, (System.run now workers actions).Topological) ∧
      ¬ ∀ now workers actions, (System.run now workers actions).FailuresStop := by
  constructor
  · intro claim
    have acyclic := (claim 1 (fun _ => idleWorker) reusedRun).2
    have first : (System.run 1 (fun _ => idleWorker) reusedRun).DependsOn 1 2 :=
      ⟨(requestBehind [2]).job 1 1, rfl, List.mem_singleton_self 2⟩
    have second : (System.run 1 (fun _ => idleWorker) reusedRun).DependsOn 2 1 :=
      ⟨(requestBehind [1]).job 2 1, rfl, List.mem_singleton_self 1⟩
    have executed :
        Log.executed (System.run 1 (fun _ => idleWorker) reusedRun).log = [1, 2] := rfl
    apply acyclic 1 ((TransGen.single first).tail second)
    rw [executed]
    exact List.mem_cons_self
  · intro claim
    have stops := claim 1 (fun _ => idleWorker) restartedRun
    have third : (System.run 1 (fun _ => idleWorker) restartedRun).DependsOn 3 2 :=
      ⟨(requestBehind [2]).job 3 1, rfl, List.mem_singleton_self 2⟩
    have second : (System.run 1 (fun _ => idleWorker) restartedRun).DependsOn 2 1 :=
      ⟨(requestBehind [1]).job 2 1, rfl, List.mem_singleton_self 1⟩
    have failed : Log.Failed (System.run 1 (fun _ => idleWorker) restartedRun).log 1 := by
      refine ⟨0, { plainRequest.job 1 1 with timeStop := 1, state := .error }, ?_, rfl, rfl⟩
      apply List.mem_of_getElem? (i := 8)
      rfl
    have executed :
        Log.executed (System.run 1 (fun _ => idleWorker) restartedRun).log =
          [3, 1, 2, 1] := rfl
    apply stops 3 1 ((TransGen.single third).tail second) failed
    rw [executed]
    exact List.mem_cons_self

end

end JumpscaleX
