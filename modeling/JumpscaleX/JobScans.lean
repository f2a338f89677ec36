import JumpscaleX.JobCustody

/-!
# What a worker has seen of the dependencies

A process executes a job after it has scanned each of its dependencies in the
same iteration and found it done, and a job is only found done after some
process has executed it and stored it as `OK`.
-/

namespace JumpscaleX

open Runs Stateful

/-- What the processes did, the latest operation first. -/
abbrev Log := List (ProcessId × Operation)

/-- The operation begins an iteration of the loop. -/
def Operation.begins : Operation → Bool
  | .get _ => true
  | _ => false

/-- The operation scans, executes and saves no job. -/
def Operation.Silent : Operation → Prop
  | .scan _ _ | .evaluate _ _ | .saveJob _ => False
  | _ => True

namespace Log

/-- What was done since the process began its present iteration. -/
def iteration (processId : ProcessId) (log : Log) : Log :=
  log.takeWhile (fun entry => !(entry.1 = processId && entry.2.begins))

/-- The process found the dependency done in its present iteration. -/
def FoundDone (processId : ProcessId) (log : Log) (dep : JobId) : Prop :=
  ∃ state, state.fulfilled = true ∧
    (processId, Operation.scan dep state) ∈ iteration processId log

/-- The process executed the job in its present iteration. -/
def Executed (processId : ProcessId) (log : Log) (id : JobId) : Prop :=
  ∃ job evaluation, (processId, Operation.evaluate job evaluation) ∈ iteration processId log ∧
    job.id = id

/-- A process executed the job and then stored it as `OK`. -/
def Succeeded (log : Log) (id : JobId) : Prop :=
  ∃ processId saved earlier, (processId, Operation.saveJob saved) :: earlier <:+ log ∧
    saved.id = id ∧ saved.state = .ok ∧ Executed processId earlier id

/-- Whenever a process executed a job, it had found all dependencies done, and
they had been executed well before. -/
def Ordered (log : Log) : Prop :=
  ∀ processId job evaluation earlier,
    (processId, Operation.evaluate job evaluation) :: earlier <:+ log →
    ∀ dep ∈ job.dependencies, FoundDone processId earlier dep ∧ Succeeded earlier dep

variable {processId other : ProcessId} {operation : Operation} {log : Log} {id dep : JobId}

theorem iteration_other (different : other ≠ processId) :
    iteration processId ((other, operation) :: log) =
      (other, operation) :: iteration processId log := by
  simp [iteration, different]

theorem iteration_same (continues : operation.begins = false) :
    iteration processId ((processId, operation) :: log) =
      (processId, operation) :: iteration processId log := by
  simp [iteration, continues]

/-- An operation of another process, or one that begins no iteration, leaves
the iteration of a process as it is. -/
theorem mem_iteration_cons {entry : ProcessId × Operation}
    (goesOn : other ≠ processId ∨ operation.begins = false)
    (member : entry ∈ iteration processId log) :
    entry ∈ iteration processId ((other, operation) :: log) := by
  by_cases same : other = processId
  · subst same
    rw [iteration_same (goesOn.resolve_left (fun different => different rfl))]
    exact List.mem_cons_of_mem _ member
  · rw [iteration_other same]
    exact List.mem_cons_of_mem _ member

theorem FoundDone.cons (found : FoundDone processId log dep)
    (goesOn : other ≠ processId ∨ operation.begins = false) :
    FoundDone processId ((other, operation) :: log) dep := by
  obtain ⟨state, done, member⟩ := found
  exact ⟨state, done, mem_iteration_cons goesOn member⟩

theorem Executed.cons (executed : Executed processId log id)
    (goesOn : other ≠ processId ∨ operation.begins = false) :
    Executed processId ((other, operation) :: log) id := by
  obtain ⟨job, evaluation, member, same⟩ := executed
  exact ⟨job, evaluation, mem_iteration_cons goesOn member, same⟩

theorem Succeeded.cons (entry : ProcessId × Operation) (succeeded : Succeeded log id) :
    Succeeded (entry :: log) id := by
  obtain ⟨processId, saved, earlier, found, rest⟩ := succeeded
  exact ⟨processId, saved, earlier, found.trans (List.suffix_cons entry log), rest⟩

/-- A new operation keeps the order when it executes no job, or one whose
dependencies are done. -/
theorem Ordered.cons (ordered : Ordered log)
    (ready : ∀ job evaluation, operation = .evaluate job evaluation →
      ∀ dep ∈ job.dependencies, FoundDone processId log dep ∧ Succeeded log dep) :
    Ordered ((processId, operation) :: log) := by
  intro executor job evaluation earlier found
  rcases List.suffix_cons_iff.mp found with same | found
  · cases same
    exact ready job evaluation rfl
  · exact ordered executor job evaluation earlier found

end Log

/-- What a process at this place has done in its present iteration. -/
def Place.Done (processId : ProcessId) (log : Log) : Place → Prop
  | .scanning job rest skip _ =>
      skip = false → ∀ dep ∈ job.dependencies, dep ∈ rest ∨ log.FoundDone processId dep
  | .accepting job | .evaluating job =>
      ∀ dep ∈ job.dependencies, log.FoundDone processId dep
  | .failing job | .succeeding job => log.Executed processId job.id
  | _ => True

/-- It stays done when another process acts. -/
theorem Place.Done.cons {processId other : ProcessId} {log : Log} {place : Place}
    (done : place.Done processId log) (operation : Operation)
    (different : other ≠ processId) :
    place.Done processId ((other, operation) :: log) := by
  cases place with
  | scanning job rest skip relaunch =>
      intro unskipped dep member
      exact (done unskipped dep member).imp_right (·.cons (.inl different))
  | accepting job | evaluating job =>
      intro dep member
      exact (done dep member).cons (.inl different)
  | failing job | succeeding job => exact Log.Executed.cons done (.inl different)
  | _ => trivial

namespace Process

variable {backend : Backend} {process : Process} {processId : ProcessId} {log : Log}

/-- The place that a step leads to, if the process goes on, has been reached as
it should be. -/
abbrev Arrives (processId : ProcessId) (log : Log) (step : Step) : Prop :=
  Behind (Place.Done processId ((processId, step.1) :: log)) step

theorem scanNext_arrives {job : Job} {dep : JobId} {dependencies : List JobId}
    {skip relaunch : Bool}
    (done : (Place.scanning job (dep :: dependencies) skip relaunch).Done processId log) :
    Arrives processId log (process.scanNext backend job dep dependencies skip relaunch) := by
  unfold scanNext
  split
  · exact Behind.ended
  · rename_i jobDep _
    split
    · rw [clean_dependencyFailed]
      exact Behind.ended
    · split
      · rename_i fulfilled
        apply Behind.goTo
        intro unskipped other member
        rcases done unskipped other member with waits | found
        · rcases List.mem_cons.mp waits with rfl | waits
          · right
            refine ⟨jobDep.state, fulfilled, ?_⟩
            rw [Log.iteration_same rfl]
            exact List.mem_cons_self
          · exact .inl waits
        · exact .inr (found.cons (.inr rfl))
      · apply Behind.goTo
        intro impossible
        cases impossible

theorem step_arrives (evaluation : Evaluation) (done : process.place.Done processId log) :
    Arrives processId log (process.step evaluation backend) := by
  unfold step
  cases place : process.place with
  | starting => exact Behind.goTo trivial
  | polling =>
      change Arrives processId log (process.polling backend)
      unfold polling
      split
      · exact Behind.goTo trivial
      · split
        · apply Behind.goTo
          rw [place]
          trivial
        · exact Behind.goTo trivial
  | reloading res =>
      change Arrives processId log (process.reloading backend res)
      unfold reloading
      simp only
      split
      · exact Behind.ended
      · split
        · exact Behind.ended
        · exact Behind.goTo trivial
        · exact Behind.goTo trivial
  | waiting =>
      change Arrives processId log (process.waiting backend)
      unfold waiting
      split <;> exact Behind.goTo trivial
  | fetching jobid =>
      change Arrives processId log (process.fetching backend jobid)
      unfold fetching
      split
      · exact Behind.goTo trivial
      · apply Behind.goTo
        intro _ dep member
        exact .inl member
  | missing jobid =>
      change Arrives processId log (process.missing backend jobid)
      unfold missing
      split
      · exact Behind.ended
      · exact Behind.goTo trivial
  | scanning job dependencies skip relaunch =>
      rw [place] at done
      cases dependencies with
      | cons dep dependencies => exact scanNext_arrives done
      | nil =>
          change Arrives processId log (process.scanned job skip relaunch)
          unfold scanned
          split
          · split <;> exact Behind.goTo trivial
          · rename_i unskipped
            apply Behind.goTo
            intro dep member
            rcases done (eq_false_of_ne_true unskipped) dep member with impossible | found
            · cases impossible
            · exact found.cons (.inr rfl)
  | relaunching job => exact Behind.goTo trivial
  | requeueing job => exact Behind.goTo trivial
  | accepting job =>
      rw [place] at done
      apply Behind.goTo
      intro dep member
      exact (done dep member).cons (.inr rfl)
  | evaluating job =>
      have executed : Log.Executed processId
          ((processId, .evaluate job evaluation) :: log) job.id := by
        refine ⟨job, evaluation, ?_, rfl⟩
        rw [Log.iteration_same rfl]
        exact List.mem_cons_self
      apply Behind.goTo
      cases evaluation with
      | returned res =>
          cases res with
          | none => exact executed
          | some res =>
              change Log.Executed processId _ (job.setResult res).id
              rw [setResult_id]
              exact executed
      | _ => exact executed
  | failing job => exact Behind.goTo trivial
  | succeeding job =>
      change Arrives processId log (process.succeeding job)
      unfold succeeding
      split
      · exact Behind.ended
      · exact Behind.goTo trivial
  | posting job queueNames failed =>
      cases queueNames with
      | cons queueName queueNames => exact Behind.goTo trivial
      | nil =>
          change Arrives processId log (process.posted backend failed)
          unfold posted
          split
          · split
            · exact Behind.ended
            · exact Behind.goTo trivial
          · split <;> exact Behind.goTo trivial
  | leaving =>
      change Arrives processId log (process.leaving backend)
      unfold leaving
      split
      · exact Behind.ended
      · exact Behind.goTo trivial

/-- What a step tells about jobs, and from which place it does so. -/
inductive Tells (backend : Backend) (process : Process) : Operation → Prop where
  | nothing {operation : Operation} : operation.Silent → Tells backend process operation
  | scans {job jobDep : Job} {dep : JobId} {dependencies : List JobId}
      {skip relaunch : Bool} :
      process.place = .scanning job (dep :: dependencies) skip relaunch →
      backend.jobs dep = some jobDep → Tells backend process (.scan dep jobDep.state)
  | evaluates {job : Job} {evaluation : Evaluation} :
      process.place = .evaluating job → Tells backend process (.evaluate job evaluation)
  | resets {job : Job} :
      process.place = .relaunching job →
      Tells backend process (.saveJob { job with state := .new })
  | fails {job : Job} :
      process.place = .failing job → Tells backend process (.saveJob job)
  | succeeds {job : Job} {result : PyVal} :
      process.place = .succeeding job →
      Tells backend process (.saveJob { job with result := result })

theorem step_tells (evaluation : Evaluation) :
    Tells backend process (process.step evaluation backend).1 := by
  unfold step
  cases place : process.place with
  | polling =>
      change Tells backend process (process.polling backend).1
      unfold polling
      split
      · exact .nothing trivial
      · split <;> exact .nothing trivial
  | reloading res =>
      change Tells backend process (process.reloading backend res).1
      unfold reloading
      simp only
      split
      · exact .nothing trivial
      · split <;> exact .nothing trivial
  | waiting =>
      change Tells backend process (process.waiting backend).1
      unfold waiting
      split
      · exact .nothing trivial
      · exact .nothing trivial
  | fetching jobid =>
      change Tells backend process (process.fetching backend jobid).1
      unfold fetching
      split <;> exact .nothing trivial
  | missing jobid =>
      change Tells backend process (process.missing backend jobid).1
      unfold missing
      split <;> exact .nothing trivial
  | scanning job dependencies skip relaunch =>
      cases dependencies with
      | nil =>
          change Tells backend process (process.scanned job skip relaunch).1
          unfold scanned
          split
          · split <;> exact .nothing trivial
          · exact .nothing trivial
      | cons dep dependencies =>
          change Tells backend process
            (process.scanNext backend job dep dependencies skip relaunch).1
          unfold scanNext
          split
          · exact .nothing trivial
          · rename_i jobDep found
            split
            · rw [clean_dependencyFailed]
              exact .nothing trivial
            · split <;> exact .scans place found
  | relaunching job => exact .resets place
  | evaluating job => exact .evaluates place
  | failing job => exact .fails place
  | succeeding job =>
      change Tells backend process (process.succeeding job).1
      unfold succeeding
      split
      · exact .nothing trivial
      · exact .succeeds place
  | posting job queueNames failed =>
      cases queueNames with
      | cons queueName queueNames => exact .nothing trivial
      | nil =>
          change Tells backend process (process.posted backend failed).1
          unfold posted
          split
          · split <;> exact .nothing trivial
          · split
            · exact .nothing trivial
            · exact .nothing trivial
  | leaving =>
      change Tells backend process (process.leaving backend).1
      unfold leaving
      split <;> exact .nothing trivial
  | starting | requeueing job | accepting job => exact .nothing trivial

namespace Tells

variable {operation : Operation}

/-- What a scan reports is what is stored. -/
theorem scanned {dep : JobId} {state : JobState} (tells : Tells backend process operation)
    (scans : operation = .scan dep state) :
    ∃ jobDep, backend.jobs dep = some jobDep ∧ jobDep.state = state := by
  cases tells with
  | nothing silent =>
      rw [scans] at silent
      exact silent.elim
  | scans _ found =>
      cases scans
      exact ⟨_, found, rfl⟩
  | evaluates | resets | fails | succeeds => cases scans

theorem executing {job : Job} {evaluation : Evaluation}
    (tells : Tells backend process operation)
    (executes : operation = .evaluate job evaluation) : process.place = .evaluating job := by
  cases tells with
  | nothing silent =>
      rw [executes] at silent
      exact silent.elim
  | evaluates place =>
      cases executes
      exact place
  | scans | resets | fails | succeeds => cases executes

/-- A job is stored as done only behind an action that went well. -/
theorem fulfilling {saved : Job} (tells : Tells backend process operation)
    (sound : process.place.Sound) (saves : operation = .saveJob saved)
    (fulfilled : saved.state.fulfilled = true) :
    saved.state = .ok ∧
      ∃ job, process.place = .succeeding job ∧ saved.id = job.id := by
  cases tells with
  | nothing silent =>
      rw [saves] at silent
      exact silent.elim
  | scans | evaluates => cases saves
  | resets =>
      cases saves
      cases fulfilled
  | fails place =>
      cases saves
      rw [place] at sound
      have failed : saved.state = .error := sound
      rw [failed] at fulfilled
      cases fulfilled
  | succeeds place =>
      cases saves
      rw [place] at sound
      exact ⟨sound, _, place, rfl⟩

end Tells

end Process

end JumpscaleX
