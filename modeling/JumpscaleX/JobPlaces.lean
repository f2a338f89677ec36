import JumpscaleX.Library.Custody
import JumpscaleX.MyJobsFactory

/-!
# Where the ids of the jobs are

An id waits in the start queue, or a process holds it, or a call of `schedule`
is about to put it.  A process holds the id that it took until it has put it
back or has stored how the job ended.
-/

namespace JumpscaleX

open Runs Stateful

/-- The id that a process at this place holds. -/
def Place.holds : Place → Option JobId
  | .reloading (some (.job jobid)) | .fetching jobid | .missing jobid => some jobid
  | .scanning job _ _ _ | .relaunching job | .requeueing job | .accepting job
  | .evaluating job | .failing job | .succeeding job => some job.id
  | _ => none

/-- `skip` and `relaunch` are only set together, and a job has the state that
it is about to be saved with. -/
def Place.Sound : Place → Prop
  | .scanning _ _ skip relaunch => skip = relaunch
  | .failing job => job.state = .error
  | .succeeding job => job.state = .ok
  | _ => True

def Token.id? : Token → Option JobId
  | .job id => some id
  | .halt => none

/-- The operation leaves the stored jobs and the start queue alone. -/
def Operation.Quiet : Operation → Prop
  | .get (some _) | .saveJob _ | .relaunch _ => False
  | _ => True

theorem Operation.Quiet.jobs {operation : Operation} (quiet : operation.Quiet)
    (backend : Backend) : (operation.apply backend).jobs = backend.jobs := by
  cases operation with
  | get res =>
      cases res with
      | none => rfl
      | some token => exact quiet.elim
  | saveJob job => exact quiet.elim
  | relaunch id => exact quiet.elim
  | _ => rfl

theorem Operation.Quiet.queueJobsStart {operation : Operation} (quiet : operation.Quiet)
    (backend : Backend) :
    (operation.apply backend).queueJobsStart = backend.queueJobsStart := by
  cases operation with
  | get res =>
      cases res with
      | none => rfl
      | some token => exact quiet.elim
  | saveJob job => exact quiet.elim
  | relaunch id => exact quiet.elim
  | _ => rfl

namespace Process

/-- The next step ends the process and leaves its job behind: it finds a
request to halt, a dependency that failed or is not there, a job that came back
while it was missing, or a result that cannot be stored. -/
def LosesJob (backend : Backend) (process : Process) : Prop :=
  match process.place with
  | .reloading (some (.job _)) => (backend.workers process.workerId).halt = true
  | .missing jobid => (backend.jobs jobid).isSome = true
  | .scanning _ (dep :: _) _ _ =>
      ∀ jobDep, backend.jobs dep = some jobDep → jobDep.state = .error
  | .succeeding job => ∀ result, JsonType.toData job.result ≠ .ok result
  | _ => False

/-- The id that the process behind a step holds. -/
def held (step : Step) : Option JobId :=
  step.2.bind (fun process => process.place.holds)

/-- What a step does with the id that the process holds. -/
inductive Handover (backend : Backend) (process : Process) :
    Operation → Option JobId → Prop where
  | quiet {operation : Operation} :
      operation.Quiet → Handover backend process operation process.place.holds
  | takesJob {id : JobId} {rest : List Token} :
      backend.queueJobsStart = .job id :: rest → process.place.holds = none →
      Handover backend process (.get (some (.job id))) (some id)
  | takesHalt {rest : List Token} :
      backend.queueJobsStart = .halt :: rest → process.place.holds = none →
      Handover backend process (.get (some .halt)) none
  | returns {id : JobId} :
      process.place.holds = some id → Handover backend process (.relaunch id) none
  | ends {job : Job} :
      process.place.holds = some job.id → job.state.finished = true →
      Handover backend process (.saveJob job) none
  | resets {job : Job} :
      process.place.holds = some job.id → job.state.finished = false →
      Handover backend process (.saveJob job) (some job.id)
  | dismisses {id : JobId} :
      process.place.holds = some id → backend.jobs id = none →
      Handover backend process .idle none
  | loses {operation : Operation} :
      operation.Quiet → process.LosesJob backend → Handover backend process operation none

theorem Handover.same {backend : Backend} {process : Process} {operation : Operation}
    {after : Option JobId} (quiet : operation.Quiet)
    (same : process.place.holds = after) : Handover backend process operation after :=
  same ▸ .quiet quiet

@[simp] theorem setResult_id (value : PyVal) (job : Job) :
    (job.setResult value).id = job.id := by
  unfold Job.setResult
  split <;> rfl

@[simp] theorem evaluated_holds (now : Nat) (job : Job) (evaluation : Evaluation) :
    (evaluated now job evaluation).holds = some job.id := by
  cases evaluation with
  | returned res => cases res <;> simp [evaluated, Place.holds]
  | _ => rfl

/-- The process behind a step, if it goes on, is at a place of a kind. -/
def Behind (kind : Place → Prop) (step : Step) : Prop :=
  ∀ next, step.2 = some next → kind next.place

namespace Behind

variable {kind : Place → Prop}

theorem goTo {operation : Operation} {process : Process} (holds : kind process.place) :
    Behind kind (operation, some process) := by
  intro next same
  cases same
  exact holds

theorem ended {operation : Operation} : Behind kind (operation, none) := by
  intro next impossible
  cases impossible

end Behind

section

variable {backend : Backend} {process : Process} {evaluation : Evaluation}

theorem polling_handover (place : process.place = .polling) :
    Handover backend process (process.polling backend).1 (held (process.polling backend)) := by
  have free : process.place.holds = none := by rw [place]; rfl
  unfold polling
  split
  · rename_i res rest front
    cases res with
    | job id => exact .takesJob front free
    | halt => exact .takesHalt front free
  · split
    · exact .same trivial (by rw [place]; simp [held, place, Place.holds])
    · exact .same trivial (by rw [place]; rfl)

theorem reloading_handover {res : Option Token} (place : process.place = .reloading res) :
    Handover backend process (process.reloading backend res).1
      (held (process.reloading backend res)) := by
  by_cases halts : (backend.workers process.workerId).halt = true
  · simp only [reloading, halts, if_true]
    cases res with
    | none => exact .same trivial (by rw [place]; rfl)
    | some token =>
        cases token with
        | halt => exact .same trivial (by rw [place]; rfl)
        | job jobid =>
            refine .loses trivial ?_
            rw [LosesJob, place]
            exact halts
  · simp only [reloading, halts]
    cases res with
    | none => exact .same trivial (by rw [place]; rfl)
    | some token => cases token <;> exact .same trivial (by rw [place]; rfl)

theorem fetching_handover {jobid : JobId} (place : process.place = .fetching jobid)
    (keyed : ∀ id job, backend.jobs id = some job → job.id = id) :
    Handover backend process (process.fetching backend jobid).1
      (held (process.fetching backend jobid)) := by
  unfold fetching
  split
  · exact .same trivial (by rw [place]; rfl)
  · rename_i job found
    refine .same trivial ?_
    rw [place]
    exact congrArg some (keyed jobid job found).symm

theorem missing_handover {jobid : JobId} (place : process.place = .missing jobid) :
    Handover backend process (process.missing backend jobid).1
      (held (process.missing backend jobid)) := by
  unfold missing
  split
  · rename_i found
    refine .loses trivial ?_
    rw [LosesJob, place]
    exact found
  · rename_i absent
    apply Handover.dismisses
    · rw [place]
      rfl
    · simpa using absent

theorem scanNext_handover {job : Job} {dep : JobId} {dependencies : List JobId}
    {skip relaunch : Bool}
    (place : process.place = .scanning job (dep :: dependencies) skip relaunch) :
    Handover backend process
      (process.scanNext backend job dep dependencies skip relaunch).1
      (held (process.scanNext backend job dep dependencies skip relaunch)) := by
  unfold scanNext
  split
  · rename_i absent
    refine .loses trivial ?_
    rw [LosesJob, place]
    intro jobDep found
    rw [absent] at found
    cases found
  · rename_i jobDep found
    split
    · rename_i failed
      rw [clean_dependencyFailed]
      refine .loses trivial ?_
      rw [LosesJob, place]
      intro other again
      rw [found] at again
      cases again
      exact failed
    · split <;> exact .same trivial (by rw [place]; rfl)

theorem scanned_handover {job : Job} {skip relaunch : Bool}
    (place : process.place = .scanning job [] skip relaunch)
    (sound : process.place.Sound) :
    Handover backend process (process.scanned job skip relaunch).1
      (held (process.scanned job skip relaunch)) := by
  rw [place] at sound
  have same : skip = relaunch := sound
  subst same
  cases skip <;> exact .same trivial (by rw [place]; rfl)

theorem failing_handover {job : Job} (place : process.place = .failing job)
    (sound : process.place.Sound) :
    Handover backend process (.saveJob job) none := by
  rw [place] at sound
  apply Handover.ends
  · rw [place]
    rfl
  · rw [show job.state = .error from sound]
    rfl

theorem succeeding_handover {job : Job} (place : process.place = .succeeding job)
    (sound : process.place.Sound) :
    Handover backend process (process.succeeding job).1 (held (process.succeeding job)) := by
  unfold succeeding
  split
  · rename_i problem failed
    refine .loses trivial ?_
    rw [LosesJob, place]
    intro result stored
    rw [failed] at stored
    cases stored
  · rename_i result stored
    rw [place] at sound
    apply Handover.ends
    · rw [place]
      rfl
    · change job.state.finished = true
      rw [show job.state = .ok from sound]
      rfl

theorem posted_handover {job : Job} {failed : Bool}
    (place : process.place = .posting job [] failed) :
    Handover backend process (process.posted backend failed).1
      (held (process.posted backend failed)) := by
  unfold posted
  split
  · split <;> exact .same trivial (by rw [place]; rfl)
  · split <;> exact .same trivial (by rw [place]; rfl)

theorem leaving_handover (place : process.place = .leaving) :
    Handover backend process (process.leaving backend).1
      (held (process.leaving backend)) := by
  unfold leaving
  split <;> exact .same trivial (by rw [place]; rfl)

/-- Every step of a process hands the id that it holds over as it should, or
ends with it. -/
theorem step_handover (sound : process.place.Sound)
    (keyed : ∀ id job, backend.jobs id = some job → job.id = id) :
    Handover backend process (process.step evaluation backend).1
      (held (process.step evaluation backend)) := by
  unfold step
  cases place : process.place with
  | starting => exact .same trivial (by rw [place]; rfl)
  | polling => exact polling_handover place
  | reloading res => exact reloading_handover place
  | waiting =>
      change Handover backend process (process.waiting backend).1
        (held (process.waiting backend))
      unfold waiting
      split <;> exact .same trivial (by rw [place]; rfl)
  | fetching jobid => exact fetching_handover place keyed
  | missing jobid => exact missing_handover place
  | scanning job dependencies skip relaunch =>
      cases dependencies with
      | nil => exact scanned_handover place sound
      | cons dep dependencies => exact scanNext_handover place
  | relaunching job => exact .resets (by rw [place]; rfl) rfl
  | requeueing job => exact .returns (by rw [place]; rfl)
  | accepting job => exact .same trivial (by rw [place]; rfl)
  | evaluating job =>
      exact .same trivial (by rw [place]; exact (evaluated_holds ..).symm)
  | failing job => exact failing_handover place sound
  | succeeding job => exact succeeding_handover place sound
  | posting job queueNames failed =>
      cases queueNames with
      | nil => exact posted_handover place
      | cons queueName queueNames => exact .same trivial (by rw [place]; rfl)
  | leaving => exact leaving_handover place

theorem evaluated_sound (now : Nat) (job : Job) (evaluation : Evaluation) :
    (evaluated now job evaluation).Sound := by
  cases evaluation with
  | returned res => cases res <;> rfl
  | _ => rfl

theorem step_sound (sound : process.place.Sound) :
    Behind Place.Sound (process.step evaluation backend) := by
  unfold step
  cases place : process.place with
  | starting => exact .goTo trivial
  | polling =>
      change Behind Place.Sound (process.polling backend)
      unfold polling
      split
      · exact .goTo trivial
      · split
        · exact .goTo sound
        · exact .goTo trivial
  | reloading res =>
      change Behind Place.Sound (process.reloading backend res)
      unfold reloading
      dsimp only
      split
      · exact .ended
      · split
        · exact .ended
        · exact .goTo trivial
        · exact .goTo trivial
  | waiting =>
      change Behind Place.Sound (process.waiting backend)
      unfold waiting
      split <;> exact .goTo trivial
  | fetching jobid =>
      change Behind Place.Sound (process.fetching backend jobid)
      unfold fetching
      split
      · exact .goTo trivial
      · exact .goTo rfl
  | missing jobid =>
      change Behind Place.Sound (process.missing backend jobid)
      unfold missing
      split
      · exact .ended
      · exact .goTo trivial
  | scanning job dependencies skip relaunch =>
      rw [place] at sound
      cases dependencies with
      | nil =>
          change Behind Place.Sound (process.scanned job skip relaunch)
          unfold scanned
          split
          · split <;> exact .goTo trivial
          · exact .goTo trivial
      | cons dep dependencies =>
          change Behind Place.Sound
            (process.scanNext backend job dep dependencies skip relaunch)
          unfold scanNext
          split
          · exact .ended
          · split
            · rw [clean_dependencyFailed]
              exact .ended
            · split
              · exact .goTo sound
              · exact .goTo rfl
  | relaunching job => exact .goTo trivial
  | requeueing job => exact .goTo trivial
  | accepting job => exact .goTo trivial
  | evaluating job => exact .goTo (evaluated_sound backend.now job evaluation)
  | failing job => exact .goTo trivial
  | succeeding job =>
      change Behind Place.Sound (process.succeeding job)
      unfold succeeding
      split
      · exact .ended
      · exact .goTo trivial
  | posting job queueNames failed =>
      cases queueNames with
      | nil =>
          change Behind Place.Sound (process.posted backend failed)
          unfold posted
          split
          · split
            · exact .ended
            · exact .goTo trivial
          · split <;> exact .goTo trivial
      | cons queueName queueNames => exact .goTo trivial
  | leaving =>
      change Behind Place.Sound (process.leaving backend)
      unfold leaving
      split
      · exact .ended
      · exact .goTo trivial

end

end Process

end JumpscaleX
