import JumpscaleX.JobPlaces

/-!
# How a process works on a job

A process works on the copy of a job that it loaded until it stores how the job
ended or that the job is new again.  Behind an end it puts the result on the
return queues.
-/

namespace JumpscaleX

/-- The copy that a process at this place is about to execute or to save. -/
def Place.works : Place → Option Job
  | .scanning job _ _ _ | .relaunching job | .accepting job | .evaluating job
  | .failing job | .succeeding job => some job
  | _ => none

/-- The job whose result is being put, and the return queues that still lack it. -/
def Place.posts : Place → Option (Job × List String)
  | .posting job queueNames _ => some (job, queueNames)
  | _ => none

/-- The operation neither saves or executes a job nor puts a result. -/
def Operation.Mute : Operation → Prop
  | .saveJob _ | .evaluate _ _ | .post _ _ => False
  | _ => True

/-- The operation does so at most by executing the given job. -/
def Operation.Executes (job : Job) : Operation → Prop
  | .saveJob _ | .post _ _ => False
  | .evaluate executed _ => executed = job
  | _ => True

/-- Another copy of the same job. -/
def Job.Same (first second : Job) : Prop :=
  first.id = second.id ∧ first.dependencies = second.dependencies ∧
    first.returnQueues = second.returnQueues

namespace Job.Same

variable {first second third : Job}

theorem refl (job : Job) : job.Same job := ⟨rfl, rfl, rfl⟩

theorem trans (before : first.Same second) (after : second.Same third) :
    first.Same third :=
  ⟨before.1.trans after.1, before.2.1.trans after.2.1, before.2.2.trans after.2.2⟩

theorem symm (same : first.Same second) : second.Same first :=
  ⟨same.1.symm, same.2.1.symm, same.2.2.symm⟩

end Job.Same

namespace Process

theorem setResult_same (value : PyVal) (job : Job) : (job.setResult value).Same job := by
  unfold Job.setResult
  split <;> exact .refl _

theorem evaluated_works (now : Nat) (job : Job) (evaluation : Evaluation) :
    ∃ after, (evaluated now job evaluation).works = some after ∧ after.Same job ∧
      (evaluated now job evaluation).posts = none := by
  cases evaluation with
  | returned res =>
      cases res with
      | none => exact ⟨_, rfl, .refl job, rfl⟩
      | some res => exact ⟨_, rfl, setResult_same res job, rfl⟩
  | _ => exact ⟨_, rfl, .refl job, rfl⟩

/-- The job that the process behind a step works on. -/
def working (step : Step) : Option Job :=
  step.2.bind (fun process => process.place.works)

def posting (step : Step) : Option (Job × List String) :=
  step.2.bind (fun process => process.place.posts)

/-- What a step does with the job that the process works on. -/
inductive Progress (backend : Backend) (process : Process) :
    Operation → Option Job → Option (Job × List String) → Prop where
  | idles {operation : Operation} :
      operation.Mute →
      Progress backend process operation process.place.works process.place.posts
  | begins {id : JobId} {stored : Job} :
      process.place = .fetching id → backend.jobs id = some stored →
      Progress backend process (.load id)
        (some { stored with timeStart := backend.now }) none
  | works {operation : Operation} {before after : Job} :
      process.place.works = some before → process.place.posts = none →
      after.Same before → operation.Executes before →
      Progress backend process operation (some after) none
  | resets {job : Job} :
      process.place.works = some job → process.place.posts = none →
      Progress backend process (.saveJob { job with state := .new }) none none
  | ends {job saved : Job} :
      process.place.works = some job → process.place.posts = none →
      job.state.finished = true → saved = { job with result := saved.result } →
      (process.place = .succeeding job ∧ JsonType.toData job.result = .ok saved.result ∨
        saved.result = job.result) →
      Progress backend process (.saveJob saved) none (some (job, job.returnQueues))
  | posts {job : Job} {queueName : String} {queueNames : List String} :
      process.place.posts = some (job, queueName :: queueNames) →
      process.place.works = none →
      Progress backend process (.post queueName job.message) none (some (job, queueNames))
  | posted {operation : Operation} {job : Job} :
      process.place.posts = some (job, []) → process.place.works = none →
      operation.Mute → Progress backend process operation none none
  | drops {operation : Operation} :
      process.place.posts = none → operation.Mute →
      Progress backend process operation none none

/-- A step works on the job of the process as it should. -/
abbrev Progresses (backend : Backend) (process : Process) (step : Step) : Prop :=
  Progress backend process step.1 (working step) (posting step)

namespace Progress

variable {backend : Backend} {process : Process} {operation : Operation}
  {worksBehind : Option Job} {postsBehind : Option (Job × List String)}

/-- A process saves a copy of the job that it works on. -/
theorem saved {job : Job} (progress : Progress backend process operation worksBehind postsBehind)
    (saves : operation = .saveJob job) :
    ∃ old, process.place.works = some old ∧ job.Same old := by
  cases progress with
  | idles mute | posted _ _ mute | drops _ mute =>
      rw [saves] at mute
      exact mute.elim
  | begins | posts => cases saves
  | works _ _ _ executes =>
      rw [saves] at executes
      exact executes.elim
  | resets works =>
      cases saves
      exact ⟨_, works, .refl _⟩
  | ends works _ _ copy =>
      cases saves
      refine ⟨_, works, ?_⟩
      rw [copy]
      exact .refl _

/-- A process works on a copy of what it worked on before or of what it loaded. -/
theorem working {job : Job} (progress : Progress backend process operation worksBehind postsBehind)
    (works : worksBehind = some job) :
    (∃ old, process.place.works = some old ∧ job.Same old) ∨
      ∃ id stored, backend.jobs id = some stored ∧ job.Same stored := by
  cases progress with
  | idles => exact .inl ⟨job, works, .refl job⟩
  | begins place found =>
      cases works
      exact .inr ⟨_, _, found, .refl _⟩
  | works before _ same =>
      cases works
      exact .inl ⟨_, before, same⟩
  | resets | ends | posts | posted | drops => cases works

/-- A process puts the result of a copy that it worked on or whose result it
has put on other queues before. -/
theorem posting {job : Job} {queueNames : List String}
    (progress : Progress backend process operation worksBehind postsBehind)
    (posts : postsBehind = some (job, queueNames)) :
    (process.place.works = some job ∧ queueNames = job.returnQueues) ∨
      ∃ names, process.place.posts = some (job, names) ∧ queueNames ⊆ names := by
  cases progress with
  | idles => exact .inr ⟨queueNames, posts, List.Subset.refl queueNames⟩
  | ends works =>
      cases posts
      exact .inl ⟨works, rfl⟩
  | posts before =>
      cases posts
      exact .inr ⟨_, before, List.subset_cons_self _ _⟩
  | begins | works | resets | posted | drops => cases posts

theorem post {queueName : String} {message : ResultMessage}
    (progress : Progress backend process operation worksBehind postsBehind)
    (puts : operation = .post queueName message) :
    ∃ job queueNames, process.place.posts = some (job, queueName :: queueNames) := by
  cases progress with
  | idles mute | posted _ _ mute | drops _ mute =>
      rw [puts] at mute
      exact mute.elim
  | works _ _ _ executes =>
      rw [puts] at executes
      exact executes.elim
  | posts before =>
      cases puts
      exact ⟨_, _, before⟩
  | begins | resets | ends => cases puts

end Progress

section

variable {backend : Backend} {process : Process} {evaluation : Evaluation}

theorem scanNext_progress {job : Job} {dep : JobId} {dependencies : List JobId}
    {skip relaunch : Bool}
    (place : process.place = .scanning job (dep :: dependencies) skip relaunch) :
    Progresses backend process
      (process.scanNext backend job dep dependencies skip relaunch) := by
  have works : process.place.works = some job := by rw [place]; rfl
  have unposted : process.place.posts = none := by rw [place]; rfl
  unfold scanNext
  split
  · exact .drops unposted trivial
  · split
    · rw [clean_dependencyFailed]
      exact .drops unposted trivial
    · split
      · exact .works works unposted (.refl job) trivial
      · exact .works works unposted (.refl job) trivial

theorem succeeding_progress {job : Job} (place : process.place = .succeeding job)
    (ended : job.state.finished = true) :
    Progresses backend process (process.succeeding job) := by
  have works : process.place.works = some job := by rw [place]; rfl
  have unposted : process.place.posts = none := by rw [place]; rfl
  unfold succeeding
  split
  · exact .drops unposted trivial
  · rename_i result stored
    exact .ends works unposted ended rfl (.inl ⟨place, stored⟩)

/-- Every step of a process works on its job as it should. -/
theorem step_progress (sound : process.place.Sound) :
    Progresses backend process (process.step evaluation backend) := by
  unfold step
  cases place : process.place with
  | starting => exact .drops (by rw [place]; rfl) trivial
  | polling =>
      change Progresses backend process (process.polling backend)
      unfold polling
      split
      · exact .drops (by rw [place]; rfl) trivial
      · split
        · exact .idles trivial
        · exact .drops (by rw [place]; rfl) trivial
  | reloading res =>
      have unposted : process.place.posts = none := by rw [place]; rfl
      change Progresses backend process (process.reloading backend res)
      unfold reloading
      dsimp only
      split
      · exact .drops unposted trivial
      · split <;> exact .drops unposted trivial
  | waiting =>
      change Progresses backend process (process.waiting backend)
      unfold waiting
      split <;> exact .drops (by rw [place]; rfl) trivial
  | fetching jobid =>
      change Progresses backend process (process.fetching backend jobid)
      unfold fetching
      split
      · exact .drops (by rw [place]; rfl) trivial
      · rename_i stored found
        exact .begins place found
  | missing jobid =>
      change Progresses backend process (process.missing backend jobid)
      unfold missing
      split <;> exact .drops (by rw [place]; rfl) trivial
  | scanning job dependencies skip relaunch =>
      cases dependencies with
      | nil =>
          change Progresses backend process (process.scanned job skip relaunch)
          have works : process.place.works = some job := by rw [place]; rfl
          have unposted : process.place.posts = none := by rw [place]; rfl
          unfold scanned
          split
          · split
            · exact .works works unposted (.refl job) trivial
            · exact .drops unposted trivial
          · exact .works works unposted (.refl job) trivial
      | cons dep dependencies => exact scanNext_progress place
  | relaunching job => exact .resets (by rw [place]; rfl) (by rw [place]; rfl)
  | requeueing job => exact .drops (by rw [place]; rfl) trivial
  | accepting job =>
      exact .works (by rw [place]; rfl) (by rw [place]; rfl) (.refl job) trivial
  | evaluating job =>
      obtain ⟨after, works, same, unposted⟩ := evaluated_works backend.now job evaluation
      change Progress backend process (.evaluate job evaluation)
        (evaluated backend.now job evaluation).works
        (evaluated backend.now job evaluation).posts
      rw [works, unposted]
      exact .works (by rw [place]; rfl) (by rw [place]; rfl) same rfl
  | failing job =>
      rw [place] at sound
      have failed : job.state = .error := sound
      refine .ends (by rw [place]; rfl) (by rw [place]; rfl) ?_ rfl (.inr rfl)
      rw [failed]
      rfl
  | succeeding job =>
      rw [place] at sound
      have fine : job.state = .ok := sound
      apply succeeding_progress place
      rw [fine]
      rfl
  | posting job queueNames failed =>
      cases queueNames with
      | nil =>
          have posts : process.place.posts = some (job, []) := by rw [place]; rfl
          have idle : process.place.works = none := by rw [place]; rfl
          change Progresses backend process (process.posted backend failed)
          unfold posted
          split
          · split <;> exact .posted posts idle trivial
          · split <;> exact .posted posts idle trivial
      | cons queueName queueNames =>
          exact .posts (by rw [place]; rfl) (by rw [place]; rfl)
  | leaving =>
      change Progresses backend process (process.leaving backend)
      unfold leaving
      split <;> exact .drops (by rw [place]; rfl) trivial

end

end Process

end JumpscaleX
