import JumpscaleX.JobLedger
import JumpscaleX.JobsKept

/-!
# Every job ends once

A job whose stored state is `OK` or `ERROR` keeps it together with its result,
is not executed again, and has one message on each of its return queues, as
long as no process loads a job that has ended or that another process works on,
`check_ready` does not save an older copy over the end of a job, and the result
is one that the json type keeps.
-/

namespace JumpscaleX

open Runs Stateful

namespace System

variable {system : System}

/-! ### Actions other than the steps of processes -/

/-- An action that moves no process that works on or puts the result of a job. -/
theorem Ledger.of_same {after : System} (ledger : system.Ledger) (traced : after.Traced)
    (created : after.created = system.created) (working : after.working = system.working)
    (posting : after.posting = system.posting)
    (jobs : ∀ id job, after.backend.jobs id = some job → system.backend.jobs id = some job)
    (loaded : ∀ call job, after.loaded call = some job → system.loaded call = some job)
    (log : after.log = system.log) : after.Ledger := by
  refine ledger.shrinks traced created ?_ posting jobs loaded ?_
  · intro processId job works
    exact ⟨job, working ▸ works, .refl job⟩
  · intro id queueName
    rw [messages, log, messages]

theorem create_ledger {id : JobId} {request : JobRequest} (ledger : system.Ledger)
    (traced : (system.create id request).Traced)
    (given : id ≠ 0 ∧ system.backend.jobs id = none)
    (fits : (Action.create id request).EndsOnce system) :
    (system.create id request).Ledger := by
  obtain ⟨unknown, distinct⟩ := fits
  rw [create, if_pos given] at traced ⊢
  have jobs {other : JobId} {job : Job}
      (found : Function.update system.backend.jobs id
        (some (request.job id system.backend.now)) other = some job) :
      (other = id ∧ job = request.job id system.backend.now) ∨
        (other ≠ id ∧ system.backend.jobs other = some job) := by
    rcases Custody.update_eq_some found with ⟨same, value⟩ | elsewhere
    · exact .inl ⟨same, (Option.some.inj value).symm⟩
    · exact .inr elsewhere
  have elsewhere {job : Job} (copy : system.Copy job) : job.id ≠ id := by
    intro same
    obtain ⟨first, known, _⟩ := ledger.copied job copy
    rw [same, unknown] at known
    cases known
  refine ⟨traced, ?_, ledger.alone, ?_, ?_, ledger.poster, ledger.posts, ?_⟩
  · intro other job known
    rcases Custody.update_eq_some known with ⟨_, value⟩ | ⟨_, known⟩
    · cases value
      exact distinct
    · exact ledger.distinct other job known
  · intro job shows
    have before : system.EndsAs job ∧ job.id ≠ id := by
      cases shows with
      | stored found finished =>
          rcases jobs found with ⟨_, rfl⟩ | ⟨different, found⟩
          · cases finished
          · exact ⟨ledger.ends job (.stored found finished), different⟩
      | posting processId queueNames posts =>
          exact ⟨ledger.ends job (.posting processId queueNames posts),
            elsewhere (.posting processId queueNames posts)⟩
      | loaded call found finished =>
          exact ⟨ledger.ends job (.loaded call found finished),
            elsewhere (.loaded call found)⟩
    obtain ⟨ends, different⟩ := before
    refine ⟨ends.finished, ends.idle, ?_, ?_⟩
    · intro other found
      rcases jobs found with ⟨same, _⟩ | ⟨_, found⟩
      · exact absurd same different
      · exact ends.stored other found
    · change Function.update system.created id _ job.id ≠ none
      rw [Function.update_of_ne different]
      exact ends.known
  · intro other unended
    change ∀ queueName, system.messages other queueName = []
    apply ledger.silent
    cases unended with
    | unknown unborn =>
        by_cases same : other = id
        · exact .unknown (same ▸ unknown)
        · exact .unknown ((Function.update_of_ne same _ _).symm.trans unborn)
    | working processId job works same => exact .working processId job works same
    | stored job found unfinished =>
        rcases jobs found with ⟨same, _⟩ | ⟨_, found⟩
        · exact .unknown (same ▸ unknown)
        · exact .stored job found unfinished
  · intro job ended
    rcases jobs ended.1 with ⟨_, same⟩ | ⟨_, found⟩
    · rw [same] at ended
      cases ended.2
    · exact ledger.delivered job ⟨found, ended.2⟩

theorem load_ledger {call : Nat} {id : JobId} (ledger : system.Ledger)
    (traced : (system.load call id).Traced) : (system.load call id).Ledger := by
  unfold load at traced ⊢
  split at traced
  · exact ledger
  · rename_i job found
    have keyed := ledger.keyed id job found
    subst keyed
    refine ⟨traced, ledger.distinct, ledger.alone, ?_, ?_, ledger.poster, ledger.posts,
      ledger.delivered⟩
    · intro other shows
      have before : system.EndsAs other := by
        apply ledger.ends
        cases shows with
        | stored found finished => exact .stored found finished
        | posting processId queueNames posts => exact .posting processId queueNames posts
        | loaded another value finished =>
            rcases Custody.update_eq_some value with ⟨_, value⟩ | ⟨_, value⟩
            · cases value
              exact .stored found finished
            · exact .loaded another value finished
      exact ⟨before.finished, before.idle, before.stored, before.known⟩
    · intro other unended
      apply ledger.silent other
      cases unended with
      | unknown unknown => exact .unknown unknown
      | working processId job works same => exact .working processId job works same
      | stored job found unfinished => exact .stored job found unfinished

/-- The stored job ends as the copy that `check_ready` saves. -/
theorem checked_end {call : Nat} {die : Bool} {saved stored : Job} (ledger : system.Ledger)
    (saves : system.checked call die = some saved)
    (found : system.backend.jobs saved.id = some stored)
    (kept : stored.state.finished = true →
      saved.state = stored.state ∧ saved.result = stored.result) :
    saved.state.finished = stored.state.finished ∧
      (saved.state.finished = true →
        saved.state = stored.state ∧ saved.result = stored.result) := by
  obtain ⟨job, value, same, state, result⟩ := checked_copy saves
  by_cases finished : saved.state.finished = true
  · have ends := ledger.ends job (.loaded call value (state ▸ finished))
    obtain ⟨storedState, storedResult⟩ := ends.stored stored (same.1 ▸ found)
    refine ⟨?_, fun _ => ⟨?_, ?_⟩⟩
    · rw [state, storedState]
    · rw [state, storedState]
    · rw [result, storedResult]
  · refine ⟨?_, fun impossible => absurd impossible finished⟩
    by_contra different
    have ended : stored.state.finished = true := by simp_all
    exact finished ((kept ended).1 ▸ ended)

theorem EndsAs.check {call : Nat} {die : Bool} {job : Job} (ends : system.EndsAs job)
    (fits : (Action.check call die).EndsOnce system) :
    (system.check call die).EndsAs job := by
  cases saves : system.checked call die with
  | none =>
      rw [check_same saves]
      exact ⟨ends.finished, ends.idle, ends.stored, ends.known⟩
  | some saved =>
      rw [check_saves saves]
      refine ⟨ends.finished, ends.idle, ?_, ends.known⟩
      intro other found
      rcases Custody.update_eq_some found with ⟨same, value⟩ | ⟨_, found⟩
      · cases value
        obtain ⟨stored, found, kept⟩ := fits saved saves
        obtain ⟨state, result⟩ := ends.stored stored (same ▸ found)
        obtain ⟨savedState, savedResult⟩ := kept (state ▸ ends.finished)
        exact ⟨savedState.trans state, savedResult.trans result⟩
      · exact ends.stored other found

theorem check_ledger {call : Nat} {die : Bool} (ledger : system.Ledger)
    (traced : (system.check call die).Traced)
    (fits : (Action.check call die).EndsOnce system) :
    (system.check call die).Ledger := by
  have keeps {job : Job} (ends : system.EndsAs job) : (system.check call die).EndsAs job :=
    ends.check fits
  cases saves : system.checked call die with
  | none =>
      rw [check_same saves] at traced ⊢
      refine ledger.of_same traced rfl rfl rfl (fun _ _ found => found) ?_ rfl
      intro other job value
      rcases Custody.update_eq_some value with ⟨_, impossible⟩ | ⟨_, value⟩
      · cases impossible
      · exact value
  | some saved =>
      obtain ⟨stored, present, kept⟩ := fits saved saves
      obtain ⟨alike, ending⟩ := checked_end ledger saves present kept
      obtain ⟨loadedJob, loadedValue, loadedSame, _⟩ := checked_copy saves
      obtain ⟨first, known, firstSame⟩ := ledger.copied loadedJob (.loaded call loadedValue)
      have keyed : stored.id = saved.id := ledger.keyed saved.id stored present
      rw [check_saves saves] at traced keeps ⊢
      have jobs {id : JobId} {job : Job}
          (found : Function.update system.backend.jobs saved.id (some saved) id = some job) :
          (id = saved.id ∧ job = saved) ∨
            (id ≠ saved.id ∧ system.backend.jobs id = some job) := by
        rcases Custody.update_eq_some found with ⟨same, value⟩ | elsewhere
        · exact .inl ⟨same, (Option.some.inj value).symm⟩
        · exact .inr elsewhere
      have loaded {other : Nat} {job : Job}
          (value : Function.update system.loaded call none other = some job) :
          system.loaded other = some job := by
        rcases Custody.update_eq_some value with ⟨_, impossible⟩ | ⟨_, value⟩
        · cases impossible
        · exact value
      refine ⟨traced, ledger.distinct, ledger.alone, ?_, ?_, ledger.poster, ledger.posts,
        ?_⟩
      · intro job shows
        apply keeps
        cases shows with
        | stored found finished =>
            rcases jobs found with ⟨_, rfl⟩ | ⟨_, found⟩
            · have ends := ledger.ends stored
                (.stored (keyed.symm ▸ present) (alike ▸ finished))
              obtain ⟨state, result⟩ := ending finished
              refine ⟨finished, keyed ▸ ends.idle, ?_, keyed ▸ ends.known⟩
              intro other found
              rw [present] at found
              cases found
              exact ⟨state.symm, result.symm⟩
            · exact ledger.ends job (.stored found finished)
        | posting processId queueNames posts =>
            exact ledger.ends job (.posting processId queueNames posts)
        | loaded other value finished =>
            exact ledger.ends job (.loaded other (loaded value) finished)
      · intro id unended
        change ∀ queueName, system.messages id queueName = []
        apply ledger.silent
        cases unended with
        | unknown unknown => exact .unknown unknown
        | working processId job works same => exact .working processId job works same
        | stored job found unfinished =>
            rcases jobs found with ⟨rfl, rfl⟩ | ⟨_, found⟩
            · exact .stored stored present (alike ▸ unfinished)
            · exact .stored job found unfinished
      · intro job ended
        rcases jobs ended.1 with ⟨_, rfl⟩ | ⟨_, found⟩
        · have storedEnded : system.Ended stored :=
            ⟨keyed.symm ▸ present, alike ▸ ended.2⟩
          obtain ⟨state, result⟩ := ending ended.2
          obtain ⟨other, otherKnown, otherSame⟩ := ledger.copied stored (.stored storedEnded.1)
          rw [keyed, loadedSame.1, known] at otherKnown
          cases otherKnown
          have queues : job.returnQueues = stored.returnQueues :=
            (loadedSame.trans firstSame).2.2.trans otherSame.2.2.symm
          have message : job.message = stored.message := by
            rw [Job.message, Job.message, state, result, keyed]
          rw [message, queues, ← keyed]
          exact ledger.delivered stored storedEnded
        · exact ledger.delivered job ⟨found, ended.2⟩

theorem Action.freshIds_of_endsOnce {action : Action} (fits : action.EndsOnce system) :
    action.FreshIds system := by
  cases action with
  | create id request => exact fits.1
  | _ => trivial

theorem step_ledger (ledger : system.Ledger) {action : Action}
    (fits : action.EndsOnce system) : (system.step action).Ledger := by
  have traced := step_traced ledger.toTraced (Action.freshIds_of_endsOnce fits)
  have unchanged : ∀ id job, system.backend.jobs id = some job →
      system.backend.jobs id = some job := fun _ _ found => found
  have unloaded : ∀ call job, system.loaded call = some job →
      system.loaded call = some job := fun _ _ value => value
  cases action with
  | work processId evaluation =>
      change (system.work processId evaluation).Ledger
      change (system.work processId evaluation).Traced at traced
      unfold work at traced ⊢
      split at traced
      · exact ledger
      · rename_i process runs
        exact next_ledger evaluation ledger runs traced fits
  | launch processId workerId onetime pid =>
      have untouched : (system.launch processId workerId onetime pid).created =
          system.created ∧
          (system.launch processId workerId onetime pid).backend = system.backend ∧
          (system.launch processId workerId onetime pid).loaded = system.loaded ∧
          (system.launch processId workerId onetime pid).log = system.log := by
        unfold launch
        split <;> exact ⟨rfl, rfl, rfl, rfl⟩
      obtain ⟨created, backend, loaded, log⟩ := untouched
      apply ledger.of_same traced created (working_launch _ _ _ _) (posting_launch _ _ _ _)
      · intro id job found
        exact backend ▸ found
      · intro call job value
        exact loaded ▸ value
      · exact log
  | create id request =>
      by_cases given : id ≠ 0 ∧ system.backend.jobs id = none
      · exact create_ledger ledger traced given fits
      · have same : system.step (.create id request) = system := if_neg given
        rw [same]
        exact ledger
  | put id =>
      by_cases member : id ∈ system.scheduling
      · have same : system.step (.put id) = _ := if_pos member
        rw [same] at traced ⊢
        exact ledger.of_same traced rfl rfl rfl unchanged unloaded rfl
      · have same : system.step (.put id) = system := if_neg member
        rw [same]
        exact ledger
  | start id => exact ledger.of_same traced rfl rfl rfl unchanged unloaded rfl
  | halt => exact ledger.of_same traced rfl rfl rfl unchanged unloaded rfl
  | stopWorker workerId worker =>
      exact ledger.of_same traced rfl rfl rfl unchanged unloaded rfl
  | renewWorker workerId worker =>
      exact ledger.of_same traced rfl rfl rfl unchanged unloaded rfl
  | delete id =>
      exact ledger.of_same traced rfl rfl rfl (fun _ _ => deleted_jobs) unloaded rfl
  | load call id => exact load_ledger ledger traced
  | check call die => exact check_ledger ledger traced fits
  | tick => exact ledger.of_same traced rfl rfl rfl unchanged unloaded rfl

theorem step_endsAs {job : Job} (ledger : system.Ledger) {action : Action}
    (fits : action.EndsOnce system) (ends : system.EndsAs job) :
    (system.step action).EndsAs job ∧
      (system.step action).executions job.id = system.executions job.id := by
  cases action with
  | work processId evaluation =>
      change (system.work processId evaluation).EndsAs job ∧
        (system.work processId evaluation).executions job.id = _
      unfold work
      split
      · exact ⟨ends, rfl⟩
      · rename_i process runs
        obtain ⟨kept, unexecuted⟩ := next_endsAs evaluation ledger.toProper runs fits ends
        refine ⟨kept, ?_⟩
        rw [executions, advance, List.countP_cons_of_neg]
        · rfl
        · simp [unexecuted]
  | launch processId workerId onetime pid =>
      have working : (system.launch processId workerId onetime pid).working =
          system.working := working_launch _ _ _ _
      have untouched : (system.launch processId workerId onetime pid).created =
          system.created ∧
          (system.launch processId workerId onetime pid).backend = system.backend ∧
          (system.launch processId workerId onetime pid).log = system.log := by
        unfold launch
        split <;> exact ⟨rfl, rfl, rfl⟩
      obtain ⟨created, backend, log⟩ := untouched
      change (system.launch processId workerId onetime pid).EndsAs job ∧
        (system.launch processId workerId onetime pid).executions job.id = _
      refine ⟨ends.shrinks created ?_ ?_, ?_⟩
      · intro worker other works
        exact ⟨other, working ▸ works, .refl other⟩
      · intro id other found
        exact backend ▸ found
      · rw [executions, log, executions]
  | create id request =>
      by_cases given : id ≠ 0 ∧ system.backend.jobs id = none
      · have different : job.id ≠ id := by
          intro same
          exact ends.known (same ▸ fits.1)
        have same : system.step (.create id request) = _ := if_pos given
        rw [same]
        refine ⟨⟨ends.finished, ends.idle, ?_, ?_⟩, rfl⟩
        · intro other found
          rcases Custody.update_eq_some found with ⟨same, _⟩ | ⟨_, found⟩
          · exact absurd same different
          · exact ends.stored other found
        · change Function.update system.created id _ job.id ≠ none
          rw [Function.update_of_ne different]
          exact ends.known
      · have same : system.step (.create id request) = system := if_neg given
        rw [same]
        exact ⟨ends, rfl⟩
  | put id =>
      by_cases member : id ∈ system.scheduling
      · have same : system.step (.put id) = _ := if_pos member
        rw [same]
        exact ⟨⟨ends.finished, ends.idle, ends.stored, ends.known⟩, rfl⟩
      · have same : system.step (.put id) = system := if_neg member
        rw [same]
        exact ⟨ends, rfl⟩
  | delete id =>
      refine ⟨⟨ends.finished, ends.idle, ?_, ends.known⟩, rfl⟩
      intro other found
      exact ends.stored other (deleted_jobs found)
  | load call id =>
      change (system.load call id).EndsAs job ∧ (system.load call id).executions job.id = _
      unfold load
      split <;> exact ⟨⟨ends.finished, ends.idle, ends.stored, ends.known⟩, rfl⟩
  | check call die => exact ⟨ends.check fits, rfl⟩
  | start id => exact ⟨⟨ends.finished, ends.idle, ends.stored, ends.known⟩, rfl⟩
  | halt => exact ⟨⟨ends.finished, ends.idle, ends.stored, ends.known⟩, rfl⟩
  | stopWorker workerId worker =>
      exact ⟨⟨ends.finished, ends.idle, ends.stored, ends.known⟩, rfl⟩
  | renewWorker workerId worker =>
      exact ⟨⟨ends.finished, ends.idle, ends.stored, ends.known⟩, rfl⟩
  | tick => exact ⟨⟨ends.finished, ends.idle, ends.stored, ends.known⟩, rfl⟩

/-! ### Runs -/

theorem run_ledger {actions : List Action} (ledger : system.Ledger)
    (fits : Along Action.EndsOnce step system actions) :
    (Runs.run step system actions).Ledger := by
  apply run_keeps Ledger _ ledger fits
  intro system action ledger fits
  exact step_ledger ledger fits

theorem run_endsAs {job : Job} {actions : List Action} (ledger : system.Ledger)
    (fits : Along Action.EndsOnce step system actions) (ends : system.EndsAs job) :
    (Runs.run step system actions).EndsAs job ∧
      (Runs.run step system actions).executions job.id = system.executions job.id := by
  induction actions generalizing system with
  | nil => exact ⟨ends, rfl⟩
  | cons action actions induction =>
      obtain ⟨kept, unexecuted⟩ := step_endsAs ledger fits.1 ends
      obtain ⟨keptLater, unexecutedLater⟩ :=
        induction (step_ledger ledger fits.1) fits.2 kept
      exact ⟨keptLater, unexecutedLater.trans unexecuted⟩

theorem Ledger.messages_delivered (ledger : system.Ledger) : system.Delivered := by
  intro job ended queueName member
  by_cases owner : ∃ processId other queueNames,
      system.posting processId = some (other, queueNames) ∧ other.id = job.id
  · obtain ⟨processId, other, queueNames, posts, same⟩ := owner
    have copy : system.Copy other := .posting processId queueNames posts
    have ends := ledger.ends other (.posting processId queueNames posts)
    obtain ⟨message, queues⟩ := ledger.same_end ended ends copy same.symm
    have progress := (ledger.posts processId other queueNames posts).2 queueName
      (queues ▸ member)
    rw [same] at progress
    by_cases missing : queueName ∈ queueNames
    · right
      rw [if_pos missing] at progress
      exact ⟨progress, processId, other, queueNames, posts, same, missing⟩
    · left
      rw [if_neg missing] at progress
      rw [progress, message]
  · left
    apply ledger.delivered job ended _ queueName member
    intro processId other queueNames posts same
    exact owner ⟨processId, other, queueNames, posts, same⟩

/-- A process that puts results is left to itself until it has put them all. -/
theorem posting_settles {processId : ProcessId} {job : Job} {queueNames : List String}
    (evaluation : Evaluation) (posts : system.posting processId = some (job, queueNames)) :
    (Runs.run step system
      (List.replicate queueNames.length (.work processId evaluation))).posting processId =
        some (job, []) := by
  induction queueNames generalizing system with
  | nil => exact posts
  | cons queueName queueNames induction =>
      apply induction
      obtain ⟨process, runs, place⟩ := Option.bind_eq_some_iff.mp posts
      have step : system.step (.work processId evaluation) =
          system.advance processId (system.next process evaluation) := by
        rw [System.step, work, runs]
      have behind : Process.posting (system.next process evaluation) =
          some (job, queueNames) := by
        rw [next, Process.step]
        cases here : process.place with
        | posting other names failed =>
            rw [here] at place
            cases place
            rfl
        | _ =>
            rw [here] at place
            cases place
      rw [step, posting_advance, behind, Function.update_self]

/-- In a run that ends no job anew every end stays, and its results are put
once, or are about to be put by a process that needs no more than its own
steps for it. -/
theorem run_endsOnce (now : Nat) (workers : WorkerId → WorkerObj)
    (earlier later : List Action)
    (fits : Along Action.EndsOnce step (initial now workers) (earlier ++ later)) :
    KeepsEnds (run now workers earlier) (run now workers (earlier ++ later)) ∧
      (run now workers (earlier ++ later)).Delivered ∧
      ∀ processId job queueNames,
        (run now workers (earlier ++ later)).posting processId = some (job, queueNames) →
        ∀ evaluation,
          (Runs.run step (run now workers (earlier ++ later))
            (List.replicate queueNames.length (.work processId evaluation))).posting
              processId = some (job, []) := by
  obtain ⟨fitsEarlier, fitsLater⟩ := along_append.mp fits
  have before : (run now workers earlier).Ledger :=
    run_ledger (initial_ledger now workers) fitsEarlier
  have split : run now workers (earlier ++ later) =
      Runs.run step (run now workers earlier) later := run_append _ earlier later
  rw [split]
  refine ⟨?_, (run_ledger before fitsLater).messages_delivered, ?_⟩
  · intro job ended
    obtain ⟨ends, unexecuted⟩ :=
      run_endsAs before fitsLater (before.ends job (.stored ended.1 ended.2))
    exact ⟨ends.stored, unexecuted⟩
  · intro processId job queueNames posts evaluation
    exact posting_settles evaluation posts

end System

section

def timedRequest : JobRequest where
  dependencies := []
  timeout := 1
  returnQueues := ["results"]
  returnQueuesReset := false

/-- A worker executes a job that a manager has just loaded. -/
def answeredRun : List Action :=
  [.create 1 timedRequest, .put 1, .load 0 1, .launch 0 0 false 7] ++
    List.replicate 8 (.work 0 (.returned (some (.int 5))))

/-- The job as the worker stores it. -/
def answeredJob : Job :=
  { timedRequest.job 1 1 with timeStop := 1, state := .ok, result := .int 5 }

/-- The manager finds that the job it loaded is late. -/
def lateCheck : List Action :=
  [.tick, .tick, .check 0 false]

/-- A step from a place at which nothing is asked of it. -/
theorem endsOnce_elsewhere {system : System} {processId : ProcessId} {place : Place}
    (evaluation : Evaluation)
    (here : (system.processes processId).map Process.place = some place)
    (unfetching : ∀ id, place ≠ .fetching id) (unsucceeding : ∀ job, place ≠ .succeeding job) :
    (Action.work processId evaluation).EndsOnce system := by
  intro process runs
  rw [runs] at here
  cases here
  exact ⟨fun id at_ => absurd at_ (unfetching id),
    fun job result at_ => absurd at_ (unsucceeding job)⟩

theorem run_endsOnce_answered :
    (System.run 1 (fun _ => idleWorker) []).KeepsEnds
        (System.run 1 (fun _ => idleWorker) ([] ++ answeredRun)) ∧
      (System.run 1 (fun _ => idleWorker) ([] ++ answeredRun)).Delivered ∧
      ∀ processId job queueNames,
        (System.run 1 (fun _ => idleWorker) ([] ++ answeredRun)).posting processId =
          some (job, queueNames) →
        ∀ evaluation,
          (Runs.run System.step (System.run 1 (fun _ => idleWorker) ([] ++ answeredRun))
            (List.replicate queueNames.length (.work processId evaluation))).posting
              processId = some (job, []) := by
  apply System.run_endsOnce
  refine ⟨⟨rfl, by simp [timedRequest]⟩, trivial, trivial, trivial, ?_, ?_, ?_, ?_, ?_, ?_, ?_, ?_,
    trivial⟩
  · exact endsOnce_elsewhere _ rfl (by simp) (by simp)
  · exact endsOnce_elsewhere _ rfl (by simp) (by simp)
  · exact endsOnce_elsewhere _ rfl (by simp) (by simp)
  · intro process runs
    cases runs
    refine ⟨fun id place => ?_, fun job result place => ?_⟩
    · cases place
      refine ⟨?_, ?_⟩
      · intro stored found
        cases found
        rfl
      · intro other job works
        by_cases same : other = 0
        · subst same
          cases show none = some job from works
        · change ((Function.update (Function.update (Function.update (Function.update
            (fun _ => none) 0 _) 0 _) 0 _) 0 _) other).bind _ = some job at works
          simp [Function.update_of_ne same] at works
    · cases place
  · exact endsOnce_elsewhere _ rfl (by simp) (by simp)
  · exact endsOnce_elsewhere _ rfl (by simp) (by simp)
  · exact endsOnce_elsewhere _ rfl (by simp) (by simp)
  · intro process runs
    cases runs
    refine ⟨fun id place => ?_, fun job result place => ?_⟩
    · cases place
    · cases place
      intro stored
      cases stored
      rfl

/-- The copy that was loaded before the end is saved over it. -/
theorem not_endsOnce_late :
    ¬ ∀ now workers earlier later,
      (System.run now workers earlier).KeepsEnds
          (System.run now workers (earlier ++ later)) ∧
        (System.run now workers (earlier ++ later)).Delivered := by
  intro claim
  have kept := (claim 1 (fun _ => idleWorker) answeredRun lateCheck).1
  have ended : (System.run 1 (fun _ => idleWorker) answeredRun).Ended answeredJob :=
    ⟨rfl, rfl⟩
  have overwritten : (System.run 1 (fun _ => idleWorker) (answeredRun ++ lateCheck)).backend.jobs
      answeredJob.id = some { timedRequest.job 1 1 with errorCat := .timeout } := rfl
  have same := ((kept answeredJob ended).1 _ overwritten).1
  cases same

end

end JumpscaleX
