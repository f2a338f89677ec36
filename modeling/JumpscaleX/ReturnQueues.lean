import Mathlib.Data.Finset.Max
import JumpscaleX.JobCopies
import JumpscaleX.JobsKept
import JumpscaleX.WaitQueues

/-!
# A call of `wait_queues` does not see the results

Results are put under the key of a return queue, and `wait_queues` looks at
another key.  The one that it looks at for the longest name is never written,
so the call does not return, unless there is nothing to wait for.
-/

namespace JumpscaleX

open Runs Stateful

namespace System

/-- The jobs that came to their end, in the order in which this was stored. -/
def finishOrder (system : System) : List JobId :=
  (system.log.filterMap (fun entry =>
    match entry.2 with
    | .saveJob job => if job.state.finished then some job.id else none
    | _ => none)).reverse

/-- All jobs have return queues of a kind, and nothing else is on the queues. -/
structure Routed (allowed : List String → Prop) (system : System) : Prop
    extends Proper system where
  copies : ∀ job, system.Copy job → allowed job.returnQueues
  posts : ∀ processId job queueNames, system.posting processId = some (job, queueNames) →
    queueNames ⊆ job.returnQueues
  queues : ∀ key, system.backend.queues key ≠ [] →
    ∃ queueNames queueName, allowed queueNames ∧ queueName ∈ queueNames ∧
      key = queueKey queueName
  saves : ∀ processId job, (processId, Operation.saveJob job) ∈ system.log →
    allowed job.returnQueues

variable {allowed : List String → Prop} {system : System}

theorem initial_routed (now : Nat) (workers : WorkerId → WorkerObj) :
    (initial now workers).Routed allowed where
  toProper := initial_proper now workers
  copies := by
    rintro job (impossible | ⟨_, impossible⟩ | ⟨_, _, impossible⟩ | ⟨_, impossible⟩)
    all_goals cases impossible
  posts := by
    intro processId job queueNames impossible
    cases impossible
  queues := by
    intro key filled
    exact absurd rfl filled
  saves := by
    intro processId job impossible
    cases impossible

section

variable {processId : ProcessId} {process : Process} {evaluation : Evaluation}

theorem next_posts (routed : system.Routed allowed)
    (runs : system.processes processId = some process) {worker : ProcessId} {job : Job}
    {queueNames : List String}
    (posts : (system.advance processId (system.next process evaluation)).posting worker =
      some (job, queueNames)) : queueNames ⊆ job.returnQueues := by
  have progress : Process.Progress system.backend process
      (system.next process evaluation).1 (Process.working (system.next process evaluation))
      (Process.posting (system.next process evaluation)) :=
    Process.step_progress (routed.sound processId process runs)
  rw [posting_advance] at posts
  rcases Custody.update_eq_some posts with ⟨_, behind⟩ | ⟨_, posts⟩
  · rcases progress.posting behind with ⟨_, all⟩ | ⟨names, before, fewer⟩
    · exact all ▸ List.Subset.refl _
    · exact List.Subset.trans fewer
        (routed.posts processId job names ((posting_of_runs runs).trans before))
  · exact routed.posts worker job queueNames posts

theorem next_queues (routed : system.Routed allowed)
    (runs : system.processes processId = some process) {key : String}
    (filled : (system.advance processId (system.next process evaluation)).backend.queues key ≠
      []) :
    ∃ queueNames queueName, allowed queueNames ∧ queueName ∈ queueNames ∧
      key = queueKey queueName := by
  have progress : Process.Progress system.backend process
      (system.next process evaluation).1 (Process.working (system.next process evaluation))
      (Process.posting (system.next process evaluation)) :=
    Process.step_progress (routed.sound processId process runs)
  change ((system.next process evaluation).1.apply system.backend).queues key ≠ [] at filled
  cases operation : (system.next process evaluation).1 with
  | post queueName message =>
      obtain ⟨job, queueNames, posts⟩ := progress.post operation
      have posting := (posting_of_runs runs).trans posts
      by_cases same : key = queueKey queueName
      · refine ⟨job.returnQueues, queueName, ?_, ?_, same⟩
        · exact routed.copies job (.posting processId _ posting)
        · exact routed.posts processId job _ posting List.mem_cons_self
      · rw [operation] at filled
        change Function.update system.backend.queues (queueKey queueName) _ key ≠ [] at filled
        rw [Function.update_of_ne same] at filled
        exact routed.queues key filled
  | get res =>
      rw [operation] at filled
      apply routed.queues key
      cases res <;> exact filled
  | _ =>
      rw [operation] at filled
      exact routed.queues key filled

end

theorem filled_of_reset {backend : Backend} {keys : List String} {key : String}
    (filled : (backend.resetQueues keys).queues key ≠ []) : backend.queues key ≠ [] := by
  change (if key ∈ keys then [] else backend.queues key) ≠ [] at filled
  split at filled
  · exact absurd rfl filled
  · exact filled

/-- The return queues behind an action that is no step of a process. -/
theorem step_queues {action : Action} {key : String}
    (unworked : ∀ processId evaluation, action ≠ .work processId evaluation)
    (filled : (system.step action).backend.queues key ≠ []) :
    system.backend.queues key ≠ [] := by
  cases action with
  | work processId evaluation => exact absurd rfl (unworked processId evaluation)
  | launch processId workerId onetime pid =>
      change (system.launch processId workerId onetime pid).backend.queues key ≠ [] at filled
      unfold launch at filled
      split at filled <;> exact filled
  | create id request =>
      change (system.create id request).backend.queues key ≠ [] at filled
      unfold create at filled
      split at filled
      · exact filled_of_reset filled
      · exact filled
  | put id =>
      change (system.put id).backend.queues key ≠ [] at filled
      unfold put at filled
      split at filled <;> exact filled
  | load call id =>
      change (system.load call id).backend.queues key ≠ [] at filled
      unfold load at filled
      split at filled <;> exact filled
  | check call die =>
      change (system.check call die).backend.queues key ≠ [] at filled
      cases saves : system.checked call die with
      | none =>
          rw [check_same saves] at filled
          exact filled
      | some saved =>
          rw [check_saves saves] at filled
          exact filled
  | _ => exact filled

/-- Nor do the processes put results by it. -/
theorem step_posting {action : Action}
    (unworked : ∀ processId evaluation, action ≠ .work processId evaluation) :
    (system.step action).posting = system.posting := by
  cases action with
  | work processId evaluation => exact absurd rfl (unworked processId evaluation)
  | launch processId workerId onetime pid => exact posting_launch _ _ _ _
  | create id request =>
      change (system.create id request).posting = _
      unfold create
      split <;> rfl
  | put id =>
      change (system.put id).posting = _
      unfold put
      split <;> rfl
  | load call id =>
      change (system.load call id).posting = _
      unfold load
      split <;> rfl
  | _ => rfl

theorem step_routed (routed : system.Routed allowed) {action : Action}
    (fits : ∀ id request, action = .create id request → allowed request.returnQueues) :
    (system.step action).Routed allowed := by
  refine ⟨step_proper routed.toProper action, ?_, ?_, ?_, ?_⟩
  · intro job copy
    rcases step_copy routed.toProper copy with
      ⟨old, before, same⟩ | ⟨id, request, created, _, rfl⟩
    · rw [same.2.2]
      exact routed.copies old before
    · exact fits id request created
  · intro worker job queueNames posts
    by_cases works : ∃ processId evaluation, action = .work processId evaluation
    · obtain ⟨processId, evaluation, rfl⟩ := works
      change (system.work processId evaluation).posting worker = _ at posts
      unfold work at posts
      split at posts
      · exact routed.posts worker job queueNames posts
      · rename_i process runs
        exact next_posts routed runs posts
    · rw [step_posting (fun processId evaluation same =>
        works ⟨processId, evaluation, same⟩)] at posts
      exact routed.posts worker job queueNames posts
  · intro key filled
    by_cases works : ∃ processId evaluation, action = .work processId evaluation
    · obtain ⟨processId, evaluation, rfl⟩ := works
      change (system.work processId evaluation).backend.queues key ≠ [] at filled
      unfold work at filled
      split at filled
      · exact routed.queues key filled
      · rename_i process runs
        exact next_queues routed runs filled
    · apply routed.queues key
      exact step_queues (fun processId evaluation same =>
        works ⟨processId, evaluation, same⟩) filled
  · intro worker job member
    rcases mem_log_step member with
      member | ⟨processId, evaluation, process, _, runs, same⟩
    · exact routed.saves worker job member
    · have progress : Process.Progress system.backend process
          (system.next process evaluation).1
          (Process.working (system.next process evaluation))
          (Process.posting (system.next process evaluation)) :=
        Process.step_progress (routed.sound processId process runs)
      obtain ⟨old, works, alike⟩ := progress.saved (Prod.mk.inj same).2.symm
      rw [alike.2.2]
      exact routed.copies old (.working processId ((working_of_runs runs).trans works))

theorem finishOrder_eq_nil (unsaved : ∀ processId job,
    (processId, Operation.saveJob job) ∉ system.log) : system.finishOrder = [] := by
  apply List.reverse_eq_nil_iff.mpr
  rw [List.filterMap_eq_nil_iff]
  rintro ⟨processId, operation⟩ member
  cases operation with
  | saveJob job => exact absurd member (unsaved processId job)
  | _ => rfl

end System

namespace WaitSystem

/-- What the call has returned or raised. -/
def answer (state : WaitSystem) : Option (Except Exn (List Job)) :=
  state.waiter.bind (fun waiter =>
    match waiter.place with
    | .answered answer => some answer
    | _ => none)

end WaitSystem

namespace WaitAction

/-- The jobs have the return queues that are waited for, and the time is never
over. -/
def Fits (queueNames : List String) (size : Nat) : WaitAction → Prop
  | .act (.create _ request) => request.returnQueues = queueNames
  | .call names count die => names = queueNames ∧ count = size ∧ die = false
  | .expire => False
  | .act _ | .wait => True

/-- The call and the processes go on. -/
def Proceeds : WaitAction → Prop
  | .act (.work _ _) | .act (.launch _ _ _ _) | .act .tick | .wait => True
  | _ => False

def creates : WaitAction → Bool
  | .act (.create _ _) => true
  | _ => false

theorem Proceeds.fits {queueNames : List String} {size : Nat} {action : WaitAction}
    (proceeds : action.Proceeds) : action.Fits queueNames size := by
  cases action with
  | act action =>
      cases action with
      | create id request => exact proceeds.elim
      | _ => trivial
  | call names count die => exact proceeds.elim
  | wait => trivial
  | expire => exact proceeds.elim

end WaitAction

namespace WaitSystem

/-- With time enough the call returns, and what it returns are the jobs in the
order in which they ended, with nothing left on the queues. -/
def DeliversAll (queueNames : List String) (state : WaitSystem) : Prop :=
  (∃ later, (∀ action ∈ later, WaitAction.Proceeds action) ∧
    ∃ res, (Runs.run step state later).answer = some (.ok res)) ∧
  ∀ later, (∀ action ∈ later, WaitAction.Proceeds action) →
    ∀ res, (Runs.run step state later).answer = some (.ok res) →
      res.map Job.id = (Runs.run step state later).system.finishOrder ∧
        ∀ queueName ∈ queueNames,
          (Runs.run step state later).system.backend.queues (queueKey queueName) = []

end WaitSystem

/-! ### Keys -/

theorem waitKey_eq (queueName : String) : waitKey queueName = queueKey ("wait:" ++ queueName) := by
  have parts : "myjobs:wait:" = "myjobs:" ++ "wait:" := by decide
  rw [waitKey, queueKey, parts, String.append_assoc]

theorem queueKey_injective {first second : String} (same : queueKey first = queueKey second) :
    first = second :=
  (String.append_right_inj _).mp same

/-- What is waited for under the longest name is put nowhere. -/
theorem exists_unwritten {queueNames : List String} (filled : queueNames ≠ []) :
    ∃ queueName ∈ queueNames, "wait:" ++ queueName ∉ queueNames := by
  obtain ⟨longest, member, greatest⟩ :=
    Finset.exists_max_image queueNames.toFinset String.length
      (List.toFinset_nonempty_iff _ |>.mpr filled)
  refine ⟨longest, List.mem_toFinset.mp member, ?_⟩
  intro longer
  have bounded := greatest _ (List.mem_toFinset.mpr longer)
  have grown : ("wait:" ++ longest).length = "wait:".length + longest.length :=
    String.length_append _ _
  have positive : "wait:".length = 5 := by decide
  omega

/-- Where a call can be that waits for something: before a name whose queue is
never written, or without any name. -/
def Waiting.Blocked (queueNames : List String) : Waiting → Prop
  | .counting rest => ∀ queueName ∈ queueNames, "wait:" ++ queueName ∉ queueNames →
      queueName ∈ rest
  | .draining _ => queueNames = []
  | .answered (.error _) => True
  | _ => False

namespace WaitSystem

variable {queueNames : List String} {size : Nat} {state : WaitSystem}

/-- The call, if it was made, is blocked. -/
structure Stuck (queueNames : List String) (size : Nat) (state : WaitSystem) : Prop where
  routed : state.system.Routed (· = queueNames)
  blocked : ∀ waiter, state.waiter = some waiter →
    waiter.queueNames = queueNames ∧ waiter.size = size ∧ waiter.place.Blocked queueNames

/-- No result is ever put where the call looks for it. -/
theorem Stuck.unwritten (stuck : state.Stuck queueNames size) {queueName : String}
    (unused : "wait:" ++ queueName ∉ queueNames) :
    state.system.backend.queues (waitKey queueName) = [] := by
  by_contra filled
  obtain ⟨names, name, rfl, member, same⟩ := stuck.routed.queues _ filled
  rw [waitKey_eq] at same
  exact unused (queueKey_injective same ▸ member)

/-- A step of the call takes items off the queues at most. -/
theorem waiter_step_backend (backend : Backend) (waiter : Waiter) :
    (waiter.step backend).1 = backend ∨
      ∃ key, (waiter.step backend).1 = backend.pop key := by
  unfold Waiter.step
  split
  · exact .inl rfl
  · split <;> exact .inl rfl
  · unfold Waiter.draining
    split
    · exact .inl rfl
    · split
      · exact .inl rfl
      · exact .inr ⟨_, rfl⟩
  · exact .inl rfl
  · exact .inl rfl
  · split
    · exact .inl rfl
    · exact .inr ⟨_, rfl⟩
  · exact .inl rfl
  · exact .inl rfl

theorem routed_pop {allowed : List String → Prop} {system : System}
    (routed : system.Routed allowed) {backend : Backend}
    (popped : backend = system.backend ∨ ∃ key, backend = system.backend.pop key) :
    System.Routed allowed { system with backend := backend } := by
  rcases popped with rfl | ⟨popped, rfl⟩
  · exact routed
  · refine ⟨⟨routed.sound, routed.keyed⟩, ?_, routed.posts, ?_, routed.saves⟩
    · intro job copy
      apply routed.copies
      rcases copy with found | ⟨worker, works⟩ | ⟨worker, names, posts⟩ | ⟨call, value⟩
      · exact .stored found
      · exact .working worker works
      · exact .posting worker names posts
      · exact .loaded call value
    · intro key filled
      apply routed.queues
      change Function.update system.backend.queues popped _ key ≠ [] at filled
      by_cases same : key = popped
      · subst same
        rw [Function.update_self] at filled
        intro empty
        rw [empty] at filled
        exact filled rfl
      · rw [Function.update_of_ne same] at filled
        exact filled

/-- A step of a blocked call leaves it blocked. -/
theorem Stuck.step_blocked (stuck : state.Stuck queueNames size) (positive : size ≠ 0)
    {waiter : Waiter} (waits : state.waiter = some waiter) :
    (waiter.step state.system.backend).2.queueNames = queueNames ∧
      (waiter.step state.system.backend).2.size = size ∧
      (waiter.step state.system.backend).2.place.Blocked queueNames := by
  obtain ⟨names, count, blocked⟩ := stuck.blocked waiter waits
  unfold Waiter.step
  cases place : waiter.place with
  | counting rest =>
      rw [place] at blocked
      cases rest with
      | nil =>
          refine ⟨names, count, ?_⟩
          by_contra filled
          obtain ⟨queueName, member, unused⟩ := exists_unwritten filled
          exact absurd (blocked queueName member unused) List.not_mem_nil
      | cons name rest =>
          simp only
          split
          · exact ⟨names, count, place ▸ blocked⟩
          · rename_i enough
            refine ⟨names, count, ?_⟩
            intro queueName member unused
            rcases List.mem_cons.mp (blocked queueName member unused) with rfl | waits
            · rw [stuck.unwritten unused, List.length_nil, count] at enough
              omega
            · exact waits
  | draining res =>
      rw [place] at blocked
      have none : waiter.queueNames = [] := names.trans blocked
      simp only [Waiter.draining, none, List.getLast?_nil]
      exact ⟨blocked ▸ none ▸ rfl, count, trivial⟩
  | answered answer =>
      refine ⟨names, count, ?_⟩
      exact blocked
  | loading jobid res | resetting rest answer | expired =>
      rw [place] at blocked
      exact blocked.elim

theorem step_stuck (stuck : state.Stuck queueNames size) (positive : size ≠ 0)
    {action : WaitAction} (fits : action.Fits queueNames size) :
    (state.step action).Stuck queueNames size := by
  cases action with
  | act action =>
      refine ⟨System.step_routed stuck.routed ?_, stuck.blocked⟩
      rintro id request rfl
      exact fits
  | call names count die =>
      simp only [step]
      split
      · exact stuck
      · obtain ⟨rfl, rfl, rfl⟩ := fits
        refine ⟨stuck.routed, ?_⟩
        rintro waiter ⟨⟩
        refine ⟨rfl, rfl, ?_⟩
        rw [Waiter.call, if_neg positive]
        intro queueName member _
        exact member
  | wait =>
      simp only [step]
      split
      · exact stuck
      · rename_i waiter waits
        refine ⟨routed_pop stuck.routed (waiter_step_backend _ waiter), ?_⟩
        rintro next ⟨⟩
        exact stuck.step_blocked positive waits
  | expire => exact fits.elim

/-- A blocked call has no result. -/
theorem Stuck.unanswered (stuck : state.Stuck queueNames size) (res : List Job) :
    state.answer ≠ some (.ok res) := by
  intro answered
  obtain ⟨waiter, waits, place⟩ := Option.bind_eq_some_iff.mp answered
  have blocked := (stuck.blocked waiter waits).2.2
  cases here : waiter.place with
  | answered answer =>
      rw [here] at place blocked
      cases place
      exact blocked.elim
  | _ =>
      rw [here] at place
      cases place

theorem run_stuck (stuck : state.Stuck queueNames size) (positive : size ≠ 0)
    {actions : List WaitAction} (fits : ∀ action ∈ actions, action.Fits queueNames size) :
    (Runs.run step state actions).Stuck queueNames size := by
  apply run_keeps (Stuck queueNames size) _ stuck
    (along_of_forall (fun _ action member => fits action member))
  intro state action stuck fits
  exact step_stuck stuck positive fits

/-! ### Nothing to wait for -/

/-- There are no jobs, and the call, if it was made, has returned. -/
structure Empty (state : WaitSystem) : Prop where
  routed : state.system.Routed (fun _ => False)
  returned : ∀ waiter, state.waiter = some waiter → waiter.place = .answered (.ok [])

theorem step_empty (empty : state.Empty) {action : WaitAction}
    (fits : action.Fits queueNames 0) (idle : action.creates = false) :
    (state.step action).Empty := by
  cases action with
  | act action =>
      refine ⟨System.step_routed empty.routed ?_, empty.returned⟩
      rintro id request rfl
      cases idle
  | call names count die =>
      simp only [step]
      split
      · exact empty
      · obtain ⟨rfl, rfl, rfl⟩ := fits
        refine ⟨empty.routed, ?_⟩
        rintro waiter ⟨⟩
        rfl
  | wait =>
      simp only [step]
      split
      · exact empty
      · rename_i waiter waits
        have same : waiter.step state.system.backend = (state.system.backend, waiter) := by
          rw [Waiter.step, empty.returned waiter waits]
        rw [same]
        exact ⟨empty.routed, fun next found => empty.returned next (waits.trans found)⟩
  | expire => exact fits.elim

theorem run_empty (empty : state.Empty) {actions : List WaitAction}
    (fits : ∀ action ∈ actions, action.Fits queueNames 0)
    (idle : ∀ action ∈ actions, action.creates = false) :
    (Runs.run step state actions).Empty := by
  apply run_keeps Empty _ empty (along_of_forall (fun _ action member =>
    (⟨fits action member, idle action member⟩ :
      action.Fits queueNames 0 ∧ action.creates = false)))
  intro state action empty fits
  exact step_empty empty fits.1 fits.2

/-- The call stays made. -/
theorem step_called (action : WaitAction) (called : state.waiter ≠ none) :
    (state.step action).waiter ≠ none := by
  cases action with
  | act action => exact called
  | call names count die =>
      simp only [step]
      split
      · exact called
      · exact Option.some_ne_none _
  | wait =>
      simp only [step]
      split
      · exact called
      · exact Option.some_ne_none _
  | expire =>
      simp only [step]
      split
      · exact called
      · split
        · exact called
        · exact Option.some_ne_none _

theorem run_called {actions : List WaitAction} {names : List String} {count : Nat} {die : Bool}
    (called : WaitAction.call names count die ∈ actions) :
    (Runs.run step state actions).waiter ≠ none := by
  obtain ⟨before, after, rfl⟩ := List.append_of_mem called
  rw [run_append, run_cons]
  have made : ((Runs.run step state before).step (.call names count die)).waiter ≠ none := by
    simp only [step]
    split
    · rename_i waiter waits
      rw [waits]
      exact Option.some_ne_none waiter
    · exact Option.some_ne_none _
  exact run_always (fun state : WaitSystem => state.waiter ≠ none)
    (fun _ action called => step_called action called) made after

theorem Empty.delivers (empty : state.Empty) (called : state.waiter ≠ none) :
    state.DeliversAll queueNames := by
  constructor
  · refine ⟨[], by simp, [], ?_⟩
    obtain ⟨waiter, waits⟩ := Option.ne_none_iff_exists'.mp called
    change state.answer = _
    rw [answer, waits, Option.bind_some, empty.returned waiter waits]
  · intro later proceeds res answered
    have after : (Runs.run step state later).Empty := by
      have fits : ∀ action ∈ later, action.Fits queueNames 0 :=
        fun action member => (proceeds action member).fits
      apply run_empty empty fits
      intro action member
      have proceeding := proceeds action member
      cases action with
      | act action =>
          cases action with
          | create id request => exact proceeding.elim
          | _ => rfl
      | _ => rfl
    constructor
    · obtain ⟨waiter, waits, place⟩ := Option.bind_eq_some_iff.mp answered
      rw [after.returned waiter waits] at place
      cases place
      exact (System.finishOrder_eq_nil
        (fun processId job member => after.routed.saves processId job member)).symm
    · intro queueName _
      by_contra filled
      obtain ⟨_, _, impossible, _⟩ := after.routed.queues _ filled
      exact impossible

/-- In every run in which the jobs have the return queues that are waited for,
the call delivers their results exactly when there are none. -/
theorem deliversAll_iff (now : Nat) (workers : WorkerId → WorkerObj)
    (queueNames : List String) (actions : List WaitAction) (size : Nat)
    (jobs : size = actions.countP WaitAction.creates)
    (fits : ∀ action ∈ actions, action.Fits queueNames size)
    (called : WaitAction.call queueNames size false ∈ actions) :
    (run now workers actions).DeliversAll queueNames ↔ size = 0 := by
  constructor
  · rintro ⟨⟨later, proceeds, res, answered⟩, _⟩
    by_contra positive
    have stuck : (run now workers actions).Stuck queueNames size := by
      apply run_stuck _ positive fits
      refine ⟨System.initial_routed now workers, ?_⟩
      intro waiter impossible
      cases impossible
    exact (run_stuck stuck positive (fun action member =>
      (proceeds action member).fits)).unanswered res answered
  · rintro rfl
    apply Empty.delivers
    · apply run_empty _ fits
      · intro action member
        have none := List.countP_eq_zero.mp jobs.symm action member
        exact eq_false_of_ne_true none
      · refine ⟨System.initial_routed now workers, ?_⟩
        intro waiter impossible
        cases impossible
    · exact run_called called

end WaitSystem

section

def queuedRequest : JobRequest :=
  { plainRequest with returnQueues := ["results"] }

/-- A job is executed, and its result is put. -/
def putRun : List Action :=
  [.create 1 queuedRequest, .put 1, .launch 0 0 false 7] ++
    List.replicate 9 (.work 0 (.returned (some (.int 5))))

/-- Then it is waited for. -/
def queuedRun : List WaitAction :=
  putRun.map .act ++ [.call ["results"] 1 false]

theorem queuedRun_fits : ∀ action ∈ queuedRun, action.Fits ["results"] 1 := by
  intro action member
  rcases List.mem_append.mp member with member | member
  · obtain ⟨made, ran, rfl⟩ := List.mem_map.mp member
    rcases List.mem_append.mp ran with first | later
    · simp only [List.mem_cons, List.not_mem_nil, or_false] at first
      rcases first with rfl | rfl | rfl
      · rfl
      · trivial
      · trivial
    · rw [List.eq_of_mem_replicate later]
      trivial
  · rw [List.mem_singleton.mp member]
    exact ⟨rfl, rfl, rfl⟩

theorem deliversAll_iff_queued :
    (WaitSystem.run 1 (fun _ => idleWorker) queuedRun).DeliversAll ["results"] ↔ 1 = 0 :=
  WaitSystem.deliversAll_iff 1 (fun _ => idleWorker) ["results"] queuedRun 1 (by decide)
    queuedRun_fits List.mem_concat_self

/-- The result is on its queue, but the call does not see it. -/
theorem not_deliversAll_queued :
    ¬ ∀ now workers queueNames actions size, queueNames.Nodup →
      size = actions.countP WaitAction.creates →
      (∀ action ∈ actions, WaitAction.Fits queueNames size action) →
      WaitAction.call queueNames size false ∈ actions →
      (WaitSystem.run now workers actions).DeliversAll queueNames := by
  intro claim
  obtain ⟨⟨later, proceeds, res, answered⟩, _⟩ :=
    claim 1 (fun _ => idleWorker) ["results"] queuedRun 1 (List.nodup_singleton _) (by decide)
      queuedRun_fits List.mem_concat_self
  have stuck : (WaitSystem.run 1 (fun _ => idleWorker) queuedRun).Stuck ["results"] 1 := by
    apply WaitSystem.run_stuck _ Nat.one_ne_zero queuedRun_fits
    refine ⟨System.initial_routed 1 (fun _ => idleWorker), ?_⟩
    intro waiter impossible
    cases impossible
  have still := WaitSystem.run_stuck stuck Nat.one_ne_zero
    (fun action member => (proceeds action member).fits)
  exact still.unanswered res answered

end

end JumpscaleX
