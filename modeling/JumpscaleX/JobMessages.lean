import JumpscaleX.JobCopies

/-!
# Ends of jobs and their messages

When a job has come to its end, which messages were put for it, and how the two
agree while processes work on the job and put its result.
-/

namespace JumpscaleX

open Runs Stateful

namespace System

/-- The message that an operation puts on a return queue for a job. -/
def messageOf (id : JobId) (queueName : String) : Operation → Option ResultMessage
  | .post name message =>
      if name = queueName ∧ message.id = id then some message else none
  | _ => none

/-- The messages put on a return queue for a job so far. -/
def messages (system : System) (id : JobId) (queueName : String) : List ResultMessage :=
  system.log.filterMap (fun entry => messageOf id queueName entry.2)

def executes (id : JobId) : Operation → Bool
  | .evaluate job _ => job.id = id
  | _ => false

/-- How often the action of a job was executed so far. -/
def executions (system : System) (id : JobId) : Nat :=
  system.log.countP (fun entry => executes id entry.2)

/-- The stored job has come to its end. -/
def Ended (system : System) (job : Job) : Prop :=
  system.backend.jobs job.id = some job ∧ job.state.finished = true

/-- The first system's ends are still there in the second, and none of the jobs
was executed in between. -/
def KeepsEnds (before after : System) : Prop :=
  ∀ job, before.Ended job →
    (∀ later, after.backend.jobs job.id = some later →
      later.state = job.state ∧ later.result = job.result) ∧
    after.executions job.id = before.executions job.id

/-- A process is yet to put the result of the job on the queue. -/
def Owes (system : System) (id : JobId) (queueName : String) : Prop :=
  ∃ processId job queueNames, system.posting processId = some (job, queueNames) ∧
    job.id = id ∧ queueName ∈ queueNames

/-- Each return queue of a job that ended got one message with its state and
result, or a process is yet to put it there. -/
def Delivered (system : System) : Prop :=
  ∀ job, system.Ended job → ∀ queueName ∈ job.returnQueues,
    system.messages job.id queueName = [job.message] ∨
      system.messages job.id queueName = [] ∧ system.Owes job.id queueName

end System

/-- No process loads a job that has ended or that is being worked on, no result
is stored as another one, no copy is saved over an end that it does not show,
and no new job has an old id or the same return queue twice. -/
def Action.EndsOnce (system : System) : Action → Prop
  | .work processId _ =>
      ∀ process, system.processes processId = some process →
        (∀ id, process.place = .fetching id →
          (∀ stored, system.backend.jobs id = some stored → stored.state.finished = false) ∧
          ∀ other job, system.working other = some job → job.id ≠ id) ∧
        ∀ job result, process.place = .succeeding job →
          JsonType.toData job.result = .ok result → result = job.result
  | .create id request => system.created id = none ∧ request.returnQueues.Nodup
  | .check call die =>
      ∀ job, system.checked call die = some job →
        ∃ stored, system.backend.jobs job.id = some stored ∧
          (stored.state.finished = true →
            job.state = stored.state ∧ job.result = stored.result)
  | _ => True

namespace System

variable {system : System}

/-! ### Logs and places behind a step -/

theorem messages_advance (processId : ProcessId) (step : Process.Step) (id : JobId)
    (queueName : String) :
    (system.advance processId step).messages id queueName =
      (messageOf id queueName step.1).toList ++ system.messages id queueName := by
  rw [messages, advance]
  cases put : messageOf id queueName step.1 <;> simp [put, messages]

theorem messages_advance_mute {processId : ProcessId} {step : Process.Step}
    (mute : ∀ queueName message, step.1 ≠ .post queueName message) (id : JobId)
    (queueName : String) :
    (system.advance processId step).messages id queueName =
      system.messages id queueName := by
  rw [messages_advance]
  cases operation : step.1 with
  | post name message => exact absurd operation (mute name message)
  | _ => rfl

/-- The latest copy of a job ended as this one, and no process works on it. -/
structure EndsAs (system : System) (job : Job) : Prop where
  finished : job.state.finished = true
  idle : ∀ processId other, system.working processId = some other → other.id ≠ job.id
  stored : ∀ other, system.backend.jobs job.id = some other →
    other.state = job.state ∧ other.result = job.result
  known : system.created job.id ≠ none

/-- A copy that shows how the job ended. -/
inductive Shows (system : System) (job : Job) : Prop where
  | stored : system.backend.jobs job.id = some job → job.state.finished = true →
      Shows system job
  | posting (processId : ProcessId) (queueNames : List String) :
      system.posting processId = some (job, queueNames) → Shows system job
  | loaded (call : Nat) : system.loaded call = some job → job.state.finished = true →
      Shows system job

/-- The job has not ended yet. -/
inductive Unended (system : System) (id : JobId) : Prop where
  | unknown : system.created id = none → Unended system id
  | working (processId : ProcessId) (job : Job) : system.working processId = some job →
      job.id = id → Unended system id
  | stored (job : Job) : system.backend.jobs id = some job → job.state.finished = false →
      Unended system id

/-- How far the messages about a job agree with its end. -/
structure Ledger (system : System) : Prop extends Traced system where
  distinct : ∀ id job, system.created id = some job → job.returnQueues.Nodup
  alone : ∀ first second job other, system.working first = some job →
    system.working second = some other → job.id = other.id → first = second
  ends : ∀ job, system.Shows job → system.EndsAs job
  silent : ∀ id, system.Unended id → ∀ queueName, system.messages id queueName = []
  poster : ∀ first second job other queueNames otherNames,
    system.posting first = some (job, queueNames) →
    system.posting second = some (other, otherNames) → job.id = other.id → first = second
  posts : ∀ processId job queueNames, system.posting processId = some (job, queueNames) →
    queueNames.Nodup ∧ ∀ queueName ∈ job.returnQueues,
      system.messages job.id queueName = if queueName ∈ queueNames then [] else [job.message]
  delivered : ∀ job, system.Ended job →
    (∀ processId other queueNames, system.posting processId = some (other, queueNames) →
      other.id ≠ job.id) →
    ∀ queueName ∈ job.returnQueues, system.messages job.id queueName = [job.message]

theorem EndsAs.not_unended {job : Job} (ends : system.EndsAs job) :
    ¬ system.Unended job.id := by
  intro unended
  cases unended with
  | unknown unknown => exact ends.known unknown
  | working processId other works same => exact ends.idle processId other works same
  | stored other found unfinished =>
      rw [(ends.stored other found).1, ends.finished] at unfinished
      cases unfinished

theorem initial_ledger (now : Nat) (workers : WorkerId → WorkerObj) :
    (initial now workers).Ledger where
  toTraced := initial_traced now workers
  distinct := by
    intro id job impossible
    cases impossible
  alone := by
    intro first second job other impossible
    cases impossible
  ends := by
    rintro job (⟨impossible, _⟩ | ⟨_, _, impossible⟩ | ⟨_, impossible, _⟩)
    all_goals cases impossible
  silent := fun _ _ _ => rfl
  poster := by
    intro first second job other queueNames otherNames impossible
    cases impossible
  posts := by
    intro processId job queueNames impossible
    cases impossible
  delivered := by
    intro job ended
    cases ended.1

section

variable {after : System}

theorem EndsAs.shrinks {job : Job} (ends : system.EndsAs job)
    (created : after.created = system.created)
    (working : ∀ processId job, after.working processId = some job →
      ∃ old, system.working processId = some old ∧ job.Same old)
    (jobs : ∀ id job, after.backend.jobs id = some job → system.backend.jobs id = some job) :
    after.EndsAs job where
  finished := ends.finished
  idle := by
    intro processId other works
    obtain ⟨old, worked, same⟩ := working processId other works
    rw [same.1]
    exact ends.idle processId old worked
  stored := fun other found => ends.stored other (jobs _ other found)
  known := by
    rw [created]
    exact ends.known

/-- Less work and fewer copies spoil nothing. -/
theorem Ledger.shrinks (ledger : system.Ledger) (traced : after.Traced)
    (created : after.created = system.created)
    (working : ∀ processId job, after.working processId = some job →
      ∃ old, system.working processId = some old ∧ job.Same old)
    (posting : after.posting = system.posting)
    (jobs : ∀ id job, after.backend.jobs id = some job → system.backend.jobs id = some job)
    (loaded : ∀ call job, after.loaded call = some job → system.loaded call = some job)
    (messages : ∀ id queueName,
      after.messages id queueName = system.messages id queueName) : after.Ledger where
  toTraced := traced
  distinct := by
    rw [created]
    exact ledger.distinct
  alone := by
    intro first second job other works otherWorks same
    obtain ⟨old, worked, alike⟩ := working first job works
    obtain ⟨otherOld, otherWorked, otherAlike⟩ := working second other otherWorks
    apply ledger.alone first second old otherOld worked otherWorked
    exact alike.1.symm.trans (same.trans otherAlike.1)
  ends := by
    intro job shows
    have before : system.EndsAs job := by
      apply ledger.ends
      cases shows with
      | stored found finished => exact .stored (jobs _ job found) finished
      | posting processId queueNames posts =>
          exact .posting processId queueNames (posting ▸ posts)
      | loaded call found finished => exact .loaded call (loaded call job found) finished
    exact before.shrinks created working jobs
  silent := by
    intro id unended queueName
    rw [messages]
    apply ledger.silent
    cases unended with
    | unknown unknown => exact .unknown (created ▸ unknown)
    | working processId job works same =>
        obtain ⟨old, worked, alike⟩ := working processId job works
        exact .working processId old worked (alike.1.symm.trans same)
    | stored job found unfinished => exact .stored job (jobs id job found) unfinished
  poster := by
    rw [posting]
    exact ledger.poster
  posts := by
    rw [posting]
    intro processId job queueNames posts
    simp only [messages]
    exact ledger.posts processId job queueNames posts
  delivered := by
    rw [posting]
    intro job ended unposted queueName member
    rw [messages]
    exact ledger.delivered job ⟨jobs _ job ended.1, ended.2⟩ unposted queueName member

end

end System

end JumpscaleX
