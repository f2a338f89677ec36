import Mathlib.Logic.Function.Basic
import JumpscaleX.JsonType

/-!
# Jobs and workers

The records of `schemas.py`, what `MyJob` and `MyWorker` do to them, and the
part of redis and of the database that all processes share.  What an action
does is left open, so the fields that only feed it are left out.
-/

namespace JumpscaleX

abbrev JobId := Nat
abbrev WorkerId := Nat

inductive JobState where
  | new | error | ok | running | done
  deriving DecidableEq

inductive ErrorCat where
  | na | timeout | crash | halted | error
  deriving DecidableEq

inductive WorkerState where
  | new | error | busy | waiting | halted
  deriving DecidableEq

namespace JobState

/-- The states in which a job has come to its end. -/
def finished : JobState → Bool
  | .ok | .error => true
  | _ => false

/-- The states in which a job counts as done for those that depend on it. -/
def fulfilled : JobState → Bool
  | .ok | .done => true
  | _ => false

end JobState

structure Job where
  id : JobId
  timeStart : Nat
  timeStop : Nat
  state : JobState
  errorCat : ErrorCat
  timeout : Nat
  result : PyVal
  error : List (String × PyVal)
  dependencies : List JobId
  returnQueues : List String
  deriving DecidableEq

structure WorkerObj where
  state : WorkerState
  halt : Bool
  currentJob : JobId
  lastUpdate : Nat
  pid : Nat
  deriving DecidableEq

/-- What is put on a return queue. -/
structure ResultMessage where
  id : JobId
  result : PyVal
  state : JobState
  deriving DecidableEq

/-- An item of the start queue. -/
inductive Token where
  | job (id : JobId)
  | halt
  deriving DecidableEq

/-- The arguments of `schedule` that end up in the job. -/
structure JobRequest where
  dependencies : List JobId
  timeout : Nat
  returnQueues : List String
  returnQueuesReset : Bool
  deriving DecidableEq

/-- The job that `schedule` saves before it is put on the start queue. -/
def JobRequest.job (request : JobRequest) (id : JobId) (now : Nat) : Job where
  id := id
  timeStart := now
  timeStop := 0
  state := .new
  errorCat := .na
  timeout := request.timeout
  result := .dict []
  error := []
  dependencies := request.dependencies
  returnQueues := request.returnQueues

namespace Job

def message (job : Job) : ResultMessage where
  id := job.id
  result := job.result
  state := job.state

/-- Set a property; a value that compares equal to the present one is not set. -/
def setResult (value : PyVal) (job : Job) : Job :=
  if value.pyEq job.result then job else { job with result := value }

end Job

/-- The redis key of a return queue. -/
def queueKey (queueName : String) : String :=
  "myjobs:" ++ queueName

namespace MyJob

/-- What `check_ready` saves, and what it answers. -/
structure Checked where
  saved : Option Job
  answer : Except Exn Bool

/-- `check_ready` of a job that was just loaded. -/
def checkReady (die : Bool) (now : Nat) (job : Job) : Checked :=
  if job.state = .error then
    let job := if job.errorCat = .na then { job with errorCat := .error } else job
    if die then ⟨some job, .error (.base ("job failed: " ++ toString job.id))⟩
    else ⟨some job, .ok true⟩
  else if job.timeStop = 0 then
    if job.timeout ≠ 0 ∧ job.timeStart + job.timeout < now then
      let job := { job with errorCat := .timeout }
      if die then ⟨some job, .error (.timeout ("Job timed out: " ++ toString job.id))⟩
      else ⟨some job, .ok true⟩
    else ⟨none, .ok false⟩
  else ⟨none, .ok true⟩

/-- `check_ready` saves the job as it was loaded, up to its error category. -/
theorem checkReady_saved {die : Bool} {now : Nat} {job saved : Job}
    (saves : (checkReady die now job).saved = some saved) :
    ∃ errorCat, saved = { job with errorCat := errorCat } := by
  unfold checkReady at saves
  split at saves
  · by_cases fresh : job.errorCat = .na
    · refine ⟨.error, ?_⟩
      cases die <;> simp [fresh] at saves <;> exact saves.symm
    · refine ⟨job.errorCat, ?_⟩
      cases die <;> simp [fresh] at saves <;> exact saves.symm
  · split at saves
    · split at saves
      · refine ⟨.timeout, ?_⟩
        cases die <;> simp at saves <;> exact saves.symm
      · cases saves
    · cases saves

end MyJob

/-- The job number that stands for no job. -/
def noJob : JobId := 2147483647

namespace MyWorker

/-- `stop` in the nice way. -/
def stop (worker : WorkerObj) : WorkerObj :=
  { worker with halt := true }

/-- `_state_set_new`. -/
def stateSetNew (worker : WorkerObj) : WorkerObj :=
  { worker with
    lastUpdate := 0, state := .new, pid := 0, currentJob := noJob, halt := false }

end MyWorker

/-- What all processes share: the stored jobs and workers, the start queue, the
return queues under their redis keys, and the time. -/
structure Backend where
  now : Nat
  jobs : JobId → Option Job
  workers : WorkerId → WorkerObj
  queueJobsStart : List Token
  queues : String → List ResultMessage

namespace Backend

def setJob (backend : Backend) (job : Job) : Backend :=
  { backend with jobs := Function.update backend.jobs job.id (some job) }

def deleteJob (backend : Backend) (id : JobId) : Backend :=
  { backend with jobs := Function.update backend.jobs id none }

def setWorker (backend : Backend) (workerId : WorkerId) (worker : WorkerObj) :
    Backend :=
  { backend with workers := Function.update backend.workers workerId worker }

/-- `RPUSH` on the start queue. -/
def putStart (backend : Backend) (token : Token) : Backend :=
  { backend with queueJobsStart := backend.queueJobsStart ++ [token] }

/-- `LPOP` of the start queue. -/
def popStart (backend : Backend) : Backend :=
  { backend with queueJobsStart := backend.queueJobsStart.tail }

/-- `RPUSH` on a return queue. -/
def put (backend : Backend) (key : String) (message : ResultMessage) : Backend :=
  { backend with
    queues := Function.update backend.queues key (backend.queues key ++ [message]) }

def resetQueues (backend : Backend) (keys : List String) : Backend :=
  { backend with
    queues := fun key => if key ∈ keys then [] else backend.queues key }

end Backend

end JumpscaleX
