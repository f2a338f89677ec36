import JumpscaleX.Library.Runs
import JumpscaleX.MyWorkerProcess

/-!
# The job system

Any number of worker processes, calls of `schedule`, jobs that are started
again, deleted or polled with `check_ready`, and requests to halt, in any
order.  A call of `schedule` saves the job and later puts its id on the start
queue; a call of `check_ready` loads a job and later saves what it loaded.
-/

namespace JumpscaleX

open Runs

abbrev ProcessId := Nat

/-- The jobs that calls of `check_ready` have loaded are kept by call.  What
was scheduled, deleted and done is recorded, the latest operation first, and
`created` keeps every job as `schedule` saved it. -/
structure System where
  backend : Backend
  processes : ProcessId → Option Process
  scheduling : List JobId
  loaded : Nat → Option Job
  created : JobId → Option Job
  scheduled : JobId → Bool
  deleted : JobId → Bool
  log : List (ProcessId × Operation)

inductive Action where
  /-- One step of a worker process. -/
  | work (process : ProcessId) (evaluation : Evaluation)
  | launch (process : ProcessId) (workerId : WorkerId) (onetime : Bool) (pid : Nat)
  /-- The part of `schedule` that saves the job, under the id it is given. -/
  | create (id : JobId) (request : JobRequest)
  /-- The part of `schedule` that puts the id on the start queue. -/
  | put (id : JobId)
  /-- `MyJob.start`. -/
  | start (id : JobId)
  /-- Put `b"halt"` on the start queue. -/
  | halt
  /-- `MyWorker.stop`, on the worker object as the manager has it. -/
  | stopWorker (workerId : WorkerId) (worker : WorkerObj)
  /-- Save a worker object as `_state_set_new` leaves it. -/
  | renewWorker (workerId : WorkerId) (worker : WorkerObj)
  | delete (id : JobId)
  /-- The load of `check_ready`. -/
  | load (call : Nat) (id : JobId)
  /-- The part of `check_ready` behind the load. -/
  | check (call : Nat) (die : Bool)
  | tick
  deriving DecidableEq

namespace System

def onBackend (system : System) (change : Backend → Backend) : System :=
  { system with backend := change system.backend }

/-- The operation that a process is about to make, and the process behind it. -/
def next (system : System) (process : Process) (evaluation : Evaluation) :
    Process.Step :=
  process.step evaluation system.backend

/-- A step was made. -/
def advance (system : System) (processId : ProcessId) (step : Process.Step) : System :=
  { system with
    backend := step.1.apply system.backend
    processes := Function.update system.processes processId step.2
    log := (processId, step.1) :: system.log }

def work (system : System) (processId : ProcessId) (evaluation : Evaluation) : System :=
  match system.processes processId with
  | none => system
  | some process => system.advance processId (system.next process evaluation)

/-- `MyWorkerProcess._init`. -/
def launch (system : System) (processId : ProcessId) (workerId : WorkerId)
    (onetime : Bool) (pid : Nat) : System :=
  match system.processes processId with
  | some _ => system
  | none =>
      { system with
        processes :=
          Function.update system.processes processId
            (some
              { workerId := workerId, onetime := onetime, pid := pid,
                workerObj := system.backend.workers workerId, lastInfoPush := 0,
                place := .starting }) }

/-- `jobs.new` in `schedule`, with the settings behind it.  The database gives
an id that none of its records has. -/
def create (system : System) (id : JobId) (request : JobRequest) : System :=
  if id ≠ 0 ∧ system.backend.jobs id = none then
    let job := request.job id system.backend.now
    let emptied := if request.returnQueuesReset then request.returnQueues else []
    { system with
      backend := (system.backend.resetQueues (emptied.map queueKey)).setJob job
      scheduling := id :: system.scheduling
      created := Function.update system.created id (some job)
      scheduled := Function.update system.scheduled id false
      deleted := Function.update system.deleted id false }
  else system

def put (system : System) (id : JobId) : System :=
  if id ∈ system.scheduling then
    { system with
      backend := system.backend.putStart (.job id)
      scheduling := system.scheduling.erase id
      scheduled := Function.update system.scheduled id true }
  else system

def delete (system : System) (id : JobId) : System :=
  { system with
    backend := system.backend.deleteJob id
    deleted := Function.update system.deleted id true }

def load (system : System) (call : Nat) (id : JobId) : System :=
  match system.backend.jobs id with
  | none => system
  | some job => { system with loaded := Function.update system.loaded call (some job) }

/-- What a call of `check_ready` is about to save. -/
def checked (system : System) (call : Nat) (die : Bool) : Option Job :=
  (system.loaded call).bind (fun job =>
    (MyJob.checkReady die system.backend.now job).saved)

/-- Save it, and be done with the loaded job. -/
def check (system : System) (call : Nat) (die : Bool) : System :=
  { system with
    backend :=
      match system.checked call die with
      | none => system.backend
      | some job => system.backend.setJob job
    loaded := Function.update system.loaded call none }

def step (system : System) : Action → System
  | .work processId evaluation => system.work processId evaluation
  | .launch processId workerId onetime pid =>
      system.launch processId workerId onetime pid
  | .create id request => system.create id request
  | .put id => system.put id
  | .start id => system.onBackend (·.putStart (.job id))
  | .halt => system.onBackend (·.putStart .halt)
  | .stopWorker workerId worker =>
      system.onBackend (·.setWorker workerId (MyWorker.stop worker))
  | .renewWorker workerId worker =>
      system.onBackend (·.setWorker workerId (MyWorker.stateSetNew worker))
  | .delete id => system.delete id
  | .load call id => system.load call id
  | .check call die => system.check call die
  | .tick => system.onBackend (fun backend => { backend with now := backend.now + 1 })

/-- No jobs, no processes and empty queues, with the workers as they are
stored. -/
def initial (now : Nat) (workers : WorkerId → WorkerObj) : System where
  backend :=
    { now := now, jobs := fun _ => none, workers := workers, queueJobsStart := [],
      queues := fun _ => [] }
  processes := fun _ => none
  scheduling := []
  loaded := fun _ => none
  created := fun _ => none
  scheduled := fun _ => false
  deleted := fun _ => false
  log := []

/-- The system behind a list of actions. -/
def run (now : Nat) (workers : WorkerId → WorkerObj) (actions : List Action) : System :=
  Runs.run step (initial now workers) actions

end System

end JumpscaleX
