import JumpscaleX.MyJobs

/-!
# The worker process

`MyWorkerProcess.start`, one step for each of its accesses to redis and to the
database.  Between two steps of a process any other process may act.  What the
action of a job comes to is given from outside.
-/

namespace JumpscaleX

/-- What compiling and calling the action of a job comes to.  The value that
it returns is given as `json.dumps` writes it, if it can. -/
inductive Evaluation where
  | compileError (log : List (String × PyVal))
  | executionError (log : List (String × PyVal))
  | timedOut (log : List (String × PyVal))
  | returned (res : Option PyVal)
  deriving DecidableEq

/-- What one step of a process does to redis and to the database. -/
inductive Operation where
  | idle
  | get (res : Option Token)
  | reload
  | load (id : JobId)
  | scan (dep : JobId) (state : JobState)
  | evaluate (job : Job) (evaluation : Evaluation)
  | saveJob (job : Job)
  | saveWorker (workerId : WorkerId) (worker : WorkerObj)
  | relaunch (id : JobId)
  | post (queueName : String) (message : ResultMessage)
  | raised (problem : Exn)
  deriving DecidableEq

def Operation.apply (backend : Backend) : Operation → Backend
  | .get (some _) => backend.popStart
  | .saveJob job => backend.setJob job
  | .saveWorker workerId worker => backend.setWorker workerId worker
  | .relaunch id => backend.putStart (.job id)
  | .post queueName message => backend.put (queueKey queueName) message
  | _ => backend

/-- The places in the loop at which a process accesses redis or the database. -/
inductive Place where
  | starting
  | polling
  | reloading (res : Option Token)
  | waiting
  | fetching (jobid : JobId)
  | missing (jobid : JobId)
  | scanning (job : Job) (dependencies : List JobId) (skip relaunch : Bool)
  | relaunching (job : Job)
  | requeueing (job : Job)
  | accepting (job : Job)
  | evaluating (job : Job)
  | failing (job : Job)
  | succeeding (job : Job)
  | posting (job : Job) (queueNames : List String) (failed : Bool)
  | leaving
  deriving DecidableEq

structure Process where
  workerId : WorkerId
  onetime : Bool
  pid : Nat
  workerObj : WorkerObj
  lastInfoPush : Nat
  place : Place
  deriving DecidableEq

/-- The text by which a job tells that a dependency failed. -/
def dependencyFailed (dep : JobId) : String :=
  "cannot run because dependency failed: " ++ toString dep

/-- No such text can be set as the result of a job. -/
theorem clean_dependencyFailed (dep : JobId) :
    JsonType.clean (.str (dependencyFailed dep)) =
      .error (.valueError "Cannot load json") := by
  have opening : "cannot run because dependency failed: ".toList =
      'c' :: "annot run because dependency failed: ".toList := by simp
  have chars : (dependencyFailed dep).toList =
      'c' :: ("annot run because dependency failed: ".toList ++ (toString dep).toList) :=
    calc
      (dependencyFailed dep).toList =
          "cannot run because dependency failed: ".toList ++ (toString dep).toList :=
        String.toList_append
      _ = 'c' :: ("annot run because dependency failed: ".toList ++ (toString dep).toList) :=
        congrArg (· ++ (toString dep).toList) opening
  exact JsonType.clean_letter chars

namespace Process

/-- An operation, and the process behind it, if it goes on. -/
abbrev Step := Operation × Option Process

def goTo (process : Process) (place : Place) : Option Process :=
  some { process with place := place }

/-- The worker object as `_state_set` leaves it. -/
def stateSet (state : WorkerState) (now : Nat) (worker : WorkerObj) : WorkerObj :=
  { worker with state := state, currentJob := noJob, lastUpdate := now }

/-- Save a changed worker object and go on. -/
def saveWorker (process : Process) (worker : WorkerObj) (place : Place) : Step :=
  (.saveWorker process.workerId worker,
    some { process with workerObj := worker, place := place })

/-- The first save of `start`. -/
def starting (backend : Backend) (process : Process) : Step :=
  let worker := { stateSet .waiting backend.now process.workerObj with pid := process.pid }
  { process with lastInfoPush := backend.now }.saveWorker worker .polling

/-- Take an item off the start queue.  A onetime process tries until it gets
one. -/
def polling (backend : Backend) (process : Process) : Step :=
  match backend.queueJobsStart with
  | res :: _ => (.get (some res), process.goTo (.reloading (some res)))
  | [] =>
      if process.onetime then (.idle, some process)
      else (.get none, process.goTo (.reloading none))

/-- `stop` calls `_redis_set`, which no class has, before it saves anything. -/
def stop : Step :=
  (.raised (.attributeError "_redis_set"), none)

/-- Get the worker object anew and look for a request to halt. -/
def reloading (backend : Backend) (res : Option Token) (process : Process) : Step :=
  let worker := backend.workers process.workerId
  let process := { process with workerObj := worker }
  if worker.halt then stop
  else
    match res with
    | some .halt => stop
    | none => (.reload, process.goTo .waiting)
    | some (.job jobid) => (.reload, process.goTo (.fetching jobid))

/-- Nothing was on the queue. -/
def waiting (backend : Backend) (process : Process) : Step :=
  if process.lastInfoPush + 20 < backend.now then
    { process with lastInfoPush := backend.now }.saveWorker
      (stateSet .waiting backend.now process.workerObj) .leaving
  else (.idle, process.goTo .leaving)

def fetching (backend : Backend) (jobid : JobId) (process : Process) : Step :=
  match backend.jobs jobid with
  | none => (.load jobid, process.goTo (.missing jobid))
  | some job =>
      let job := { job with timeStart := backend.now }
      (.load jobid, process.goTo (.scanning job job.dependencies false false))

/-- The job could not be loaded. -/
def missing (backend : Backend) (jobid : JobId) (process : Process) : Step :=
  if (backend.jobs jobid).isSome then (.raised (.notFound "could not find obj"), none)
  else (.idle, process.goTo .polling)

/-- Look at the next dependency. -/
def scanNext (backend : Backend) (job : Job) (dep : JobId) (dependencies : List JobId)
    (skip relaunch : Bool) (process : Process) : Step :=
  match backend.jobs dep with
  | none => (.raised (.notFound "could not find obj"), none)
  | some jobDep =>
      if jobDep.state = .error then
        -- the result is of the json type, whose setter parses the text
        match JsonType.clean (.str (dependencyFailed jobDep.id)) with
        | .error problem => (.raised problem, none)
        | .ok result =>
            let job :=
              { job with
                state := jobDep.state, result := result, timeStop := backend.now,
                error := [("dependency_failure", .int jobDep.id)] }
            (.saveJob job, process.goTo (.scanning job dependencies true relaunch))
      else if jobDep.state.fulfilled then
        (.scan dep jobDep.state, process.goTo (.scanning job dependencies skip relaunch))
      else
        (.scan dep jobDep.state, process.goTo (.scanning job dependencies true true))

/-- All dependencies were looked at. -/
def scanned (job : Job) (skip relaunch : Bool) (process : Process) : Step :=
  if skip then
    if relaunch then (.idle, process.goTo (.relaunching job))
    else (.idle, process.goTo .leaving)
  else (.idle, process.goTo (.accepting job))

def relaunching (job : Job) (process : Process) : Step :=
  let job := { job with state := .new }
  (.saveJob job, process.goTo (.requeueing job))

def accepting (backend : Backend) (job : Job) (process : Process) : Step :=
  process.saveWorker
    { process.workerObj with
      lastUpdate := backend.now, currentJob := job.id, state := .busy }
    (.evaluating job)

/-- The place to go to once the action was called, with the job as it is then
to be saved. -/
def evaluated (now : Nat) (job : Job) : Evaluation → Place
  | .compileError log | .executionError log =>
      .failing { job with error := log, state := .error, timeStop := now }
  | .timedOut log =>
      .failing
        { job with error := log, state := .error, timeStop := now, errorCat := .timeout }
  | .returned none =>
      .failing { job with error := [], state := .error, timeStop := now }
  | .returned (some res) =>
      .succeeding { job.setResult res with timeStop := now, state := .ok }

/-- Save a job that ended well. -/
def succeeding (job : Job) (process : Process) : Step :=
  match JsonType.toData job.result with
  | .error problem => (.raised problem, none)
  | .ok result =>
      (.saveJob { job with result := result },
        process.goTo (.posting job job.returnQueues false))

/-- All messages were put. -/
def posted (backend : Backend) (failed : Bool) (process : Process) : Step :=
  if failed then
    if process.onetime then (.idle, none) else (.idle, process.goTo .polling)
  else if backend.queueJobsStart = [] then
    process.saveWorker (stateSet .waiting backend.now process.workerObj) .leaving
  else (.idle, process.goTo .leaving)

/-- The end of an iteration. -/
def leaving (backend : Backend) (process : Process) : Step :=
  if process.onetime then
    (.saveWorker process.workerId (stateSet .halted backend.now process.workerObj), none)
  else (.idle, process.goTo .polling)

/-- One step of a process. -/
def step (evaluation : Evaluation) (backend : Backend) (process : Process) : Step :=
  match process.place with
  | .starting => process.starting backend
  | .polling => process.polling backend
  | .reloading res => process.reloading backend res
  | .waiting => process.waiting backend
  | .fetching jobid => process.fetching backend jobid
  | .missing jobid => process.missing backend jobid
  | .scanning job (dep :: dependencies) skip relaunch =>
      process.scanNext backend job dep dependencies skip relaunch
  | .scanning job [] skip relaunch => process.scanned job skip relaunch
  | .relaunching job => process.relaunching job
  | .requeueing job => (.relaunch job.id, process.goTo .leaving)
  | .accepting job => process.accepting backend job
  | .evaluating job =>
      (.evaluate job evaluation, process.goTo (evaluated backend.now job evaluation))
  | .failing job =>
      (.saveJob job, process.goTo (.posting job job.returnQueues true))
  | .succeeding job => process.succeeding job
  | .posting job (queueName :: queueNames) failed =>
      (.post queueName job.message, process.goTo (.posting job queueNames failed))
  | .posting _ [] failed => process.posted backend failed
  | .leaving => process.leaving backend

end Process

end JumpscaleX
