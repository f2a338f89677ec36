import JumpscaleX.MyJobsFactory

/-!
# Waiting on return queues

`MyJobsFactory.wait_queues`, one step for each of its accesses to redis and to
the database, next to the job system.
-/

namespace JumpscaleX

open Runs

/-- The redis key of the queue that `wait_queues` looks at. -/
def waitKey (queueName : String) : String :=
  "myjobs:wait:" ++ queueName

/-- The places of `wait_queues` at which it accesses redis or the database. -/
inductive Waiting where
  | counting (queueNames : List String)
  | draining (res : List Job)
  | loading (jobid : JobId) (res : List Job)
  | resetting (queueNames : List String) (answer : Except Exn (List Job))
  | answered (answer : Except Exn (List Job))
  /-- The time is over, and nothing is returned. -/
  | expired
  deriving DecidableEq

/-- A call of `wait_queues`. -/
structure Waiter where
  queueNames : List String
  size : Nat
  die : Bool
  place : Waiting
  deriving DecidableEq

def Backend.pop (backend : Backend) (key : String) : Backend :=
  { backend with queues := Function.update backend.queues key (backend.queues key).tail }

namespace Waiter

def call (queueNames : List String) (size : Nat) (die : Bool) : Waiter where
  queueNames := queueNames
  size := size
  die := die
  place := if size = 0 then .answered (.ok []) else .counting queueNames

def goTo (waiter : Waiter) (place : Waiting) : Waiter :=
  { waiter with place := place }

/-- The queue that the loop over the names ends with is drained. -/
def draining (backend : Backend) (res : List Job) (waiter : Waiter) : Backend × Waiter :=
  match waiter.queueNames.getLast? with
  | none => (backend, waiter.goTo (.answered (.error (.attributeError "get_nowait"))))
  | some queueName =>
      match backend.queues (waitKey queueName) with
      | [] => (backend, waiter.goTo (.resetting waiter.queueNames (.ok res)))
      | message :: _ =>
          (backend.pop (waitKey queueName), waiter.goTo (.loading message.id res))

def loading (backend : Backend) (jobid : JobId) (res : List Job) (waiter : Waiter) :
    Waiter :=
  match backend.jobs jobid with
  | none => waiter.goTo (.answered (.error (.notFound "could not find obj")))
  | some job =>
      if job.error ≠ [] ∧ waiter.die then
        waiter.goTo
          (.resetting waiter.queueNames
            (.error (.base ("job failed: " ++ toString job.id))))
      else waiter.goTo (.draining (res ++ [job]))

/-- One step of the call. -/
def step (backend : Backend) (waiter : Waiter) : Backend × Waiter :=
  match waiter.place with
  | .counting [] => (backend, waiter.goTo (.draining []))
  | .counting (queueName :: queueNames) =>
      if (backend.queues (waitKey queueName)).length < waiter.size then (backend, waiter)
      else (backend, waiter.goTo (.counting queueNames))
  | .draining res => waiter.draining backend res
  | .loading jobid res => (backend, waiter.loading backend jobid res)
  | .resetting [] answer => (backend, waiter.goTo (.answered answer))
  | .resetting (queueName :: queueNames) answer =>
      if backend.queues (waitKey queueName) = [] then
        (backend, waiter.goTo (.resetting queueNames answer))
      else (backend.pop (waitKey queueName), waiter)
  | .answered _ | .expired => (backend, waiter)

end Waiter

/-- The job system with a call of `wait_queues`, once it is made. -/
structure WaitSystem where
  system : System
  waiter : Option Waiter

inductive WaitAction where
  | act (action : Action)
  | call (queueNames : List String) (size : Nat) (die : Bool)
  | wait
  | expire
  deriving DecidableEq

namespace WaitSystem

def step (state : WaitSystem) : WaitAction → WaitSystem
  | .act action => { state with system := state.system.step action }
  | .call queueNames size die =>
      match state.waiter with
      | some _ => state
      | none => { state with waiter := some (.call queueNames size die) }
  | .wait =>
      match state.waiter with
      | none => state
      | some waiter =>
          let (backend, waiter) := waiter.step state.system.backend
          { system := { state.system with backend := backend }, waiter := some waiter }
  | .expire =>
      match state.waiter with
      | none => state
      | some waiter =>
          match waiter.place with
          | .answered _ => state
          | _ => { state with waiter := some (waiter.goTo .expired) }

def initial (now : Nat) (workers : WorkerId → WorkerObj) : WaitSystem where
  system := System.initial now workers
  waiter := none

def run (now : Nat) (workers : WorkerId → WorkerObj) (actions : List WaitAction) :
    WaitSystem :=
  Runs.run step (initial now workers) actions

end WaitSystem

end JumpscaleX
