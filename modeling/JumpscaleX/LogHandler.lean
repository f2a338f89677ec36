import Mathlib.Order.Nat
import JumpscaleX.Library.OrderedMap
import JumpscaleX.Library.Runs

/-!
# The log handler

`LogHandler.handle_log` and `_data_container_dump`, as the redis commands and
the file operations that any number of processes take under one application
name, in any order.
-/

namespace JumpscaleX.Logs

/-- A log dict, as far as the logger looks at it. -/
structure LogDict (M : Type) where
  id : Nat
  epoch : Int
  message : M
  deriving DecidableEq

/-- A container file, named after the last id that it covers. -/
structure Container (M : Type) where
  stopid : Nat
  ctime : Int
  logs : List (LogDict M)
  deriving DecidableEq

/-- What a process does next. -/
inductive Stage (M : Type) where
  | idle
  | storing (logdict : LogDict M)
  | reading (latest_id : Nat) (r : List (LogDict M))
  | listing (latest_id : Nat)
  | removing (keys : List Nat)

/-- The redis keys and the container files of an application, oldest file
first, and the processes that log.  What was logged, rotated away or failed is
remembered beside them. -/
structure Logging (P M : Type) where
  incr : Nat
  data : OrderedMap Nat (LogDict M)
  containers : List (Container M)
  stage : P → Stage M
  logged : List (LogDict M)
  rotated : List (Container M)
  failed : List Nat

namespace Logging

variable {P M : Type} [DecidableEq P]

def init : Logging P M where
  incr := 0
  data := .empty
  containers := []
  stage := fun _ => .idle
  logged := []
  rotated := []
  failed := []

/-- A process goes on to its next step. -/
def goTo (s : Logging P M) (p : P) (next : Stage M) : Logging P M :=
  { s with stage := fun q => if q = p then next else s.stage q }

/-- `handle_log` up to its `incr`. -/
def handle_log (s : Logging P M) (p : P) (message : M) (epoch now : Int) : Logging P M :=
  let latest_id := s.incr + 1
  let logdict := ⟨latest_id, if epoch = 0 then now else epoch, message⟩
  { s with incr := latest_id, logged := s.logged ++ [logdict] }.goTo p (.storing logdict)

/-- Whether a container is dumped behind this message. -/
def Dumps (latest_id : Nat) : Prop :=
  2000 ≤ latest_id ∧ latest_id % 1000 = 0

instance : DecidablePred Dumps :=
  fun latest_id => inferInstanceAs (Decidable (2000 ≤ latest_id ∧ latest_id % 1000 = 0))

/-- The `hset` of `handle_log`. -/
def hset (s : Logging P M) (p : P) (logdict : LogDict M) : Logging P M :=
  { s with data := s.data.insert logdict.id logdict }.goTo p
    (if Dumps logdict.id then .reading logdict.id [] else .idle)

/-- One `_redis_get` of `_data_container_dump`. -/
def _redis_get (s : Logging P M) (p : P) (latest_id : Nat) (r : List (LogDict M)) :
    Logging P M :=
  match s.data.lookup (latest_id - 2000 + 1 + r.length) with
  | none => { s with failed := s.failed ++ [latest_id] }.goTo p .idle
  | some logdict => s.goTo p (.reading latest_id (r ++ [logdict]))

/-- How many of the oldest files are deleted when there are so many. -/
def toDelete (count files : Nat) : Nat :=
  if count + 1 < files then files - count + 10 else 0

/-- The file of a container is written, and old files are rotated away. -/
def file_write (count : Nat) (s : Logging P M) (p : P) (latest_id : Nat)
    (r : List (LogDict M)) (now : Int) : Logging P M :=
  let stopid := latest_id - 1000
  let all_files := s.containers.filter (fun file => file.stopid ≠ stopid) ++ [⟨stopid, now, r⟩]
  let deleted := toDelete count all_files.length
  { s with
    containers := all_files.drop deleted
    rotated := s.rotated ++ all_files.take deleted }.goTo p (.listing latest_id)

/-- The keys that are left to remove. -/
def rest (keys : List Nat) : Stage M :=
  if keys = [] then .idle else .removing keys

/-- `hkeys`, and the keys that a dump removes. -/
def hkeys (s : Logging P M) (p : P) (latest_id : Nat) : Logging P M :=
  s.goTo p (rest (s.data.keys.filter (fun key => key < latest_id - 1000 + 1)))

/-- One `hdel`, of a chunk of keys. -/
def hdel (s : Logging P M) (p : P) (keys : List Nat) : Logging P M :=
  { s with data := s.data.filter (fun key _ => key ∉ keys.take 100) }.goTo p
    (rest (keys.drop 100))

/-- What a process does where it stands. -/
def go (count : Nat) (s : Logging P M) (p : P) (now : Int) : Logging P M :=
  match s.stage p with
  | .idle => s
  | .storing logdict => s.hset p logdict
  | .reading latest_id r =>
      if r.length < 1000 then s._redis_get p latest_id r
      else s.file_write count p latest_id r now
  | .listing latest_id => s.hkeys p latest_id
  | .removing keys => s.hdel p keys

/-- A process that is idle logs a message, or a process takes its next step. -/
inductive Action (P M : Type) where
  | log (p : P) (message : M) (epoch now : Int)
  | go (p : P) (now : Int)

def step (count : Nat) (s : Logging P M) : Action P M → Logging P M
  | .log p message epoch now =>
      match s.stage p with
      | .idle => s.handle_log p message epoch now
      | _ => s
  | .go p now => s.go count p now

/-- All calls of `handle_log` have completed. -/
def Quiet (s : Logging P M) : Prop :=
  ∀ p, s.stage p = .idle

/-- How many containers were written so far. -/
def written (s : Logging P M) : Nat :=
  s.rotated.length + s.containers.length

end Logging

end JumpscaleX.Logs
