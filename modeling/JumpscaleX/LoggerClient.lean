import Mathlib.Data.List.Dedup
import JumpscaleX.LogHandler

/-!
# The logger client

`LoggerClient.walk` over the container files and the redis hash of an
application, oldest message first.
-/

namespace JumpscaleX.Logs

/-- Why a walk raises. -/
inductive ClientError where
  | cannotFind (identifier : Nat)
  | assertion
  deriving DecidableEq

/-- What a walk is asked for: the first id, the times, and the number of messages.
No first id is the id 0. -/
structure Query where
  id_from : Int
  time_from : Option Int
  time_to : Option Int
  maxitems : Int
  now : Int

namespace Query

def epoch_from (query : Query) : Int := query.time_from.getD 0

def epoch_to (query : Query) : Int := query.time_to.getD (query.now + 1)

variable {M : Type}

/-- What `__do` hands to the method. -/
def InTime (query : Query) (logdict : LogDict M) : Prop :=
  query.epoch_from ≤ logdict.epoch ∧ logdict.epoch ≤ query.epoch_to

instance (query : Query) : DecidablePred (query.InTime (M := M)) :=
  fun logdict => inferInstanceAs
    (Decidable (query.epoch_from ≤ logdict.epoch ∧ logdict.epoch ≤ query.epoch_to))

end Query

namespace Logging

variable {P M : Type}

def _data_container_get (s : Logging P M) (identifier : Nat) :
    Except ClientError (List (LogDict M)) :=
  match s.containers.find? (fun file => file.stopid = identifier * 1000) with
  | none => .error (.cannotFind identifier)
  | some file => if file.logs.length = 1000 then .ok file.logs else .error .assertion

/-- Whether the creation time of a container lies in the times asked for. -/
def Created (query : Query) (file : Container M) : Prop :=
  query.epoch_from < file.ctime + 1 ∧
    file.ctime - 1 < if query.epoch_to = 0 then query.now else query.epoch_to

instance (query : Query) : DecidablePred (Created (M := M) query) :=
  fun file => inferInstanceAs (Decidable (query.epoch_from < file.ctime + 1 ∧
    file.ctime - 1 < if query.epoch_to = 0 then query.now else query.epoch_to))

/-- The containers of a time frame, and the one before the first of them. -/
def _data_container_ids_get_from_time (s : Logging P M) (query : Query) : List Nat :=
  let found := s.containers.filter (fun file => Created query file)
  let res := (found.map (fun file => file.stopid / 1000)).dedup.mergeSort
  match res with
  | [] => []
  | first :: _ => if 1 < first then (first - 1) :: res else res

/-- `get`, for one id of the redis hash. -/
def get (s : Logging P M) : Int → Option (LogDict M)
  | .ofNat identifier => s.data.lookup identifier
  | .negSucc _ => none

/-- The loop of `walk` over messages: those it hands to the method, and the count
it goes on with, or nothing when it returns. -/
def walkLogs (query : Query) (id_from : Int) :
    Int → List (LogDict M) → List (LogDict M) × Option Int
  | nrdone, [] => ([], some nrdone)
  | nrdone, logdict :: rest =>
      if query.maxitems < nrdone then ([], none)
      else if id_from ≠ 0 ∧ (logdict.id : Int) < id_from then walkLogs query id_from nrdone rest
      else if query.InTime logdict then
        let (visited, left) := walkLogs query id_from (nrdone + 1) rest
        (logdict :: visited, left)
      else walkLogs query id_from nrdone rest

/-- The loop of `walk` over containers. -/
def walkContainers (s : Logging P M) (query : Query) :
    Int → List Nat → Except ClientError (List (LogDict M) × Option Int)
  | nrdone, [] => .ok ([], some nrdone)
  | nrdone, container_id :: ids => do
      let logs ← s._data_container_get container_id
      match walkLogs query query.id_from nrdone logs with
      | (visited, none) => .ok (visited, none)
      | (visited, some nrdone) => do
          let (later, left) ← s.walkContainers query nrdone ids
          .ok (visited ++ later, left)

/-- `range`. -/
def range (start stop : Int) : List Int :=
  (List.range (stop - start).toNat).map (fun (offset : Nat) => start + offset)

/-- The messages that `walk` hands to the method. -/
def walk (s : Logging P M) (query : Query) : Except ClientError (List (LogDict M)) := do
  let ids := s._data_container_ids_get_from_time query
  let (visited, left) ← s.walkContainers query 1 ids
  match left with
  | none => .ok visited
  | some nrdone => do
      let lastkey : Int := s.incr
      let firstkey := lastkey - 2000
      let recent := (range (firstkey - 1) lastkey).filterMap s.get
      .ok (visited ++ (walkLogs query 0 nrdone recent).1)

end Logging

end JumpscaleX.Logs
