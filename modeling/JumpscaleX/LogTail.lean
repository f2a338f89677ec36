import JumpscaleX.LoggerClient

/-!
# Following the logs

`LoggerClient.tail_get`, which walks back over redis one key at a time while
processes go on logging and messages are deleted.
-/

namespace JumpscaleX.Logs

/-- A walk of `walk_reverse` under way: the keys between `firstkey` and `i` are
still to be read. -/
structure Tail (M : Type) where
  maxitems : Int
  epoch_to : Int
  lastkey : Nat
  i : Int
  nrdone : Int
  res : List (LogDict M)

/-- An application that logs, and a client that follows it.  Beside the last id
that the client passes on, what it was given so far, the counter at its latest call
and where it started, and the messages that were deleted, are remembered. -/
structure Following (P M : Type) where
  logging : Logging P M
  lastid : Option Nat
  delivered : List (LogDict M)
  tail : Option (Tail M)
  start : Option Nat
  mark : Option Nat
  deleted : List Nat

namespace Following

variable {P M : Type}

/-- A client that passes this id with its first call. -/
def begin (logging : Logging P M) (lastid : Option Nat) : Following P M where
  logging := logging
  lastid := lastid
  delivered := []
  tail := none
  start := lastid
  mark := lastid
  deleted := []

/-- `delete_by_ids`, for one id. -/
def delete (f : Following P M) (identifier : Nat) : Following P M :=
  { f with
    logging := { f.logging with data := f.logging.data.erase identifier }
    deleted := f.deleted ++ [identifier] }

/-- `tail_get`, up to the `get` of the counter. -/
def tail_get (f : Following P M) (maxitems now : Int) : Following P M :=
  let lastkey := f.logging.incr
  { f with
    tail := some ⟨maxitems, now + 1, lastkey, lastkey, 1, []⟩
    start := f.start.or (some lastkey) }

/-- The end of `walk_reverse`: the method is called in the order of the ids. -/
def finish (f : Following P M) (w : Tail M) : Following P M :=
  { f with
    tail := none
    mark := some w.lastkey
    delivered := f.delivered ++
      w.res.reverse.filter (fun logdict => 0 ≤ logdict.epoch ∧ logdict.epoch ≤ w.epoch_to)
    lastid := match w.res.reverse.getLast? with
      | some logdict => some logdict.id
      | none => f.lastid }

/-- One turn of the loop of `walk_reverse`. -/
def read (f : Following P M) (w : Tail M) : Following P M :=
  if w.lastkey - 2000 < w.i then
    match f.logging.get w.i with
    | none => { f with tail := some { w with i := w.i - 1 } }
    | some logdict =>
        if w.maxitems < w.nrdone then f.finish w
        else if f.lastid = some logdict.id then f.finish w
        else
          { f with
            tail := some { w with
              i := w.i - 1
              nrdone := w.nrdone + 1
              res := w.res ++ [logdict] } }
  else f.finish w

/-- A step of the application, a deletion, or a step of the client. -/
inductive Action (P M : Type) where
  | log (action : Logging.Action P M)
  | delete (identifier : Nat)
  | tail_get (maxitems now : Int)
  | read

def step [DecidableEq P] (count : Nat) (f : Following P M) : Action P M → Following P M
  | .log action => { f with logging := f.logging.step count action }
  | .delete identifier => f.delete identifier
  | .tail_get maxitems now =>
      match f.tail with
      | none => f.tail_get maxitems now
      | some _ => f
  | .read =>
      match f.tail with
      | none => f
      | some w => f.read w

end Following

end JumpscaleX.Logs
