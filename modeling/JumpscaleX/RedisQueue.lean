import JumpscaleX.Library.Runs
import Mathlib.Data.List.Rotate
import Mathlib.Logic.Function.Basic

/-!
# The redis queue

`RedisQueue`: items enter a redis list on the right and leave it on the left.  Any
number of clients call its methods; each redis command is one step.
-/

namespace JumpscaleX.RedisQueue

open Runs Stateful

/-- The commands of redis on a list; the head is on the left. -/
def rpush {I : Type} (items : List I) (item : I) : List I := items ++ [item]

def lpop {I : Type} : List I → Option I × List I
  | [] => (none, [])
  | item :: items => (some item, items)

def brpoplpush {I : Type} (items : List I) : Option I × List I :=
  match items.getLast? with
  | none => (none, items)
  | some item => (some item, item :: items.dropLast)

/-- Between two commands of `reset`: before `self.empty`, or before `get_nowait`. -/
inductive ResetPhase
  | checking
  | popping
  deriving DecidableEq, Repr

/-- A call of `reset` under way, and whether nobody else put an item meanwhile. -/
structure Resetting where
  phase : ResetPhase
  alone : Bool
  deriving DecidableEq, Repr

/-- The redis list and the calls of `reset` under way.  Beside them, what was put
and what was returned by gets, in order. -/
structure Queue (C I : Type) where
  items : List I
  resets : C → Option Resetting
  puts : List I
  taken : List I

inductive Action (C I : Type)
  | put (client : C) (item : I)
  | get (client : C) (timeout : Nat)
  | get_nowait (client : C)
  | fetch (client : C) (block : Bool)
  | qsize (client : C)
  | reset (client : C)
  | resetStep (client : C)
  deriving DecidableEq, Repr

/-- What a call hands back, or what ends it. -/
inductive Reply (I : Type)
  | done
  | item (item : Option I)
  | size (size : Nat)
  | attributeError
  deriving DecidableEq, Repr

namespace Queue

variable {C I : Type} [DecidableEq C]

/-- A list that was filled before the clients came. -/
def start (items : List I) : Queue C I where
  items := items
  resets := fun _ => none
  puts := items
  taken := []

/-- `put`; a `reset` of somebody else is no longer alone. -/
def put (q : Queue C I) (item : I) : Queue C I × Option (Reply I) :=
  ({ q with
    items := rpush q.items item
    puts := q.puts ++ [item]
    resets := fun client =>
      (q.resets client).map (fun resetting => { resetting with alone := false }) },
    some .done)

/-- `get`: `blpop` when there is a timeout, `lpop` otherwise.  A `blpop` that finds
nothing goes on waiting, up to its timeout. -/
def get (q : Queue C I) (timeout : Nat) : Queue C I × Option (Reply I) :=
  let (item, items) := lpop q.items
  if timeout > 0 then
    match item with
    | some found => ({ q with items := items, taken := q.taken ++ [found] },
        some (.item (some found)))
    | none => (q, some (.item none))
  else
    ({ q with items := items, taken := q.taken ++ item.toList }, some (.item item))

/-- `get_nowait`, which is `get(False)`. -/
def get_nowait (q : Queue C I) : Queue C I × Option (Reply I) :=
  q.get 0

def fetch (q : Queue C I) (block : Bool) : Queue C I × Option (Reply I) :=
  if block then
    let (item, items) := brpoplpush q.items
    ({ q with items := items }, some (.item item))
  else
    (q, some (.item q.items[0]?))

def qsize (q : Queue C I) : Nat := q.items.length

def empty (q : Queue C I) : Bool := q.qsize == 0

def setReset (q : Queue C I) (client : C) (resetting : Option Resetting) : Queue C I :=
  { q with resets := Function.update q.resets client resetting }

/-- The loop of `reset`, command by command; `self.empty = True` is an assignment to
a property that has no setter. -/
def resetStep (q : Queue C I) (client : C) (resetting : Resetting) :
    Queue C I × Option (Reply I) :=
  match resetting.phase with
  | .checking =>
      if q.empty then (q.setReset client none, some .done)
      else (q.setReset client (some { resetting with phase := .popping }), none)
  | .popping =>
      match q.get_nowait with
      | (rest, some (.item none)) => (rest.setReset client none, some .attributeError)
      | (rest, _) => (rest.setReset client (some { resetting with phase := .checking }), none)

/-- Who is in the middle of a `reset` goes on with it, the others call what they like. -/
def perform (q : Queue C I) : Action C I → Queue C I × Option (Reply I)
  | .put client item => if (q.resets client).isNone then q.put item else (q, none)
  | .get client timeout => if (q.resets client).isNone then q.get timeout else (q, none)
  | .get_nowait client => if (q.resets client).isNone then q.get_nowait else (q, none)
  | .fetch client block => if (q.resets client).isNone then q.fetch block else (q, none)
  | .qsize client => if (q.resets client).isNone then (q, some (.size q.qsize)) else (q, none)
  | .reset client =>
      if (q.resets client).isNone then
        (q.setReset client (some ⟨.checking, true⟩), none)
      else (q, none)
  | .resetStep client =>
      match q.resets client with
      | some resetting => q.resetStep client resetting
      | none => (q, none)

def step (q : Queue C I) (action : Action C I) : Queue C I :=
  (q.perform action).1

def reply (q : Queue C I) (action : Action C I) : Option (Reply I) :=
  (q.perform action).2

end Queue

end JumpscaleX.RedisQueue
