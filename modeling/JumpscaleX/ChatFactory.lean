import JumpscaleX.Library.Runs
import Mathlib.Logic.Function.Basic

/-!
# The factory of the chat sessions

`GedisChatBotFactory`: every session has a flow of its own, a queue of outputs and the
last output.  What a flow does between two of its switches is given from outside.  The
factory remembers one greenlet, the one that was spawned last to fetch an output.
-/

namespace JumpscaleX.Chats

open Runs Stateful

/-- `info` of a session. -/
structure Info where
  step : Nat
  steps : Nat
  title : Option String
  previous : Bool
  lastStep : Bool
  firstStep : Bool
  firstSlide : Bool
  slide : Nat
  deriving DecidableEq, Repr

/-- The data of a message, under its category. -/
structure Payload (D : Type) where
  category : String
  data : D
  deriving DecidableEq, Repr

/-- What `send_data` puts into the queue. -/
structure Output (D : Type) where
  info : Info
  payload : Payload D
  deriving DecidableEq, Repr

inductive Entry (D : Type)
  | info (info : Info)
  | payload (payload : Payload D)
  | text (text : String)
  deriving DecidableEq, Repr

/-- The dict of an output. -/
def Output.entries {D : Type} (output : Output D) : List (String × Entry D) :=
  [("info", .info output.info), ("payload", .payload output.payload)]

/-- `result.get("category") == "end"`. -/
def Output.saysEnd {D : Type} (output : Output D) : Bool :=
  match (output.entries.find? (fun entry => entry.1 = "category")).map Prod.snd with
  | some (.text category) => category = "end"
  | _ => false

/-- The end message of a flow. -/
def Output.IsEnd {D : Type} (output : Output D) : Prop :=
  output.payload.category = "end"

instance {D : Type} (output : Output D) : Decidable output.IsEnd :=
  inferInstanceAs (Decidable (_ = _))

/-- A session: the flow with the greenlets and the queue that it reads, the queue that
it writes, and what it wrote last. -/
structure Session (F D : Type) where
  flow : F
  queueOut : List (Output D)
  lastOutput : Option (Output D)

/-- What happens to one session beside the fetching of its outputs: its greenlets run up
to their next switch, or a user acts on it. -/
inductive LocalAction (A : Type)
  | run
  | set_work (result : A)
  | go_next
  | go_back
  deriving DecidableEq, Repr

/-- What a flow does, and the outputs that it sends meanwhile. -/
structure Behaviour (F A D : Type) where
  act : LocalAction A → F → F × List (Output D)

variable {S F A D : Type} [DecidableEq S]

omit [DecidableEq S] in
/-- The session after some outputs were sent. -/
def Session.send (session : Session F D) (flow : F) (outputs : List (Output D)) :
    Session F D where
  flow := flow
  queueOut := session.queueOut ++ outputs
  lastOutput := outputs.getLast?.or session.lastOutput

def Session.act (behaviour : Behaviour F A D) (session : Session F D)
    (action : LocalAction A) : Session F D :=
  let done := behaviour.act action session.flow
  session.send done.1 done.2

/-- `get_work` up to its return, if it returns. -/
def Session.get_work (session : Session F D) (restore : Bool) :
    Option (Output D × Session F D) :=
  match restore, session.lastOutput with
  | true, some output => some (output, session)
  | _, _ =>
      match session.queueOut with
      | [] => none
      | output :: queueOut => some (output, { session with queueOut := queueOut })

omit [DecidableEq S] in
/-- Without something to restore the queue is read. -/
theorem Session.get_work_of_fresh {session : Session F D} {restore : Bool}
    (fresh : restore = true → session.lastOutput = none) :
    session.get_work restore =
      match session.queueOut with
      | [] => none
      | output :: queueOut => some (output, { session with queueOut := queueOut }) := by
  cases restore with
  | false => rfl
  | true => simp only [get_work, fresh rfl]

/-- A call of `session_work_get`: it waits for the end of a greenlet that it kills, or
for the greenlet that it spawned. -/
inductive Request
  | idle
  | killing (restore : Bool)
  | waiting (restore : Bool)
  deriving DecidableEq, Repr

/-- What a call of `session_work_get` returned; a session that is not in the table gives
an end message without an info. -/
inductive Reply (D : Type)
  | output (output : Output D)
  | nothing
  | ended
  deriving DecidableEq, Repr

/-- The factory.  `fetchGreenlet` is the session whose fetching greenlet is remembered, as
long as that one is not ready. -/
structure Factory (S F D : Type) where
  sessions : S → Option (Session F D)
  requests : S → Request
  fetchGreenlet : Option S
  replies : S → List (Reply D)

inductive Action (S F A : Type)
  | session_new (session : S) (flow : F)
  | session_work_get (session : S) (restore : Bool)
  | spawn (session : S)
  | fetch (session : S)
  | act (session : S) (action : LocalAction A)

omit [DecidableEq S] in
def Action.session : Action S F A → S
  | .session_new session _ => session
  | .session_work_get session _ => session
  | .spawn session => session
  | .fetch session => session
  | .act session _ => session

namespace Factory

variable (factory : Factory S F D)

/-- A call of `session_work_get` returns. -/
def answer (session : S) (reply : Reply D) : Factory S F D :=
  { factory with
    requests := Function.update factory.requests session .idle
    replies := Function.update factory.replies session (factory.replies session ++ [reply]) }

/-- The greenlet that fetches for a request is spawned and remembered. -/
def spawnFetch (session : S) (restore : Bool) : Factory S F D :=
  { factory with
    requests := Function.update factory.requests session (.waiting restore)
    fetchGreenlet := some session }

/-- `session_work_get`, up to its first switch.  A greenlet that is still fetching is
killed, whosever it is, and the call that waited for it returns nothing. -/
def session_work_get (session : S) (restore : Bool) : Factory S F D :=
  match factory.sessions session with
  | none => factory.answer session .ended
  | some _ =>
      match factory.fetchGreenlet with
      | none => factory.spawnFetch session restore
      | some other =>
          let killed := { factory.answer other .nothing with fetchGreenlet := none }
          { killed with
            requests := Function.update killed.requests session (.killing restore) }

/-- The fetching greenlet of a session returns, and the call with it. -/
def fetch (session : S) (restore : Bool) : Factory S F D :=
  match (factory.sessions session).bind (fun chatflow => chatflow.get_work restore) with
  | none => factory
  | some (output, chatflow) =>
      let answered := factory.answer session (.output output)
      { answered with
        sessions := Function.update factory.sessions session
          (if output.saysEnd then none else some chatflow)
        fetchGreenlet :=
          if factory.fetchGreenlet = some session then none else factory.fetchGreenlet }

/-- One step; an action that is not possible leaves everything as it is.  Every session
has at most one call of `session_work_get` under way, and ids are not used twice. -/
def step (behaviour : Behaviour F A D) : Action S F A → Factory S F D
  | .session_new session flow =>
      match factory.sessions session with
      | none =>
          { factory with
            sessions := Function.update factory.sessions session
              (some { flow := flow, queueOut := [], lastOutput := none }) }
      | some _ => factory
  | .session_work_get session restore =>
      if factory.requests session = .idle then factory.session_work_get session restore
      else factory
  | .spawn session =>
      match factory.requests session with
      | .killing restore => factory.spawnFetch session restore
      | _ => factory
  | .fetch session =>
      match factory.requests session with
      | .waiting restore => factory.fetch session restore
      | _ => factory
  | .act session action =>
      { factory with
        sessions := Function.update factory.sessions session
          ((factory.sessions session).map (fun chatflow => chatflow.act behaviour action)) }

end Factory

omit [DecidableEq S] in
/-- No output has a category beside its info and its payload. -/
@[simp] theorem Output.saysEnd_eq_false (output : Output D) : output.saysEnd = false := rfl

end JumpscaleX.Chats
