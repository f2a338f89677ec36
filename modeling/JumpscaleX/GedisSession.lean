import JumpscaleX.GedisHandler
import JumpscaleX.Library.Runs
import Mathlib.Logic.Function.Basic

/-!
# Sessions of gedis

The loop of `_handle_gedis_session`, over the handler with its cache of
commands, and the server with the sessions of all its connections.  The
methods are called one at a time.
-/

namespace JumpscaleX

namespace Gedis

open Fallible Stateful
open RedisServer (Answer)

/-- What one request works on: the session it came over, the cache `cmds` of
the handler, and what is around the handler. -/
structure Handler (W ε : Type) where
  userSession : UserSession
  cmds : String → Option (GedisCmd × Method W ε)
  world : W

/-- What leaves the handler of a request: an exception, one that is not an
`Exception`, or nothing, where the interactive shell is never left. -/
inductive Escape (ε : Type) where
  | problem (problem : Problem ε)
  | exits
  | inShell

abbrev HandlerM (W ε : Type) := EStateM (Escape ε) (Handler W ε)

/-- What `_handle_request` answers: a logdict, or a result. -/
inductive Handled where
  | logdict (logdict : LogDict)
  | result (result : PyObj)

section

variable {W ε : Type}

/-- Computations outside the state, with their exceptions. -/
def raising {α : Type} : Except (Problem ε) α → HandlerM W ε α
  | .ok value => pure value
  | .error problem => throw (.problem problem)

/-- `try: body; except Exception as e`. -/
def tryExcept {α : Type} (body : HandlerM W ε α) :
    HandlerM W ε (Except (Problem ε) α) := fun handler =>
  match body handler with
  | .ok value reached => .ok (.ok value) reached
  | .error (.problem problem) reached => .ok (.error problem) reached
  | .error escape reached => .error escape reached

def setContentType (format : Format) : HandlerM W ε Unit :=
  modify (fun handler =>
    { handler with userSession := { handler.userSession with contentType := format } })

def setResponseType (format : Format) : HandlerM W ε Unit :=
  modify (fun handler =>
    { handler with userSession := { handler.userSession with responseType := format } })

variable (host : Host W ε)

/-- The branch of the `config_` commands. -/
def configure (command : Command) (request : Request) : HandlerM W ε Unit := do
  if command.command = "config_content_type" then
    setContentType (← raising (request.format host))
  else if command.command = "config_response_type" then
    setResponseType (← raising (request.format host))
  else if command.command = "config_format" then
    setContentType (← raising (request.format host))
    setResponseType (← raising (request.format host))
  else return ()

/-- `_cmd_obj_get`. -/
def cmdObjGet (command : Command) : HandlerM W ε (GedisCmd × Method W ε) := do
  let handler ← getThe (Handler W ε)
  match handler.cmds command.keyMethod with
  | some found => return found
  | none => do
      let actor ← raising
        (meet (host.actorGet command.author3bot command.package command.actor handler.world))
      match host.cmdsMeta command.keyActor handler.world with
      | none =>
          if host.shellLeft handler.world then
            throw (.problem (.exn (.input (.other "Cannot find actor of geventserver."))))
          else throw .inShell
      | some cmds =>
          match cmds command.command, actor command.command with
          | none, _ =>
              throw (.problem (.exn (.input (.other "Cannot find actor method in metadata"))))
          | some _, none =>
              throw (.problem (.exn (.input (.other "Could not execute code of method"))))
          | some cmd, some method => do
              modify (fun handler => { handler with
                cmds := Function.update handler.cmds command.keyMethod (some (cmd, method)) })
              return (cmd, method)

/-- `logdict = exception_handle(e, die=False)` and its return. -/
def reported (problem : Problem ε) : HandlerM W ε Handled := do
  return .logdict (← raising (host.exceptionHandle problem))

/-- What the handler does behind the call of the method.  The result is encoded
outside of the `try`. -/
def conclude (request : Request) (cmd : GedisCmd) :
    Except (Problem ε) (Outcome ε) → HandlerM W ε Handled
  | .error problem => reported host problem
  | .ok (.raised problem) => reported host (.raised problem)
  | .ok .exits => throw .exits
  | .ok (.returned result) => do
      return .result (← raising (encodeResult host request cmd result))

/-- The call of the method. -/
def execute (request : Request) (cmd : GedisCmd) (method : Method W ε) (call : Call) :
    HandlerM W ε Handled := do
  let handler ← getThe (Handler W ε)
  let (outcome, world) := method.call call handler.world
  set { handler with world := world }
  conclude host (request.withResponseType handler.userSession cmd) cmd outcome

/-- What the handler does behind looking a command up. -/
def dispatch (request : Request) :
    Except (Problem ε) (GedisCmd × Method W ε) → HandlerM W ε Handled
  | .error problem => reported host problem
  | .ok (cmd, method) => do
      let handler ← getThe (Handler W ε)
      match callOf host request handler.userSession cmd with
      | .error problem => reported host problem
      | .ok call => execute host request cmd method call

/-- `_handle_request`. -/
def handleRequest (request : Request) : HandlerM W ε Handled := do
  let command ← raising (request.command host)
  if command.command = "command" then return .result (.str "OK")
  else if command.command = "ping" then return .result (.str "PONG")
  else if command.isConfig then
    configure host command request
    return .result (.str "OK")
  else if command.command = "auth" then return .result (.str "OK")
  else
    let found ← tryExcept (cmdObjGet host command)
    dispatch host request found

/-- One turn of the loop of `_handle_gedis_session`.  The line that it logs
parses the command before anything else. -/
def handleGedisSession (request : Request) : HandlerM W ε Answer := do
  let _ ← raising (request.command host)
  match ← handleRequest host request with
  | .logdict logdict =>
      return .error (← raising (meet (SerializerUJson.dumps host.codecs (.dict logdict.fields))))
  | .result result => return .encode (← raising (meet (written host result)))

end

/-! ### The server -/

/-- A connection: its session, the replies that were written whole, and
whether the loop still reads. -/
structure Connection where
  userSession : UserSession
  answers : List Answer
  reading : Bool

/-- A connection that was just opened. -/
def Connection.init : Connection := ⟨.init, [], true⟩

structure GedisServer (W ε : Type) where
  connections : Nat → Connection
  cmds : String → Option (GedisCmd × Method W ε)
  world : W

/-- The parts of a request, and the connection that it comes over. -/
structure Event where
  connection : Nat
  name : TextBytes.Bytes
  arguments : List TextBytes.Bytes

def Event.request (event : Event) : Request :=
  .read event.name event.arguments

namespace GedisServer

variable {W ε : Type}

/-- What a request over a connection works on. -/
def handler (server : GedisServer W ε) (connection : Nat) : Handler W ε :=
  ⟨(server.connections connection).userSession, server.cmds, server.world⟩

/-- The server behind a request that worked on a handler, with the connection
as the request leaves it. -/
def leave (server : GedisServer W ε) (connection : Nat) (reached : Handler W ε)
    (left : Connection) : GedisServer W ε where
  connections := Function.update server.connections connection
    { left with userSession := reached.userSession }
  cmds := reached.cmds
  world := reached.world

@[simp] theorem leave_same (server : GedisServer W ε) (connection : Nat)
    (reached : Handler W ε) (left : Connection) :
    (server.leave connection reached left).connections connection =
      { left with userSession := reached.userSession } :=
  Function.update_self ..

theorem leave_other {connection other : Nat} (different : other ≠ connection)
    (server : GedisServer W ε) (reached : Handler W ε) (left : Connection) :
    (server.leave connection reached left).connections other = server.connections other :=
  Function.update_of_ne different ..

/-- A request is answered, or what leaves the handler ends the session. -/
def step (host : Host W ε) (server : GedisServer W ε) (event : Event) : GedisServer W ε :=
  let connection := server.connections event.connection
  if connection.reading then
    match handleGedisSession host event.request (server.handler event.connection) with
    | .ok answer reached =>
        server.leave event.connection reached
          { connection with answers := connection.answers ++ [answer] }
    | .error _ reached =>
        server.leave event.connection reached { connection with reading := false }
  else server

end GedisServer

end Gedis

end JumpscaleX
