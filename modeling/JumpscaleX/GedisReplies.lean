import JumpscaleX.GedisSession

/-!
# Replies of gedis

Whether a request is answered is decided by how far it comes in the handler.
What is raised while the command is looked up, the arguments are read or the
method runs is reported; what is raised before or behind that ends the session.
-/

namespace JumpscaleX

namespace Gedis

open Fallible Stateful
open RedisServer (Answer)

section

variable {W ε : Type} (host : Host W ε)

/-- The text of a reported exception. -/
def reportText (problem : Problem ε) : Except (Problem ε) String := do
  let logdict ← host.exceptionHandle problem
  meet (SerializerUJson.dumps host.codecs (.dict logdict.fields))

/-- What a result is written as. -/
def replyValue (request : Request) (cmd : GedisCmd) (result : PyObj) :
    Except (Problem ε) Value := do
  let encoded ← encodeResult host request cmd result
  meet (written host encoded)

/-- How far a request comes: it is a predefined command and is answered at
once, something is raised that is reported, the method returns, or something is
raised that nobody reports. -/
inductive Course (ε : Type) where
  | answered
  | failed (problem : Problem ε)
  | returned (request : Request) (cmd : GedisCmd) (result : PyObj)
  | escaped

/-- The course of a request whose method has ended. -/
def courseOfOutcome (request : Request) (cmd : GedisCmd) :
    Except (Problem ε) (Outcome ε) → Course ε
  | .error problem => .failed problem
  | .ok (.raised problem) => .failed (.raised problem)
  | .ok .exits => .escaped
  | .ok (.returned result) => .returned request cmd result

/-- The course of a call. -/
def courseOfCall (handler : Handler W ε) (request : Request) (cmd : GedisCmd)
    (method : Method W ε) (call : Call) : Course ε :=
  courseOfOutcome (request.withResponseType handler.userSession cmd) cmd
    (method.call call handler.world).1

/-- The course of a request whose method was found. -/
def courseOfFound (handler : Handler W ε) (request : Request) (cmd : GedisCmd)
    (method : Method W ε) : Course ε :=
  match callOf host request handler.userSession cmd with
  | .error problem => .failed problem
  | .ok call => courseOfCall handler request cmd method call

/-- The course of a request for a method. -/
def courseOfMethod (handler : Handler W ε) (request : Request) (command : Command) :
    Course ε :=
  match cmdObjGet host command handler with
  | .error (.problem problem) _ => .failed problem
  | .error _ _ => .escaped
  | .ok (cmd, method) found => courseOfFound host found request cmd method

/-- The commands that set a format. -/
def Command.setsFormat (command : Command) : Bool :=
  command.command = "config_content_type" ∨ command.command = "config_response_type" ∨
    command.command = "config_format"

/-- The course of a request that starts with `config_`. -/
def courseOfConfig (request : Request) (command : Command) : Course ε :=
  if command.setsFormat then
    match request.format host with
    | .ok _ => .answered
    | .error _ => .escaped
  else .answered

/-- The course of a request. -/
def course (handler : Handler W ε) (request : Request) : Course ε :=
  match request.command host with
  | .error _ => .escaped
  | .ok command =>
      if command.command = "command" ∨ command.command = "ping" then .answered
      else if command.isConfig then courseOfConfig host request command
      else if command.command = "auth" then .answered
      else courseOfMethod host handler request command

/-- Routing, the arguments, the method or the encoding of its result fail. -/
def Fails (handler : Handler W ε) (request : Request) : Prop :=
  match course host handler request with
  | .answered => False
  | .failed _ => True
  | .returned request cmd result => ∀ value, replyValue host request cmd result ≠ .ok value
  | .escaped => True

/-- The request stays where what is raised is reported, the report can be
written, and so can the result. -/
def Sound (handler : Handler W ε) (request : Request) : Prop :=
  match course host handler request with
  | .answered => True
  | .failed problem => ∃ text, reportText host problem = .ok text
  | .returned request cmd result => ∃ value, replyValue host request cmd result = .ok value
  | .escaped => False

/-! ## What the handler answers -/

variable {host}

@[simp] theorem raising_ok {α : Type} (value : α) :
    (raising (.ok value) : HandlerM W ε α) = pure value := rfl

@[simp] theorem raising_error {α : Type} (problem : Problem ε) :
    (raising (.error problem) : HandlerM W ε α) = throw (.problem problem) := rfl

theorem raising_bind {α β : Type} (first : Except (Problem ε) α)
    (next : α → Except (Problem ε) β) :
    (raising first >>= fun value => raising (next value) : HandlerM W ε β) =
      raising (first >>= next) := by
  cases first <;> rfl

theorem raising_map {α β : Type} (first : Except (Problem ε) α) (change : α → β) :
    (raising first >>= fun value => pure (change value) : HandlerM W ε β) =
      raising (change <$> first) := by
  cases first <;> rfl

/-- The reply that is written for what the handler answers. -/
def answerOf (host : Host W ε) : Handled → Except (Problem ε) Answer
  | .logdict logdict =>
      Answer.error <$> meet (SerializerUJson.dumps host.codecs (.dict logdict.fields))
  | .result result => Answer.encode <$> meet (written host result)

theorem handleGedisSession_eq {request : Request} {command : Command}
    (named : request.command host = .ok command) :
    handleGedisSession host request =
      handleRequest host request >>= fun handled => raising (answerOf host handled) := by
  unfold handleGedisSession
  rw [named, raising_ok, pure_bind]
  apply bind_congr
  intro handled
  cases handled with
  | logdict logdict => exact raising_map _ _
  | result result => exact raising_map _ _

/-- The outcome of a turn of the loop, as a course foretells it. -/
def Foretold (host : Host W ε) (turn : EStateM.Result (Escape ε) (Handler W ε) Answer) :
    Course ε → Prop
  | .answered => ∃ text reached, turn = .ok (.encode (.str text)) reached
  | .failed problem => ∃ reached, turn = raising (Answer.error <$> reportText host problem) reached
  | .returned request cmd result =>
      ∃ reached, turn = raising (Answer.encode <$> replyValue host request cmd result) reached
  | .escaped => ∃ escape reached, turn = .error escape reached

variable (host) in
theorem reported_foretold (problem : Problem ε) (handler : Handler W ε) :
    Foretold host
      ((reported host problem >>= fun handled => raising (answerOf host handled)) handler)
      (.failed problem) := by
  refine ⟨handler, congrFun ?_ handler⟩
  rw [reported, raising_map, raising_bind, reportText]
  cases host.exceptionHandle problem <;> rfl

variable (host) in
theorem conclude_returned (request : Request) (cmd : GedisCmd) (result : PyObj) :
    (conclude host request cmd (.ok (.returned result)) >>=
        fun handled => raising (answerOf host handled) : HandlerM W ε Answer) =
      raising (Answer.encode <$> replyValue host request cmd result) := by
  rw [conclude, raising_map, raising_bind, replyValue]
  cases encodeResult host request cmd result <;> rfl

variable (host) in
theorem conclude_foretold (handler : Handler W ε) (request : Request) (cmd : GedisCmd)
    (outcome : Except (Problem ε) (Outcome ε)) :
    Foretold host
      ((conclude host request cmd outcome >>=
        fun handled => raising (answerOf host handled)) handler)
      (courseOfOutcome request cmd outcome) := by
  cases outcome with
  | error problem => exact reported_foretold host problem handler
  | ok outcome =>
      cases outcome with
      | raised problem => exact reported_foretold host (.raised problem) handler
      | exits => exact ⟨.exits, handler, rfl⟩
      | returned result =>
          exact ⟨handler, congrFun (conclude_returned host request cmd result) handler⟩

variable (host) in
/-- What the handler does with a command that it found. -/
theorem dispatch_found (handler : Handler W ε) (request : Request) (cmd : GedisCmd)
    (method : Method W ε) :
    dispatch host request (.ok (cmd, method)) handler =
      match callOf host request handler.userSession cmd with
      | .error problem => reported host problem handler
      | .ok call =>
          conclude host (request.withResponseType handler.userSession cmd) cmd
            (method.call call handler.world).1
            { handler with world := (method.call call handler.world).2 } := by
  rw [dispatch, get_seq]
  cases callOf host request handler.userSession cmd <;> rfl

variable (host) in
theorem dispatch_foretold (handler : Handler W ε) (request : Request) (cmd : GedisCmd)
    (method : Method W ε) :
    Foretold host
      ((dispatch host request (.ok (cmd, method)) >>=
        fun handled => raising (answerOf host handled)) handler)
      (courseOfFound host handler request cmd method) := by
  have turn := dispatch_found host handler request cmd method
  unfold courseOfFound
  cases read : callOf host request handler.userSession cmd with
  | error problem =>
      rw [read] at turn
      have failed := reported_foretold host problem handler
      simp only [bind, EStateM.bind, turn] at failed ⊢
      exact failed
  | ok call =>
      rw [read] at turn
      have ended := conclude_foretold host
        { handler with world := (method.call call handler.world).2 }
        (request.withResponseType handler.userSession cmd) cmd
        (method.call call handler.world).1
      simp only [bind, EStateM.bind, turn] at ended ⊢
      exact ended

variable (host) in
/-- A request for a method ends as its course foretells. -/
theorem method_foretold (handler : Handler W ε) (request : Request) (command : Command) :
    Foretold host
      (((tryExcept (cmdObjGet host command) >>= dispatch host request) >>=
        fun handled => raising (answerOf host handled)) handler)
      (courseOfMethod host handler request command) := by
  unfold courseOfMethod
  rw [bind_assoc]
  cases looked : cmdObjGet host command handler with
  | error escape reached =>
      cases escape with
      | problem problem =>
          have attempted : tryExcept (cmdObjGet host command) handler =
              .ok (.error problem) reached := by rw [tryExcept, looked]
          rw [seq_of_ok attempted]
          exact reported_foretold host problem reached
      | exits =>
          have attempted : tryExcept (cmdObjGet host command) handler =
              .error .exits reached := by rw [tryExcept, looked]
          rw [seq_of_error attempted]
          exact ⟨.exits, reached, rfl⟩
      | inShell =>
          have attempted : tryExcept (cmdObjGet host command) handler =
              .error .inShell reached := by rw [tryExcept, looked]
          rw [seq_of_error attempted]
          exact ⟨.inShell, reached, rfl⟩
  | ok entry found =>
      obtain ⟨cmd, method⟩ := entry
      have attempted : tryExcept (cmdObjGet host command) handler =
          .ok (.ok (cmd, method)) found := by rw [tryExcept, looked]
      rw [seq_of_ok attempted]
      exact dispatch_foretold host found request cmd method

/-- A command that sets no format does nothing. -/
theorem configure_other {command : Command} (other : command.setsFormat = false)
    (request : Request) : configure host command request = pure () := by
  simp only [Command.setsFormat, decide_eq_false_iff_not, not_or] at other
  rw [configure, if_neg other.1, if_neg other.2.1, if_neg other.2.2]

/-- The formats are set to the one that the request names. -/
theorem configure_ok {request : Request} {format : Format}
    (named : request.format host = .ok format) (command : Command) (handler : Handler W ε) :
    ∃ reached, configure host command request handler = .ok () reached := by
  rw [configure, named]
  by_cases content : command.command = "config_content_type"
  · rw [if_pos content]
    exact ⟨_, rfl⟩
  · rw [if_neg content]
    by_cases response : command.command = "config_response_type"
    · rw [if_pos response]
      exact ⟨_, rfl⟩
    · rw [if_neg response]
      by_cases both : command.command = "config_format"
      · rw [if_pos both]
        exact ⟨_, rfl⟩
      · rw [if_neg both]
        exact ⟨_, rfl⟩

/-- Where the request names no format, setting one raises. -/
theorem configure_error {request : Request} {command : Command} {problem : Problem ε}
    (unnamed : request.format host = .error problem) (sets : command.setsFormat = true)
    (handler : Handler W ε) :
    configure host command request handler = .error (.problem problem) handler := by
  rw [configure, unnamed]
  by_cases content : command.command = "config_content_type"
  · rw [if_pos content]
    rfl
  · rw [if_neg content]
    by_cases response : command.command = "config_response_type"
    · rw [if_pos response]
      rfl
    · rw [if_neg response]
      by_cases both : command.command = "config_format"
      · rw [if_pos both]
        rfl
      · simp [Command.setsFormat, content, response, both] at sets

variable (host) in
/-- A request that starts with `config_` ends as its course foretells. -/
theorem config_foretold (handler : Handler W ε) (request : Request) (command : Command) :
    Foretold host
      (((configure host command request >>= fun _ => pure (Handled.result (.str "OK"))) >>=
        fun handled => raising (answerOf host handled)) handler)
      (courseOfConfig host request command) := by
  unfold courseOfConfig
  cases sets : command.setsFormat with
  | false =>
      rw [configure_other sets]
      exact ⟨"OK", handler, rfl⟩
  | true =>
      cases named : request.format host with
      | ok format =>
          obtain ⟨reached, configured⟩ := configure_ok named command handler
          rw [bind_assoc, seq_of_ok configured]
          exact ⟨"OK", reached, rfl⟩
      | error problem =>
          rw [bind_assoc, seq_of_error (configure_error named sets handler)]
          exact ⟨.problem problem, handler, rfl⟩

variable (host) in
/-- A turn of the loop ends as the course of the request foretells. -/
theorem turn_foretold (handler : Handler W ε) (request : Request) :
    Foretold host (handleGedisSession host request handler) (course host handler request) := by
  unfold course
  cases named : request.command host with
  | error problem =>
      refine ⟨.problem problem, handler, ?_⟩
      rw [handleGedisSession, named]
      rfl
  | ok command =>
      have turn := congrFun (handleGedisSession_eq named) handler
      rw [turn, handleRequest, named, raising_ok, pure_bind]
      by_cases first : command.command = "command"
      · simp only [first, true_or, if_true]
        exact ⟨"OK", handler, rfl⟩
      · by_cases second : command.command = "ping"
        · simp only [first, second, or_true, if_true, if_false]
          exact ⟨"PONG", handler, rfl⟩
        · simp only [first, second, or_false, if_false]
          by_cases config : command.isConfig = true
          · simp only [config, if_true]
            exact config_foretold host handler request command
          · simp only [config]
            by_cases auth : command.command = "auth"
            · simp only [auth, if_true]
              exact ⟨"OK", handler, rfl⟩
            · simp only [auth, if_false]
              exact method_foretold host handler request command

/-! ## One reply for every request -/

namespace GedisServer

variable (host) in
/-- Every request is answered once: the connection has one reply more and reads
on, the reply is an error where something fails, and no other connection is
touched. -/
structure AnsweredOnce (server : GedisServer W ε) (event : Event) : Prop where
  reads : ((server.step host event).connections event.connection).reading = true
  answers : ∃ answer,
    ((server.step host event).connections event.connection).answers =
        (server.connections event.connection).answers ++ [answer] ∧
      (Fails host (server.handler event.connection) event.request →
        ∃ msg, answer = .error msg)
  others : ∀ other, other ≠ event.connection →
    (server.step host event).connections other = server.connections other

/-- The loop of every connection reads. -/
def Reading (server : GedisServer W ε) : Prop :=
  ∀ connection, (server.connections connection).reading = true

theorem step_of_ok {server : GedisServer W ε} {event : Event} {answer : Answer}
    {reached : Handler W ε}
    (reading : (server.connections event.connection).reading = true)
    (turn : handleGedisSession host event.request (server.handler event.connection) =
      .ok answer reached) :
    server.step host event = server.leave event.connection reached
      { server.connections event.connection with
        answers := (server.connections event.connection).answers ++ [answer] } := by
  simp only [step, reading, if_true, turn]

theorem step_of_error {server : GedisServer W ε} {event : Event} {escape : Escape ε}
    {reached : Handler W ε}
    (reading : (server.connections event.connection).reading = true)
    (turn : handleGedisSession host event.request (server.handler event.connection) =
      .error escape reached) :
    server.step host event = server.leave event.connection reached
      { server.connections event.connection with reading := false } := by
  simp only [step, reading, if_true, turn]

/-- A reply is written once, and the loop goes on. -/
theorem answeredOnce_of_ok {server : GedisServer W ε} {event : Event} {answer : Answer}
    {reached : Handler W ε}
    (reading : (server.connections event.connection).reading = true)
    (turn : handleGedisSession host event.request (server.handler event.connection) =
      .ok answer reached)
    (failing : Fails host (server.handler event.connection) event.request →
      ∃ msg, answer = .error msg) : AnsweredOnce host server event := by
  have stepped := step_of_ok reading turn
  constructor
  · rw [stepped, leave_same]
    exact reading
  · refine ⟨answer, ?_, failing⟩
    rw [stepped, leave_same]
  · intro other different
    rw [stepped, leave_other different]

/-- What leaves the handler ends the session. -/
theorem not_answeredOnce_of_error {server : GedisServer W ε} {event : Event}
    {escape : Escape ε} {reached : Handler W ε}
    (reading : (server.connections event.connection).reading = true)
    (turn : handleGedisSession host event.request (server.handler event.connection) =
      .error escape reached) : ¬ AnsweredOnce host server event := by
  intro answered
  have reads := answered.reads
  rw [step_of_error reading turn, leave_same] at reads
  cases reads

/-- A request is answered once exactly when it is sound. -/
theorem answeredOnce_iff {server : GedisServer W ε} {event : Event}
    (reading : (server.connections event.connection).reading = true) :
    AnsweredOnce host server event ↔
      Sound host (server.handler event.connection) event.request := by
  have foretold := turn_foretold host (server.handler event.connection) event.request
  unfold Sound
  cases way : course host (server.handler event.connection) event.request with
  | answered =>
      rw [way] at foretold
      obtain ⟨text, reached, turn⟩ := foretold
      apply iff_of_true _ trivial
      apply answeredOnce_of_ok reading turn
      intro fails
      rw [Fails, way] at fails
      exact fails.elim
  | failed problem =>
      rw [way] at foretold
      obtain ⟨reached, turn⟩ := foretold
      cases reporting : reportText host problem with
      | ok text =>
          rw [reporting] at turn
          apply iff_of_true _ ⟨text, reporting⟩
          exact answeredOnce_of_ok reading turn (fun _ => ⟨text, rfl⟩)
      | error other =>
          rw [reporting] at turn
          apply iff_of_false (not_answeredOnce_of_error reading turn)
          rintro ⟨text, impossible⟩
          cases reporting.symm.trans impossible
  | returned request cmd result =>
      rw [way] at foretold
      obtain ⟨reached, turn⟩ := foretold
      cases encoding : replyValue (ε := ε) host request cmd result with
      | ok value =>
          rw [encoding] at turn
          apply iff_of_true _ ⟨value, encoding⟩
          apply answeredOnce_of_ok reading turn
          intro fails
          rw [Fails, way] at fails
          exact absurd encoding (fails value)
      | error other =>
          rw [encoding] at turn
          apply iff_of_false (not_answeredOnce_of_error reading turn)
          rintro ⟨value, impossible⟩
          cases encoding.symm.trans impossible
  | escaped =>
      rw [way] at foretold
      obtain ⟨escape, reached, turn⟩ := foretold
      exact iff_of_false (not_answeredOnce_of_error reading turn) id

theorem reading_of_answeredOnce {server : GedisServer W ε} {event : Event}
    (reading : server.Reading) (answered : AnsweredOnce host server event) :
    (server.step host event).Reading := by
  intro connection
  by_cases same : connection = event.connection
  · rw [same]
    exact answered.reads
  · rw [answered.others connection same]
    exact reading connection

/-- A server whose connections were just opened. -/
def opened (cmds : String → Option (GedisCmd × Method W ε)) (world : W) :
    GedisServer W ε :=
  ⟨fun _ => .init, cmds, world⟩

end GedisServer

end

/-! ## A name with five parts -/

/-- A server without packages, where every exception is reported with a
message. -/
def emptyGedis : Host Unit Empty where
  codecs :=
    { jsonDumps := fun _ => .ok "\x7b\"message\": \"error\"\x7d"
      jsonLoads := fun _ => .error (.valueError "not json")
      packb := fun _ => .error (.valueError "not packed")
      unpackb := fun _ => .error (.valueError "not packed") }
  schemas := SchemaFactory.ofList [] List.nodup_nil
  pack := fun _ => []
  unpack := fun _ => .error (.base "version wrong")
  lower := PyText.lower
  upper := fun text => String.ofList (text.toList.map Char.toUpper)
  casefold := PyText.lower
  repr := fun _ => .ok ""
  exceptionHandle := fun _ => .ok ⟨[("message", .str "error")], List.cons_ne_nil _ _⟩
  actorGet := fun _ _ _ _ => .error (.input (.other "cannot find package"))
  cmdsMeta := fun _ _ => none
  shellLeft := fun _ => false

end Gedis

end JumpscaleX
