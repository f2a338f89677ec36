import JumpscaleX.GedisReplies
import JumpscaleX.MessageRoundTrip

/-!
# The formats of a gedis session

The arguments are to be read in the content type that was set last, and the
results to be written in the response type that was set last.  The formats
that were set last are kept beside the server, and every request is compared
with what they ask for.
-/

namespace JumpscaleX

namespace Gedis

open Fallible Stateful
open RedisServer (Answer)

section

variable {W ε : Type} (host : Host W ε)

/-! ### What the formats ask for -/

/-- The object that was sent as the arguments, in a format. -/
def sentObject (format : Format) (request : Request) (schemaIn : Schema) :
    Except (Problem ε) JSXObject :=
  match format with
  | .auto =>
      match capnpRead host request schemaIn with
      | .ok (_, args) => .ok args
      | .error _ => jsonDecode host request schemaIn
  | .json => jsonDecode host request schemaIn
  | .msgpack => msgpackDecode host request schemaIn

/-- The call with the values that were sent for the properties. -/
def sentCall (format : Format) (request : Request) (cmd : GedisCmd) :
    Except (Problem ε) Call :=
  match cmd.schemaIn with
  | none => .ok ⟨request.arguments, [], cmd.schemaOut⟩
  | some schemaIn => do
      let args ← sentObject host format request schemaIn
      let params ← paramsOf schemaIn args
      return ⟨[], params, cmd.schemaOut⟩

/-- The encoding of a format. -/
def Format.encoding : Format → Encoding
  | .auto => .data
  | .json => .json
  | .msgpack => .msgpack

def PyObj.isObject : PyObj → Bool
  | .jsx _ => true
  | _ => false

/-- A JSX object or a list of them. -/
def PyObj.IsObjects : PyObj → Prop
  | .list items => ∀ item ∈ items, item.isObject = true
  | item => item.isObject = true

/-- A JSX object or a list of some. -/
def PyObj.HasObject : PyObj → Prop
  | .list items => items ≠ []
  | _ => True

def encodedObject (format : Format) : PyObj → Except (Problem ε) PyObj
  | .jsx obj => meet (encoded host obj format.encoding)
  | item => .ok item

/-- The objects of a result in the encoding of a format. -/
def encodedAs (format : Format) : PyObj → Except (Problem ε) PyObj
  | .list items => .list <$> items.mapM (encodedObject host format)
  | item => encodedObject host format item

/-- The reply with the objects of a result in the encoding of a format. -/
def replyAs (format : Format) (result : PyObj) : Except (Problem ε) Answer := do
  let encoded ← encodedAs host format result
  Answer.encode <$> meet (written host encoded)

/-- The formats behind a request that may set them. -/
def noteFormats (request : Request) (formats : UserSession) : UserSession :=
  match request.command host, request.format host with
  | .ok command, .ok format =>
      if command.command = "config_content_type" then { formats with contentType := format }
      else if command.command = "config_response_type" then
        { formats with responseType := format }
      else if command.command = "config_format" then ⟨format, format⟩
      else formats
  | _, _ => formats

/-- A command of an actor, and not one that the handler answers itself. -/
def Command.isRemote (command : Command) : Bool :=
  command.command ≠ "command" ∧ command.command ≠ "ping" ∧ command.isConfig = false ∧
    command.command ≠ "auth"

/-- A request for a method honours the formats.  What was sent in the content
type is what the method is called with, once; nothing is called where nothing
was sent in it.  Objects are answered in the response type. -/
structure Honours (formats : UserSession) (handler : Handler W ε) (request : Request)
    (cmd : GedisCmd) (method : Method W ε) (found : Handler W ε) : Prop where
  calls : ∀ call, sentCall host formats.contentType request cmd = .ok call →
    final (handleGedisSession host request) handler =
      { found with world := (method call found.world).2 }
  refuses : ∀ problem, sentCall host formats.contentType request cmd = .error problem →
    final (handleGedisSession host request) handler = found
  answers : ∀ call result, sentCall host formats.contentType request cmd = .ok call →
    (method call found.world).1 = .returned result → result.IsObjects →
    handleGedisSession host request handler =
      raising (replyAs host formats.responseType result)
        { found with world := (method call found.world).2 }

/-! ### When they are honoured -/

/-- The id of a packed pair is written over the object without a change of any
property. -/
def KeepsProperties (request : Request) (schemaIn : Schema) : Prop :=
  ∀ id args, capnpRead (ε := ε) host request schemaIn = .ok (id, args) → id.truthy = true →
    ∃ other, args.setattr false "id" id = .ok other ∧
      ∀ prop ∈ schemaIn.properties, other.getattr prop.name = args.getattr prop.name

/-- No property and no argument of the method has a name that the handler uses
itself, and the session with the content type auto is not overruled by a header
or by the id of the argument. -/
structure ReadsAlike (session : UserSession) (request : Request) (cmd : GedisCmd)
    (schemaIn : Schema) : Prop where
  schemaOut : "schema_out" ∉ cmd.args
  userSession : "user_session" ∉ cmd.args
  names : ∀ prop ∈ schemaIn.properties, prop.name ≠ "user_session" ∧
    (cmd.schemaOut.isSome = true → prop.name ≠ "schema_out")
  header : session.contentType = .auto → request.header (ε := ε) host "content_type" = .ok "auto"
  id : session.contentType = .auto → KeepsProperties (ε := ε) host request schemaIn

/-- The encoding that the handler chooses is that of the response type. -/
def AnswersAlike (session : UserSession) (request : Request) (cmd : GedisCmd) : Prop :=
  match cmd.schemaOut, session.contentType.override with
  | some _, some _ => session.contentType = session.responseType
  | schemaOut, _ => ∃ type, request.header (ε := ε) host "response_type" = .ok type ∧
      encodingOf schemaOut type = session.responseType.encoding

variable {host}

/-! ### The turn of a request for a method -/

theorem raising_keeps {α : Type} {property : Handler W ε → Prop}
    (value : Except (Problem ε) α) : Keeps property (raising value) := by
  cases value with
  | ok value => exact Keeps.pure value
  | error problem => exact Keeps.throw (Escape.problem problem)

/-- A request for a method that is found goes to the method. -/
theorem turn_of_found {handler found : Handler W ε} {request : Request} {command : Command}
    {cmd : GedisCmd} {method : Method W ε}
    (named : request.command host = .ok command) (remote : command.isRemote = true)
    (looked : cmdObjGet host command handler = .ok (cmd, method) found) :
    handleGedisSession host request handler =
      (dispatch host request (.ok (cmd, method)) >>=
        fun handled => raising (answerOf host handled)) found := by
  simp only [Command.isRemote, decide_eq_true_eq] at remote
  obtain ⟨notCommand, notPing, notConfig, notAuth⟩ := remote
  have tried : tryExcept (cmdObjGet host command) handler = .ok (.ok (cmd, method)) found := by
    rw [tryExcept, looked]
  have turn := congrFun (handleGedisSession_eq named) handler
  rw [turn, handleRequest, named, raising_ok, pure_bind, if_neg notCommand, if_neg notPing,
    if_neg (Bool.eq_false_iff.mp notConfig), if_neg notAuth, bind_assoc, seq_of_ok tried]

theorem turn_of_call {handler found : Handler W ε} {request : Request} {command : Command}
    {cmd : GedisCmd} {method : Method W ε} {call : Call}
    (named : request.command host = .ok command) (remote : command.isRemote = true)
    (looked : cmdObjGet host command handler = .ok (cmd, method) found)
    (read : callOf host request found.userSession cmd = .ok call) :
    handleGedisSession host request handler =
      (conclude host (request.withResponseType found.userSession cmd) cmd
          (method.call call found.world).1 >>=
        fun handled => raising (answerOf host handled))
        { found with world := (method.call call found.world).2 } := by
  have dispatched := dispatch_found host found request cmd method
  rw [read] at dispatched
  rw [turn_of_found named remote looked]
  simp only [bind, EStateM.bind, dispatched]

/-- Looking a command up changes the cache alone. -/
theorem cmdObjGet_keeps {property : Handler W ε → Prop}
    (cached : ∀ handler cmds, property handler → property { handler with cmds := cmds })
    (command : Command) : Keeps property (cmdObjGet host command) := by
  unfold cmdObjGet
  refine Keeps.bind Keeps.get (fun handler => ?_)
  cases handler.cmds command.keyMethod with
  | some found => exact Keeps.pure _
  | none =>
      refine Keeps.bind (raising_keeps _) (fun actor => ?_)
      cases host.cmdsMeta command.keyActor handler.world with
      | none =>
          by_cases left : host.shellLeft handler.world = true
          · simp only [left, if_true]
            exact Keeps.throw _
          · simp only [left]
            exact Keeps.throw _
      | some cmds =>
          dsimp only
          cases cmds command.command with
          | none => exact Keeps.throw _
          | some cmd =>
              cases actor command.command with
              | none => exact Keeps.throw _
              | some method =>
                  refine Keeps.bind (Keeps.modify ?_) (fun _ => Keeps.pure _)
                  intro state holds
                  exact cached state _ holds

theorem found_of_looked {handler found : Handler W ε} {command : Command}
    {entry : GedisCmd × Method W ε}
    (looked : cmdObjGet host command handler = .ok entry found) :
    found.userSession = handler.userSession ∧ found.world = handler.world := by
  have keeps : Keeps (fun reached : Handler W ε =>
      reached.userSession = handler.userSession ∧ reached.world = handler.world)
      (cmdObjGet host command) := cmdObjGet_keeps (fun _ _ holds => holds) command
  exact keeps.of_ok looked (And.intro rfl rfl)

/-! ### Reading the arguments -/

@[simp] theorem argument_withContentType (request : Request) (session : UserSession) :
    (request.withContentType session).argument (ε := ε) = request.argument := by
  unfold Request.withContentType
  cases session.contentType.override <;> rfl

theorem getContentType_of_override {request : Request} {session : UserSession} {type : String}
    (overridden : session.contentType.override = some type) :
    (request.withContentType session).getContentType (ε := ε) host = .ok type := by
  rw [Request.withContentType, overridden]
  rfl

theorem withContentType_of_auto {request : Request} {session : UserSession}
    (auto : session.contentType = .auto) : request.withContentType session = request := by
  rw [Request.withContentType, auto]
  rfl

@[simp] theorem capnpDecode_withContentType (request : Request) (session : UserSession)
    (schemaIn : Schema) :
    capnpDecode (ε := ε) host (request.withContentType session) schemaIn =
      capnpDecode host request schemaIn := by
  simp only [capnpDecode, capnpRead, argument_withContentType]

@[simp] theorem jsonDecode_withContentType (request : Request) (session : UserSession)
    (schemaIn : Schema) :
    jsonDecode (ε := ε) host (request.withContentType session) schemaIn =
      jsonDecode host request schemaIn := by
  simp only [jsonDecode, argument_withContentType]

@[simp] theorem msgpackDecode_withContentType (request : Request) (session : UserSession)
    (schemaIn : Schema) :
    msgpackDecode (ε := ε) host (request.withContentType session) schemaIn =
      msgpackDecode host request schemaIn := by
  simp only [msgpackDecode, argument_withContentType]

/-- Two objects with the same values have the same params. -/
theorem paramsOf_congr {schemaIn : Schema} {args other : JSXObject}
    (same : ∀ prop ∈ schemaIn.properties, other.getattr prop.name = args.getattr prop.name) :
    paramsOf (ε := ε) schemaIn other = paramsOf schemaIn args := by
  apply mapM_congr
  intro prop member
  rw [same prop member]

/-- The arguments are read as they were sent: the id of a pair changes nothing. -/
theorem decodeArgs_of_alike {session : UserSession} {request : Request} {cmd : GedisCmd}
    {schemaIn : Schema} (fresh : request.contentType = none)
    (alike : ReadsAlike (ε := ε) host session request cmd schemaIn) :
    ∃ type, (request.withContentType session).getContentType (ε := ε) host = .ok type ∧
      (decodeArgs (ε := ε) host (request.withContentType session) schemaIn type >>=
          paramsOf schemaIn) =
        (sentObject (ε := ε) host session.contentType request schemaIn >>=
          paramsOf schemaIn) := by
  cases format : session.contentType with
  | json =>
      refine ⟨"json", getContentType_of_override (by rw [format]; rfl), ?_⟩
      simp [decodeArgs, sentObject]
  | msgpack =>
      refine ⟨"msgpack", getContentType_of_override (by rw [format]; rfl), ?_⟩
      simp [decodeArgs, sentObject]
  | auto =>
      have header := alike.header format
      have keeps := alike.id format
      rw [withContentType_of_auto format]
      have type : request.getContentType (ε := ε) host = .ok "auto" := by
        rw [Request.getContentType, fresh]
        exact header
      refine ⟨"auto", type, ?_⟩
      rw [decodeArgs, if_pos rfl, sentObject]
      cases packed : capnpRead (ε := ε) host request schemaIn with
      | error problem =>
          have failed : capnpDecode (ε := ε) host request schemaIn = .error problem := by
            rw [capnpDecode, packed]
            rfl
          rw [failed]
      | ok pair =>
          obtain ⟨id, args⟩ := pair
          by_cases given : id.truthy = true
          · obtain ⟨other, set, same⟩ := keeps id args packed given
            have decoded : capnpDecode (ε := ε) host request schemaIn = .ok other := by
              rw [capnpDecode, packed]
              simp only [bind, Except.bind, given, if_true, set, meet]
            rw [decoded]
            exact paramsOf_congr same
          · have decoded : capnpDecode (ε := ε) host request schemaIn = .ok args := by
              rw [capnpDecode, packed]
              simp only [bind, Except.bind, given]
              rfl
            rw [decoded]

/-- The method is called with what was sent, where header, id and names let it. -/
theorem callOf_of_alike {session : UserSession} {request : Request} {cmd : GedisCmd}
    (fresh : request.contentType = none)
    (alike : ∀ schemaIn, cmd.schemaIn = some schemaIn →
      ReadsAlike (ε := ε) host session request cmd schemaIn) :
    callOf (ε := ε) host request session cmd =
      sentCall host session.contentType request cmd := by
  unfold sentCall callOf
  cases input : cmd.schemaIn with
  | none => rfl
  | some schemaIn =>
      have agreed := alike schemaIn input
      obtain ⟨type, typed, decoded⟩ := decodeArgs_of_alike fresh agreed
      have read : readInputArgsSchema (ε := ε) host (request.withContentType session) cmd
          schemaIn = (sentObject host session.contentType request schemaIn >>=
            paramsOf schemaIn) := by
        rw [← decoded, readInputArgsSchema, typed]
        simp only [bind, Except.bind, ensure, agreed.schemaOut, agreed.userSession,
          not_false_eq_true, if_true]
      dsimp only
      rw [read, bind_assoc]

/-- Every parameter is named after a property. -/
theorem name_of_mem_paramsOf {schemaIn : Schema} {args : JSXObject} {params : DataDict}
    (values : paramsOf (ε := ε) schemaIn args = .ok params) {param : String × PyVal}
    (member : param ∈ params) : ∃ prop ∈ schemaIn.properties, param.1 = prop.name := by
  rw [paramsOf, mapM_ok_iff] at values
  obtain ⟨prop, inside, made⟩ := exists_of_mem_right values member
  rw [bind_eq_ok_iff] at made
  obtain ⟨value, _, named⟩ := made
  cases named
  exact ⟨prop, inside, rfl⟩

/-- A method is called with what was sent as it is. -/
theorem call_of_sent {session : UserSession} {request : Request} {cmd : GedisCmd}
    {call : Call}
    (alike : ∀ schemaIn, cmd.schemaIn = some schemaIn →
      ReadsAlike (ε := ε) host session request cmd schemaIn)
    (sent : sentCall (ε := ε) host session.contentType request cmd = .ok call)
    (method : Method W ε) (world : W) :
    method.call call world = (.ok (method call world).1, (method call world).2) := by
  have plain : call.conflict = false ∧ call.settle = call := by
    unfold sentCall at sent
    cases input : cmd.schemaIn with
    | none =>
        rw [input] at sent
        cases sent
        refine ⟨rfl, ?_⟩
        cases cmd.schemaOut <;> rfl
    | some schemaIn =>
        rw [input] at sent
        simp only [bind_eq_ok_iff] at sent
        obtain ⟨args, _, params, values, made⟩ := sent
        cases made
        have names := (alike schemaIn input).names
        constructor
        · rw [Call.conflict, List.any_eq_false]
          intro param member
          obtain ⟨prop, inside, named⟩ := name_of_mem_paramsOf values member
          simp [named, (names prop inside).1]
        · cases output : cmd.schemaOut with
          | none => rfl
          | some schemaOut =>
              simp only [Call.settle]
              congr 1
              rw [List.filter_eq_self]
              intro param member
              obtain ⟨prop, inside, named⟩ := name_of_mem_paramsOf values member
              simp [named, (names prop inside).2 (by rw [output]; rfl)]
  rw [Method.call, plain.1, plain.2]
  rfl

/-! ### Encoding the result -/

/-- The response type that the handler reads has the encoding asked for. -/
theorem responseType_of_alike {session : UserSession} {request : Request} {cmd : GedisCmd}
    (fresh : request.responseType = none)
    (alike : AnswersAlike (ε := ε) host session request cmd) :
    ∃ type, (request.withResponseType session cmd).getResponseType (ε := ε) host = .ok type ∧
      encodingOf cmd.schemaOut type = session.responseType.encoding := by
  unfold AnswersAlike at alike
  unfold Request.withResponseType
  cases output : cmd.schemaOut with
  | none =>
      rw [output] at alike
      rw [Request.getResponseType, fresh]
      exact alike
  | some schemaOut =>
      rw [output] at alike
      cases format : session.contentType with
      | auto =>
          simp only [format, Format.override] at alike ⊢
          rw [Request.getResponseType, fresh]
          exact alike
      | json =>
          simp only [format, Format.override] at alike ⊢
          rw [← alike]
          exact ⟨"json", rfl, rfl⟩
      | msgpack =>
          simp only [format, Format.override] at alike ⊢
          rw [← alike]
          exact ⟨"msgpack", rfl, rfl⟩

/-- An object is encoded in the encoding that is chosen. -/
theorem encodeItem_object {request : Request} {cmd : GedisCmd} {format : Format}
    {type : String} (typed : request.getResponseType (ε := ε) host = .ok type)
    (chosen : encodingOf cmd.schemaOut type = format.encoding) {item : PyObj}
    (object : item.isObject = true) :
    encodeItem (ε := ε) host request cmd item = encodedObject host format item := by
  cases item with
  | jsx obj =>
      have encodes : resultEncode host cmd type (.jsx obj) =
          encoded host obj (encodingOf cmd.schemaOut type) := by
        unfold resultEncode
        cases cmd.schemaOut <;> rfl
      rw [encodeItem, typed, encodedObject, ← chosen, ← encodes]
      rfl
  | _ => cases object

theorem encodeResult_objects {request : Request} {cmd : GedisCmd} {format : Format}
    {type : String} (typed : request.getResponseType (ε := ε) host = .ok type)
    (chosen : encodingOf cmd.schemaOut type = format.encoding) {result : PyObj}
    (objects : result.IsObjects) :
    encodeResult (ε := ε) host request cmd result = encodedAs host format result := by
  cases result with
  | list items =>
      rw [encodeResult, encodedAs]
      congr 1
      apply mapM_congr
      intro item member
      exact encodeItem_object typed chosen (objects item member)
  | jsx obj => exact encodeItem_object typed chosen rfl
  | _ => cases objects

/-- The result is encoded in the response type, where that is what the handler
reads. -/
theorem encodeResult_of_alike {session : UserSession} {request : Request} {cmd : GedisCmd}
    {result : PyObj} (fresh : request.responseType = none) (objects : result.IsObjects)
    (alike : result.HasObject → AnswersAlike (ε := ε) host session request cmd) :
    encodeResult (ε := ε) host (request.withResponseType session cmd) cmd result =
      encodedAs host session.responseType result := by
  by_cases some : result.HasObject
  · obtain ⟨type, typed, chosen⟩ := responseType_of_alike fresh (alike some)
    exact encodeResult_objects typed chosen objects
  · cases result with
    | list items =>
        have nothing : items = [] := not_not.mp some
        rw [nothing]
        rfl
    | _ => exact absurd trivial some

/-! ### The formats behind a request -/

theorem tryExcept_keeps {α : Type} {property : Handler W ε → Prop}
    {body : HandlerM W ε α} (keeps : Keeps property body) :
    Keeps property (tryExcept body) := by
  intro handler holds
  have reached := keeps handler holds
  unfold final at reached ⊢
  unfold tryExcept
  cases done : body handler with
  | ok value after =>
      rw [done] at reached
      exact reached
  | error escape after =>
      rw [done] at reached
      cases escape <;> exact reached

variable (host) in
theorem conclude_keeps {property : Handler W ε → Prop} (request : Request) (cmd : GedisCmd)
    (outcome : Except (Problem ε) (Outcome ε)) :
    Keeps property (conclude host request cmd outcome) := by
  cases outcome with
  | error problem => exact Keeps.bind (raising_keeps _) (fun _ => Keeps.pure _)
  | ok outcome =>
      cases outcome with
      | returned result => exact Keeps.bind (raising_keeps _) (fun _ => Keeps.pure _)
      | raised problem => exact Keeps.bind (raising_keeps _) (fun _ => Keeps.pure _)
      | exits => exact Keeps.throw Escape.exits

/-- What a method is called with changes the cache and the world alone. -/
theorem dispatch_keeps {property : Handler W ε → Prop}
    (moved : ∀ handler world, property handler → property { handler with world := world })
    (request : Request) (entry : Except (Problem ε) (GedisCmd × Method W ε)) :
    Keeps property (dispatch host request entry) := by
  cases entry with
  | error problem => exact Keeps.bind (raising_keeps _) (fun _ => Keeps.pure _)
  | ok entry =>
      obtain ⟨cmd, method⟩ := entry
      intro handler holds
      have turn := dispatch_found host handler request cmd method
      cases read : callOf host request handler.userSession cmd with
      | error problem =>
          rw [read] at turn
          have keeps : Keeps property (reported host problem) :=
            Keeps.bind (raising_keeps _) (fun _ => Keeps.pure _)
          have after := keeps handler holds
          unfold final at after ⊢
          rw [turn]
          exact after
      | ok call =>
          rw [read] at turn
          have after := conclude_keeps host
            (request.withResponseType handler.userSession cmd) cmd
            (method.call call handler.world).1
            { handler with world := (method.call call handler.world).2 }
            (moved handler _ holds)
          unfold final at after ⊢
          rw [turn]
          exact after

variable (host) in
/-- Writing the reply changes nothing of what a request works on. -/
theorem final_answer (body : HandlerM W ε Handled) (handler : Handler W ε) :
    final (body >>= fun handled => raising (answerOf host handled)) handler =
      final body handler := by
  cases done : body handler with
  | error escape reached => rw [final_seq_of_error done, final_of_error done]
  | ok handled reached =>
      rw [final_seq_of_ok done, final_of_ok done]
      cases answerOf host handled <;> rfl

/-- Where the arguments cannot be read, no method is called. -/
theorem final_of_refused {handler found : Handler W ε} {request : Request} {command : Command}
    {cmd : GedisCmd} {method : Method W ε} {problem : Problem ε}
    (named : request.command host = .ok command) (remote : command.isRemote = true)
    (looked : cmdObjGet host command handler = .ok (cmd, method) found)
    (unread : callOf host request found.userSession cmd = .error problem) :
    final (handleGedisSession host request) handler = found := by
  have dispatched := dispatch_found host found request cmd method
  rw [unread] at dispatched
  have keeps : Keeps (fun reached => reached = found) (reported host problem) :=
    Keeps.bind (raising_keeps _) (fun _ => Keeps.pure _)
  have reached := keeps found rfl
  have turn := turn_of_found named remote looked
  have answered := final_answer host (dispatch host request (.ok (cmd, method))) found
  unfold final at reached answered ⊢
  rw [turn, answered, dispatched]
  exact reached

/-- A command that sets formats sets those that are noted. -/
theorem configure_session {request : Request} {command : Command}
    (named : request.command host = .ok command) (handler : Handler W ε) :
    (final (configure host command request) handler).userSession =
      noteFormats host request handler.userSession := by
  rw [noteFormats, named]
  cases format : request.format host with
  | error problem =>
      cases sets : command.setsFormat with
      | false =>
          rw [configure_other sets]
          rfl
      | true => rw [final_of_error (configure_error format sets handler)]
  | ok format' =>
      rw [configure, format]
      by_cases content : command.command = "config_content_type"
      · simp only [if_pos content]
        rfl
      · simp only [if_neg content]
        by_cases response : command.command = "config_response_type"
        · simp only [if_pos response]
          rfl
        · simp only [if_neg response]
          by_cases both : command.command = "config_format"
          · simp only [if_pos both]
            rfl
          · simp only [if_neg both]
            rfl

/-- A request that does not start with `config_` sets no format. -/
theorem noteFormats_other {request : Request} {command : Command}
    (named : request.command host = .ok command) (other : command.isConfig = false)
    (formats : UserSession) : noteFormats host request formats = formats := by
  have content : command.command ≠ "config_content_type" := by
    intro same
    rw [Command.isConfig, same] at other
    exact absurd other (by decide)
  have response : command.command ≠ "config_response_type" := by
    intro same
    rw [Command.isConfig, same] at other
    exact absurd other (by decide)
  have both : command.command ≠ "config_format" := by
    intro same
    rw [Command.isConfig, same] at other
    exact absurd other (by decide)
  rw [noteFormats, named]
  cases request.format host with
  | error problem => rfl
  | ok format => simp only [if_neg content, if_neg response, if_neg both]

/-- A request that does not start with `config_` changes the cache and the world
alone. -/
theorem handleRequest_keeps {property : Handler W ε → Prop} {request : Request}
    {command : Command} (named : request.command host = .ok command)
    (other : command.isConfig = false)
    (cached : ∀ handler cmds, property handler → property { handler with cmds := cmds })
    (moved : ∀ handler world, property handler → property { handler with world := world }) :
    Keeps property (handleRequest host request) := by
  rw [handleRequest, named, raising_ok, pure_bind]
  by_cases first : command.command = "command"
  · rw [if_pos first]
    exact Keeps.pure _
  · rw [if_neg first]
    by_cases second : command.command = "ping"
    · rw [if_pos second]
      exact Keeps.pure _
    · rw [if_neg second, if_neg (Bool.eq_false_iff.mp other)]
      by_cases auth : command.command = "auth"
      · rw [if_pos auth]
        exact Keeps.pure _
      · rw [if_neg auth]
        apply Keeps.bind (tryExcept_keeps (cmdObjGet_keeps cached command))
        intro found
        exact dispatch_keeps moved request found

/-- A request that starts with `config_` goes to the branch of these commands. -/
theorem handleRequest_config {request : Request} {command : Command}
    (named : request.command host = .ok command) (config : command.isConfig = true) :
    handleRequest host request =
      configure host command request >>= fun _ => pure (.result (.str "OK")) := by
  have notCommand : command.command ≠ "command" := by
    intro same
    rw [Command.isConfig, same] at config
    exact absurd config (by decide)
  have notPing : command.command ≠ "ping" := by
    intro same
    rw [Command.isConfig, same] at config
    exact absurd config (by decide)
  rw [handleRequest, named, raising_ok, pure_bind, if_neg notCommand, if_neg notPing,
    if_pos config]

variable (host) in
/-- The formats behind a turn of the loop are those that the request sets. -/
theorem formats_after (request : Request) (handler : Handler W ε) :
    (final (handleGedisSession host request) handler).userSession =
      noteFormats host request handler.userSession := by
  cases named : request.command host with
  | error problem =>
      have turn : handleGedisSession host request handler = .error (.problem problem) handler := by
        rw [handleGedisSession, named]
        rfl
      rw [final_of_error turn, noteFormats, named]
  | ok command =>
      rw [handleGedisSession_eq named, final_answer]
      cases config : command.isConfig with
      | true =>
          rw [handleRequest_config named config, ← configure_session named]
          cases set : configure host command request handler with
          | ok done reached =>
              rw [final_seq_of_ok set, final_of_ok set]
              rfl
          | error escape reached => rw [final_seq_of_error set, final_of_error set]
      | false =>
          rw [noteFormats_other named config]
          have keeps : Keeps (fun reached : Handler W ε =>
              reached.userSession = handler.userSession) (handleRequest host request) :=
            handleRequest_keeps named config (fun _ _ holds => holds) (fun _ _ holds => holds)
          exact keeps handler rfl

/-! ## The formats are honoured -/

/-- A request for a method honours the formats of the session, where header, id and
names let it. -/
theorem honours_of_alike {handler found : Handler W ε} {request : Request}
    {command : Command} {cmd : GedisCmd} {method : Method W ε}
    (fresh : request.contentType = none ∧ request.responseType = none)
    (named : request.command host = .ok command) (remote : command.isRemote = true)
    (looked : cmdObjGet host command handler = .ok (cmd, method) found)
    (reads : ∀ schemaIn, cmd.schemaIn = some schemaIn →
      ReadsAlike (ε := ε) host handler.userSession request cmd schemaIn)
    (alike : ∀ call result, sentCall host handler.userSession.contentType request cmd = .ok call →
      (method call found.world).1 = .returned result → result.IsObjects →
      result.HasObject → AnswersAlike (ε := ε) host handler.userSession request cmd) :
    Honours host handler.userSession handler request cmd method found := by
  have session := (found_of_looked looked).1
  have read := callOf_of_alike fresh.1 reads
  rw [← session] at read
  have turn {call : Call}
      (sent : sentCall host handler.userSession.contentType request cmd = .ok call) :
      handleGedisSession host request handler =
        (conclude host (request.withResponseType found.userSession cmd) cmd
            (.ok (method call found.world).1) >>=
          fun handled => raising (answerOf host handled))
          { found with world := (method call found.world).2 } := by
    have called := call_of_sent reads sent method found.world
    rw [turn_of_call named remote looked (read.trans (session.symm ▸ sent)), called]
  constructor
  · intro call sent
    have keeps : Keeps
        (fun reached : Handler W ε =>
          reached = { found with world := (method call found.world).2 })
        (conclude host (request.withResponseType found.userSession cmd) cmd
          (.ok (method call found.world).1)) := conclude_keeps host _ _ _
    have concluded := keeps { found with world := (method call found.world).2 } rfl
    rw [← final_answer] at concluded
    unfold final at concluded ⊢
    rw [turn sent]
    exact concluded
  · intro problem unsent
    exact final_of_refused named remote looked (read.trans (session.symm ▸ unsent))
  · intro call result sent returned objects
    rw [turn sent, returned, conclude_returned]
    apply congrFun
    apply congrArg
    rw [replyValue, replyAs, session]
    rw [encodeResult_of_alike fresh.2 objects (alike call result sent returned objects)]
    cases encodedAs (ε := ε) host handler.userSession.responseType result <;> rfl

/-- A server, and the formats that were set last over every connection. -/
structure Negotiation (W ε : Type) where
  server : GedisServer W ε
  formats : Nat → UserSession

namespace Negotiation

/-- A request that is read, and the formats that it sets. -/
def step (host : Host W ε) (state : Negotiation W ε) (event : Event) : Negotiation W ε :=
  if (state.server.connections event.connection).reading then
    { server := state.server.step host event
      formats := Function.update state.formats event.connection
        (noteFormats host event.request (state.formats event.connection)) }
  else state

/-- Connections that were just opened, over which nothing was set. -/
def start (cmds : String → Option (GedisCmd × Method W ε)) (world : W) : Negotiation W ε :=
  ⟨GedisServer.opened cmds world, fun _ => .init⟩

/-- Every session has the formats that were set last over it. -/
def Agreed (state : Negotiation W ε) : Prop :=
  ∀ connection, (state.server.connections connection).userSession = state.formats connection

variable (host) in
/-- The request leaves every session with the formats that were set last over
it, and a method is called and answered by the formats of its session. -/
structure Negotiated (state : Negotiation W ε) (event : Event) : Prop where
  sets : (state.step host event).Agreed
  methods : (state.server.connections event.connection).reading = true →
    ∀ command cmd method found, event.request.command host = .ok command →
      command.isRemote = true →
      cmdObjGet host command (state.server.handler event.connection) = .ok (cmd, method) found →
      Honours host (state.formats event.connection) (state.server.handler event.connection)
        event.request cmd method found

variable (host) in
/-- A request for a method has no header, id or name that stands against the
formats, and where the method answers with objects, the encoding that the
handler chooses is that of the response type. -/
def Sound (state : Negotiation W ε) (event : Event) : Prop :=
  ∀ command cmd method found, event.request.command host = .ok command →
    command.isRemote = true →
    cmdObjGet host command (state.server.handler event.connection) = .ok (cmd, method) found →
    (∀ schemaIn, cmd.schemaIn = some schemaIn →
      ReadsAlike (ε := ε) host (state.formats event.connection) event.request cmd schemaIn) ∧
    ∀ call result,
      sentCall host (state.formats event.connection).contentType event.request cmd = .ok call →
      (method call found.world).1 = .returned result → result.IsObjects → result.HasObject →
      AnswersAlike (ε := ε) host (state.formats event.connection) event.request cmd

variable (host) in
/-- A request sets the formats of its own session, and of no other. -/
theorem Agreed.step {state : Negotiation W ε} (agreed : state.Agreed) (event : Event) :
    (state.step host event).Agreed := by
  unfold Negotiation.step
  by_cases reading : (state.server.connections event.connection).reading = true
  · rw [if_pos reading]
    have formats := formats_after host event.request (state.server.handler event.connection)
    have session : (state.server.handler event.connection).userSession =
        state.formats event.connection := agreed event.connection
    rw [session] at formats
    intro connection
    dsimp only
    by_cases same : connection = event.connection
    · subst same
      rw [Function.update_self, ← formats]
      cases turn : handleGedisSession host event.request
          (state.server.handler event.connection) with
      | ok answer reached =>
          rw [GedisServer.step_of_ok reading turn, GedisServer.leave_same, final_of_ok turn]
      | error escape reached =>
          rw [GedisServer.step_of_error reading turn, GedisServer.leave_same,
            final_of_error turn]
    · rw [Function.update_of_ne same, ← agreed connection]
      cases turn : handleGedisSession host event.request
          (state.server.handler event.connection) with
      | ok answer reached =>
          rw [GedisServer.step_of_ok reading turn, GedisServer.leave_other same]
      | error escape reached =>
          rw [GedisServer.step_of_error reading turn, GedisServer.leave_other same]
  · rw [if_neg reading]
    exact agreed

theorem Agreed.negotiated {state : Negotiation W ε} {event : Event} (agreed : state.Agreed)
    (sound : state.Sound host event) : state.Negotiated host event := by
  constructor
  · exact agreed.step host event
  · intro reading command cmd method found named remote looked
    have session : (state.server.handler event.connection).userSession =
        state.formats event.connection := agreed event.connection
    obtain ⟨reads, answers⟩ := sound command cmd method found named remote looked
    rw [← session] at reads answers ⊢
    exact honours_of_alike (And.intro rfl rfl) named remote looked reads answers

end Negotiation

/-- A request that sets formats is answered with `OK`. -/
theorem turn_of_config {request : Request} {command : Command} {handler reached : Handler W ε}
    (named : request.command host = .ok command) (config : command.isConfig = true)
    (set : configure host command request handler = .ok () reached) :
    handleGedisSession host request handler = .ok (.encode (.str "OK")) reached := by
  rw [handleGedisSession_eq named, handleRequest_config named config, bind_assoc, seq_of_ok set]
  rfl

end

/-! ## A response type beside another content type -/

/-- The codec of json knows what an object of the fixture is written as. -/
def petGedis : Host Unit Empty :=
  { emptyGedis with
    codecs := EncryptorTools.rexTools.codecs
    pack := fun _ => [3] }

/-- A command that answers with an object of its output schema. -/
def petCmd : GedisCmd := ⟨"get", [], none, some EncryptorTools.rex.schema⟩

def petMethod : Method Unit Empty := fun _ world => (.returned (.jsx EncryptorTools.rex), world)

/-- The cache of a handler that was asked for the command before. -/
def petCmds : String → Option (GedisCmd × Method Unit Empty) :=
  fun key => if key = "zerobot.pets.dogs.get" then some (petCmd, petMethod) else none

def petEvent : Event := ⟨0, TextBytes.utf8 "pets.dogs.get", []⟩

def configEvent (name : String) : Event := ⟨0, TextBytes.utf8 name, [TextBytes.utf8 "json"]⟩

theorem petEvent_command :
    petEvent.request.command petGedis = .ok ⟨"zerobot", "pets", "dogs", "get"⟩ := by
  rw [Request.command, petEvent, Event.request, Request.read, decodeUtf8, TextBytes.utf8Decode_utf8]
  rfl

theorem petEvent_looked (session : UserSession) :
    cmdObjGet petGedis ⟨"zerobot", "pets", "dogs", "get"⟩ ⟨session, petCmds, ()⟩ =
      .ok (petCmd, petMethod) ⟨session, petCmds, ()⟩ := rfl

def petCall : Call := ⟨[], [], petCmd.schemaOut⟩

theorem petCall_read :
    callOf petGedis petEvent.request ⟨.auto, .json⟩ petCmd = .ok petCall := rfl

theorem configEvent_format (name : String) :
    (configEvent name).request.format petGedis = .ok .json := by
  rw [Request.format, configEvent, Event.request, Request.read, Request.argument]
  simp only [bind, Except.bind, decodeUtf8, TextBytes.utf8Decode_utf8]
  rfl

theorem responseEvent_command :
    (configEvent "config_response_type").request.command petGedis =
      .ok ⟨"zerobot", "base", "system", "config_response_type"⟩ := by
  rw [Request.command, configEvent, Event.request, Request.read, decodeUtf8,
    TextBytes.utf8Decode_utf8]
  rfl

theorem formatEvent_command :
    (configEvent "config_format").request.command petGedis =
      .ok ⟨"zerobot", "base", "system", "config_format"⟩ := by
  rw [Request.command, configEvent, Event.request, Request.read, decodeUtf8,
    TextBytes.utf8Decode_utf8]
  rfl

/-- The server behind a request that has set formats. -/
theorem after_config {name : String} {command : Command} {session : UserSession}
    (named : (configEvent name).request.command petGedis = .ok command)
    (config : command.isConfig = true)
    (set : configure petGedis command (configEvent name).request ⟨.init, petCmds, ()⟩ =
      .ok () ⟨session, petCmds, ()⟩) {state : Negotiation Unit Empty}
    (stepped : (Negotiation.start petCmds ()).step petGedis (configEvent name) = state) :
    state.server.handler petEvent.connection = ⟨session, petCmds, ()⟩ ∧
      (state.server.connections petEvent.connection).reading = true ∧
      state.formats petEvent.connection = session := by
  have turn := turn_of_config named config set
  have server : ((Negotiation.start petCmds ()).step petGedis (configEvent name)).server =
      (GedisServer.opened petCmds ()).step petGedis (configEvent name) := rfl
  have after : (GedisServer.opened petCmds ()).step petGedis (configEvent name) = _ :=
    GedisServer.step_of_ok rfl turn
  have start : (Negotiation.start petCmds ()).Agreed := fun _ => rfl
  have formats := start.step petGedis (configEvent name) petEvent.connection
  rw [stepped] at server formats
  rw [server, after] at formats ⊢
  exact ⟨rfl, rfl, formats.symm⟩

end Gedis

end JumpscaleX
