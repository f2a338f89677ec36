import JumpscaleX.EncryptorTools
import JumpscaleX.HostFile
import JumpscaleX.RedisServer

/-!
# The handler of gedis

`handlers.py` of the gedis server: the names of commands, the requests with
their headers, the formats of a session, and the way of a request from its
name to the reply.  The sessions of the handler are those of an administrator,
so that every command is authorized.
-/

namespace JumpscaleX

namespace Gedis

open Fallible TextBytes

/-- An exception of the class `Exception`: one that the handler and the
libraries raise, or one that a method raises. -/
inductive Problem (ε : Type) where
  | indexError
  | exn (problem : Exn)
  | raised (problem : ε)

/-! ### Names of commands -/

/-- `Command`. -/
structure Command where
  author3bot : String
  package : String
  actor : String
  command : String
  deriving DecidableEq

/-- What stands behind the first double underscore. -/
def afterMark : List Char → Option (List Char)
  | '_' :: '_' :: rest => some rest
  | _ :: rest => afterMark rest
  | [] => none

/-- The actor of a name with two or three parts. -/
def actorName (actor : String) : String :=
  match afterMark actor.toList with
  | some rest => String.ofList rest
  | none => actor

/-- `_command_split`.  Of the two parts of an actor with a double underscore,
the third is asked for where the name has an author. -/
def commandSplit {ε : Type} (cmd : String) : Except (Problem ε) Command :=
  match PyText.split '.' cmd with
  | [author3bot, package, actor, command] =>
      match afterMark actor.toList with
      | some _ => .error .indexError
      | none => .ok ⟨author3bot, package, actor, command⟩
  | [package, actor, command] => .ok ⟨"zerobot", package, actorName actor, command⟩
  | [actor, command] => .ok ⟨"zerobot", "base", actorName actor, command⟩
  | [command] => .ok ⟨"zerobot", "base", "system", command⟩
  | _ => .error (.exn (.base "cmd not properly formatted"))

namespace Command

def keyActor (command : Command) : String :=
  command.author3bot ++ "." ++ command.package ++ "." ++ command.actor

def keyMethod (command : Command) : String :=
  command.keyActor ++ "." ++ command.command

/-- `command.startswith("config_")`. -/
def isConfig (command : Command) : Bool :=
  "config_".toList.isPrefixOf command.command.toList

end Command

/-! ### Objects and methods -/

/-- What a method can answer with.  An instance of any other class is what
`bool`, `repr` and `getattr` make of it. -/
inductive PyObj where
  | none
  | int (value : Int)
  | bool (value : Bool)
  | str (text : String)
  | bytes (content : Bytes)
  | list (items : List PyObj)
  | jsx (obj : JSXObject)
  | instance (truth : Except Exn Bool) (repr : Except Exn String)
      (attributes : String → Except Exn PyObj)

/-- A command of an actor, as `GedisCmd` and its `cmdobj` describe it. -/
structure GedisCmd where
  name : String
  args : List String
  schemaIn : Option Schema
  schemaOut : Option Schema

/-- The arguments of a method, besides the session. -/
structure Call where
  positional : List Bytes
  keywords : DataDict
  schemaOut : Option Schema

/-- How a method ends; `exits` stands for an exception that is not an
`Exception`. -/
inductive Outcome (ε : Type) where
  | returned (result : PyObj)
  | raised (problem : ε)
  | exits

/-- A method, which may change what is around the handler. -/
abbrev Method (W ε : Type) := Call → W → Outcome ε × W

/-! ### Sessions -/

/-- The values of the enumeration of the formats. -/
inductive Format where
  | auto
  | json
  | msgpack
  deriving DecidableEq

structure UserSession where
  contentType : Format
  responseType : Format

/-- A new session. -/
def UserSession.init : UserSession := ⟨.auto, .auto⟩

/-- The type that `_handle_request` puts into a request of a session with a
content type. -/
def Format.override : Format → Option String
  | .auto => none
  | .json => some "json"
  | .msgpack => some "msgpack"

/-- A logdict.  It is never empty. -/
structure LogDict where
  fields : DataDict
  nonempty : fields ≠ []

/-- What the handler works with: the codecs, the schemas, the packed form of
capnp objects, the unicode tables of `str`, what `exception_handle` makes of an
exception, and the actors with their metadata. -/
structure Host (W ε : Type) where
  codecs : Codecs
  schemas : SchemaFactory
  pack : BData → Bytes
  unpack : Bytes → Except Exn BData
  lower : String → String
  upper : String → String
  casefold : String → String
  repr : JSXObject → Except Exn String
  exceptionHandle : Problem ε → Except (Problem ε) LogDict
  actorGet : String → String → String → W → Except Exn (String → Option (Method W ε))
  cmdsMeta : String → W → Option (String → Option GedisCmd)
  /-- Whether somebody leaves the interactive shell that `j.shell` opens. -/
  shellLeft : W → Bool

/-! ### Requests -/

/-- A request that is not empty, with the types that the handler puts into it. -/
structure Request where
  name : Bytes
  arguments : List Bytes
  contentType : Option String
  responseType : Option String

/-- A request as it was read. -/
def Request.read (name : Bytes) (arguments : List Bytes) : Request :=
  ⟨name, arguments, none, none⟩

section

variable {W ε : Type} (host : Host W ε)

/-- `bytes.decode()`. -/
def decodeUtf8 (content : Bytes) : Except (Problem ε) String :=
  match utf8Decode content with
  | some text => .ok text
  | none => .error (.exn (.valueError "'utf-8' codec can't decode"))

/-- `Request.command`. -/
def Request.command (request : Request) : Except (Problem ε) Command := do
  let name ← decodeUtf8 request.name
  commandSplit (host.lower name)

/-- `request.arguments[0]`. -/
def Request.argument (request : Request) : Except (Problem ε) Bytes :=
  match request.arguments with
  | argument :: _ => .ok argument
  | [] => .error .indexError

/-- `Request.headers`: the json of the second argument, if it is any. -/
def Request.headers (request : Request) : PyVal :=
  match request.arguments with
  | _ :: headers :: _ =>
      match SerializerUJson.loads host.codecs (.binary headers) with
      | .ok headers => headers
      | .error _ => .dict []
  | _ => .dict []

/-- `self.headers.get(name, "auto").casefold()`. -/
def Request.header (request : Request) (name : String) : Except (Problem ε) String :=
  match request.headers host with
  | .dict fields =>
      match fields.lookup name with
      | some (.str text) => .ok (host.casefold text)
      | some _ => .error (.exn (.attributeError "casefold"))
      | none => .ok (host.casefold "auto")
  | _ => .error (.exn (.attributeError "get"))

/-- The property `content_type`. -/
def Request.getContentType (request : Request) : Except (Problem ε) String :=
  match request.contentType with
  | some type => .ok type
  | none => request.header host "content_type"

/-- The property `response_type`. -/
def Request.getResponseType (request : Request) : Except (Problem ε) String :=
  match request.responseType with
  | some type => .ok type
  | none => request.header host "response_type"

/-- `value` of the enumeration, set to a text. -/
def formatClean (text : String) : Except (Problem ε) Format :=
  let name := String.ofList (StringType.strip HostFile.isspace (host.upper text).toList)
  if text = "" then .ok .auto
  else if name = "AUTO" then .ok .auto
  else if name = "JSON" then .ok .json
  else if name = "MSGPACK" then .ok .msgpack
  else .error (.exn (.input (.other "cannot find in enumeration")))

/-- The format that a `config_` request names. -/
def Request.format (request : Request) : Except (Problem ε) Format := do
  let argument ← request.argument
  let text ← decodeUtf8 argument
  formatClean host text

/-! ### Reading the arguments -/

/-- `id, data = value`. -/
def unpackTwo : PyVal → Except (Problem ε) (PyVal × PyVal)
  | .list [first, second] => .ok (first, second)
  | .dict [(first, _), (second, _)] => .ok (.str first, .str second)
  | .bytes [first, second] => .ok (.int first, .int second)
  | .str text =>
      match text.toList with
      | [first, second] => .ok (.str first.toString, .str second.toString)
      | _ => .error (.exn (.valueError "values to unpack (expected 2)"))
  | .list _ | .dict _ | .bytes _ =>
      .error (.exn (.valueError "values to unpack (expected 2)"))
  | _ => .error (.exn (.typeError "cannot unpack non-iterable object"))

/-- An exception of the code below, as one that the handler meets. -/
def meet {α : Type} : Except Exn α → Except (Problem ε) α
  | .ok value => .ok value
  | .error problem => .error (.exn problem)

/-- `schema.new(serializeddata=data)`. -/
def newSerialized (schema : Schema) (data : PyVal) : Except Exn JSXObject :=
  if data.truthy then
    match data with
    | .bytes content => do
        let bdata ← host.unpack (content.map UInt8.ofNat)
        host.schemas.loads bdata none
    | _ => .error .assertionError
  else schema.new false none []

/-- The id and the object of an argument that is packed as a pair. -/
def capnpRead (request : Request) (schemaIn : Schema) :
    Except (Problem ε) (PyVal × JSXObject) := do
  let argument ← request.argument
  let value ← meet (SerializerMSGPack.loads host.codecs (.binary argument))
  let (id, data) ← unpackTwo value
  let args ← meet (newSerialized host schemaIn data)
  return (id, args)

/-- `capnp_decode`, up to what it does with an exception. -/
def capnpDecode (request : Request) (schemaIn : Schema) :
    Except (Problem ε) JSXObject := do
  let (id, args) ← capnpRead host request schemaIn
  if id.truthy then meet (args.setattr false "id" id) else return args

/-- `json_decode`. -/
def jsonDecode (request : Request) (schemaIn : Schema) : Except (Problem ε) JSXObject := do
  let argument ← request.argument
  let parsed ← meet (SerializerUJson.loads host.codecs (.binary argument))
  meet (EncryptorTools.newObject schemaIn parsed)

/-- `msgpack_decode`. -/
def msgpackDecode (request : Request) (schemaIn : Schema) :
    Except (Problem ε) JSXObject := do
  let argument ← request.argument
  let parsed ← meet (SerializerMSGPack.loads host.codecs (.binary argument))
  meet (EncryptorTools.newObject schemaIn parsed)

/-- The object of the arguments, by the content type. -/
def decodeArgs (request : Request) (schemaIn : Schema) (contentType : String) :
    Except (Problem ε) JSXObject :=
  if contentType = "auto" then
    match capnpDecode host request schemaIn with
    | .ok args => .ok args
    | .error _ => jsonDecode host request schemaIn
  else if contentType = "json" then jsonDecode host request schemaIn
  else if contentType = "msgpack" then msgpackDecode host request schemaIn
  else if contentType = "capnp" then capnpDecode host request schemaIn
  else .error (.exn (.valueError "invalid content type was provided"))

/-- The values of the properties of the schema, by their names. -/
def paramsOf (schemaIn : Schema) (args : JSXObject) : Except (Problem ε) DataDict :=
  schemaIn.properties.mapM (fun prop => do
    let value ← meet (args.getattr prop.name)
    return (prop.name, value))

/-- `_read_input_args_schema`. -/
def readInputArgsSchema (request : Request) (cmd : GedisCmd) (schemaIn : Schema) :
    Except (Problem ε) DataDict := do
  let contentType ← request.getContentType host
  let args ← decodeArgs host request schemaIn contentType
  ensure ("schema_out" ∉ cmd.args)
    (.exn (.base "schema_out should not be in arguments of method"))
  ensure ("user_session" ∉ cmd.args)
    (.exn (.base "user_session should not be in arguments of method"))
  paramsOf schemaIn args

/-- The request with the content type of the session, which stands before any
header. -/
def Request.withContentType (request : Request) (session : UserSession) : Request :=
  match session.contentType.override with
  | some type => { request with contentType := some type }
  | none => request

/-- The request with the response type, which is taken from the content type
of the session too, where the command has an output schema. -/
def Request.withResponseType (request : Request) (session : UserSession)
    (cmd : GedisCmd) : Request :=
  match cmd.schemaOut, session.contentType.override with
  | some _, some type => { request with responseType := some type }
  | _, _ => request

/-- What the method is called with. -/
def callOf (request : Request) (session : UserSession) (cmd : GedisCmd) :
    Except (Problem ε) Call :=
  match cmd.schemaIn with
  | none => .ok ⟨request.arguments, [], cmd.schemaOut⟩
  | some schemaIn => do
      let params ←
        readInputArgsSchema host (request.withContentType session) cmd schemaIn
      return ⟨[], params, cmd.schemaOut⟩

/-- A keyword argument that is given twice. -/
def Call.conflict (call : Call) : Bool :=
  call.keywords.any (fun param => param.1 = "user_session")

/-- The call with `schema_out` in the place of a property of that name. -/
def Call.settle (call : Call) : Call :=
  match call.schemaOut with
  | some _ =>
      { call with keywords := call.keywords.filter (fun param => param.1 ≠ "schema_out") }
  | none => call

/-- `cmd_method(*params_list, user_session=user_session, **params_dict)`. -/
def Method.call (method : Method W ε) (call : Call) (world : W) :
    Except (Problem ε) (Outcome ε) × W :=
  if call.conflict then
    (.error (.exn (.typeError "got multiple values for keyword argument 'user_session'")),
      world)
  else
    let (outcome, world) := method call.settle world
    (.ok outcome, world)

/-! ### Encoding the result -/

/-- The encodings of a JSX object. -/
inductive Encoding where
  | data
  | json
  | msgpack
  deriving DecidableEq

def Encoding.attribute : Encoding → String
  | .data => "_data"
  | .json => "_json"
  | .msgpack => "_msgpack"

/-- The encoding that `_result_encode` chooses. -/
def encodingOf (schemaOut : Option Schema) (responseType : String) : Encoding :=
  match schemaOut with
  | some _ =>
      if responseType = "msgpack" then .msgpack
      else if responseType = "capnp" ∨ responseType = "auto" then .data
      else .json
  | none =>
      if responseType = "json" then .json
      else if responseType = "msgpack" then .msgpack
      else .data

/-- The encodings that a JSX object has as properties. -/
def encoded (obj : JSXObject) : Encoding → Except Exn PyObj
  | .data => do
      let bdata ← obj.dumps
      return .bytes (host.pack bdata)
  | .json => .str <$> obj.json host.codecs
  | .msgpack => do
      let ddict ← obj.ddict
      .bytes <$> SerializerMSGPack.dumps host.codecs (.dict ddict)

/-- `bool(item)`. -/
def PyObj.truth : PyObj → Except Exn Bool
  | .none => .ok false
  | .int value => .ok (value ≠ 0)
  | .bool value => .ok value
  | .str text => .ok (text ≠ "")
  | .bytes content => .ok (content ≠ [])
  | .list items => .ok (!items.isEmpty)
  | .jsx _ => .ok true
  | .instance truth _ _ => truth

/-- `getattr(item, "_data")` and its like. -/
def PyObj.getEncoded (encoding : Encoding) : PyObj → Except Exn PyObj
  | .jsx obj => encoded host obj encoding
  | .instance _ _ attributes => attributes encoding.attribute
  | _ => .error (.attributeError encoding.attribute)

/-- `_result_encode`. -/
def resultEncode (cmd : GedisCmd) (responseType : String) (item : PyObj) :
    Except Exn PyObj := do
  if ← item.truth then
    match cmd.schemaOut, item with
    | some _, item => item.getEncoded host (encodingOf cmd.schemaOut responseType)
    | none, .jsx obj => encoded host obj (encodingOf cmd.schemaOut responseType)
    | none, item => return item
  else return item

/-- One item, with the response type read for it. -/
def encodeItem (request : Request) (cmd : GedisCmd) (item : PyObj) :
    Except (Problem ε) PyObj := do
  let responseType ← request.getResponseType host
  meet (resultEncode host cmd responseType item)

/-- The encoding of a result: a list is encoded item by item. -/
def encodeResult (request : Request) (cmd : GedisCmd) :
    PyObj → Except (Problem ε) PyObj
  | .list items => .list <$> items.mapM (encodeItem host request cmd)
  | item => encodeItem host request cmd item

mutual

/-- What the writer is given, with the `repr` of everything it does not know. -/
def written : PyObj → Except Exn Value
  | .none => .ok .none
  | .int value => .ok (.int value)
  | .bool value => .ok (.bool value)
  | .str text => .ok (.str text)
  | .bytes content => .ok (.bytes content)
  | .list items => .list <$> writtenItems items
  | .jsx obj => .other <$> host.repr obj
  | .instance _ repr _ => .other <$> repr

def writtenItems : List PyObj → Except Exn (List Value)
  | [] => .ok []
  | item :: items => do
      let value ← written item
      let values ← writtenItems items
      return value :: values

end

end

end Gedis

end JumpscaleX
