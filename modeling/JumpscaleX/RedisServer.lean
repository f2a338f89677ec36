import JumpscaleX.RedisResponseWriter
import JumpscaleX.Types

/-!
# The redis server of the database

`RedisServer.py`: the loop that reads the requests of a connection, and the
commands.  What the commands call on the database is given as a `Host`; the
calls that they make on the response writer are collected as `Answer`s.
-/

namespace JumpscaleX

open Stateful TextBytes

/-! ### Texts -/

namespace PyText

/-- `str.split` at a character. -/
def splitChars (separator : Char) : List Char → List (List Char)
  | [] => [[]]
  | char :: chars =>
      if char = separator then [] :: splitChars separator chars
      else
        match splitChars separator chars with
        | [] => [[char]]
        | part :: parts => (char :: part) :: parts

def split (separator : Char) (text : String) : List String :=
  (splitChars separator text.toList).map String.ofList

def strip (text : String) : String :=
  String.ofList (StringType.strip StringType.isSpace text.toList)

def lower (text : String) : String :=
  String.ofList (text.toList.map Char.toLower)

/-- The number of decimal digits, with single underscores between them. -/
def digits (chars : List Char) : Option Nat :=
  let parts := splitChars '_' chars
  if parts.all (fun part => !part.isEmpty && part.all Char.isDigit) then
    some (Nat.ofDigitChars 10 parts.flatten 0)
  else none

/-- `int`, of a text with ASCII digits. -/
def int (text : String) : Except Exn Int :=
  let number : Option Int :=
    match StringType.strip StringType.isSpace text.toList with
    | '-' :: chars => (digits chars).map (fun number => -number)
    | '+' :: chars => (digits chars).map (fun number => number)
    | chars => (digits chars).map (fun number => number)
  match number with
  | some number => .ok number
  | none => .error (.valueError "invalid literal for int() with base 10")

end PyText

namespace RedisServer

open Gedis PyText

/-- A call on the response writer. -/
inductive Answer where
  | encode (value : Value)
  | error (msg : String)
  /-- `_array(["0", res])`. -/
  | page (res : List Value)

def Answer.write (writer : RedisResponseWriter) : Answer → RedisResponseWriter
  | .encode value => writer.encode value
  | .error msg => writer.error msg
  | .page res => (writer.arrayHeader 2).encodeItems [.str "0", .list res]

/-- The id that a key ends in, where `*` stands for all of them. -/
inductive KeyId where
  | all
  | num (id : Int)

/-- The database as the server calls it: the clients of `j.clients.bcdbmodel`,
the models of `j.data.bcdb`, and their objects.  An object has its id in the
state, as saving it may give it one. -/
structure Host (σ Model Obj : Type) where
  clientGet : String → String → EStateM Exn σ Model
  modelGet : String → String → EStateM Exn σ Model
  new : Model → String → EStateM Exn σ Obj
  save : Obj → EStateM Exn σ Unit
  objId : Obj → σ → Option Int
  get : Model → KeyId → EStateM Exn σ Obj
  json : Obj → EStateM Exn σ String
  count : Model → EStateM Exn σ Nat
  destroy : Model → EStateM Exn σ Unit
  delete : Model → Int → EStateM Exn σ Unit
  find : Model → EStateM Exn σ (List Obj)
  key : Model → String
  schemaText : Model → String
  /-- The names of the databases with the urls of their models. -/
  instances : EStateM Exn σ (List (String × List String))
  /-- `str` of an exception. -/
  excText : Exn → String
  /-- The text of `info_internal`. -/
  infoText : String

/-- The database and the calls on the writer so far. -/
structure Handling (σ : Type) where
  db : σ
  answers : List Answer

abbrev HandlerM (σ : Type) := EStateM Exn (Handling σ)

section

variable {σ Model Obj : Type}

def onDb {α : Type} (computation : EStateM Exn σ α) : HandlerM σ α :=
  onPart Handling.db (fun handling db => { handling with db := db }) computation

def respond (answer : Answer) : HandlerM σ Unit :=
  modify (fun handling => { handling with answers := handling.answers ++ [answer] })

/-- `try: name = body` with a handler that goes on behind it.  The name is not
bound when the body has raised. -/
def tryExcept {α : Type} (body : HandlerM σ α) (handler : Exn → HandlerM σ Unit) :
    HandlerM σ (Option α) := fun handling =>
  match body handling with
  | .ok value reached => .ok (some value) reached
  | .error problem reached => (handler problem >>= fun _ => pure none) reached

/-- The value of a name that a `try` may have left unbound. -/
def bound {α : Type} (name : String) : Option α → HandlerM σ α
  | some value => pure value
  | none => throw (.unboundLocalError name)

/-- `_parse_key`. -/
def parseKey (key : String) : Except Exn (String × String × KeyId) :=
  match split ':' key with
  | [bcdbName, _, urlId] =>
      match split '/' urlId with
      | [url, id] =>
          if id = "*" then .ok (strip (lower bcdbName), url, .all)
          else do
            let id ← int id
            return (strip (lower bcdbName), url, .num id)
      | _ => .error (.valueError "wrong number of values to unpack")
  | _ => .error .assertionError

/-- The id as `encode` takes it. -/
def idValue : Option Int → Value
  | none => .none
  | some id => .int id

variable (host : Host σ Model Obj)

/-- What `set`, `get` and `delete` start with: the client that a key names. -/
def withClient (key : String) (body : Model → KeyId → HandlerM σ Unit) : HandlerM σ Unit := do
  let (name, url, id) ← attempt (parseKey key)
  let model ← onDb (host.clientGet name url)
  body model id

/-- The second `try` of `set`: `obj.save()`, and `assert obj.id`. -/
def saveStep (obj : Option Obj) : HandlerM σ Unit := do
  let obj ← bound "obj" obj
  onDb (host.save obj)
  let handling ← getThe (Handling σ)
  attempt (Fallible.ensure (host.objId obj handling.db ≠ none ∧
    host.objId obj handling.db ≠ some 0) .assertionError)

/-- `set`. -/
def set (key val : String) : HandlerM σ Unit :=
  withClient host key fun model _ => do
    let obj ← tryExcept (onDb (host.new model val)) (fun _ =>
      respond (.error ("cannot set, key:'" ++ key ++ "' not supported")))
    let _ ← tryExcept (saveStep host obj) (fun _ =>
      respond (.error ("cannot set, key:'" ++ key ++ "' could not save obj")))
    let obj ← bound "obj" obj
    let handling ← getThe (Handling σ)
    respond (.encode (idValue (host.objId obj handling.db)))

/-- The second `try` of `get`. -/
def showStep (obj : Option Obj) : HandlerM σ Unit := do
  let obj ← bound "obj" obj
  let json ← onDb (host.json obj)
  respond (.encode (.str json))

/-- `get`. -/
def get (key : String) : HandlerM σ Unit :=
  withClient host key fun model id => do
    let obj ← tryExcept (onDb (host.get model id)) (fun problem =>
      respond (.error ("cannot get, key:'" ++ key ++ "' not found," ++ host.excText problem)))
    let _ ← tryExcept (showStep host obj) (fun _ =>
      respond (.error ("cannot get, key:'" ++ key ++ "' could not decode json")))
    return ()

/-- The `try` of `delete`. -/
def deleteStep (model : Model) : KeyId → HandlerM σ Unit
  | .all => do
      let count ← onDb (host.count model)
      onDb (host.destroy model)
      respond (.encode (.int count))
  | .num id => do
      onDb (host.delete model id)
      respond (.encode (.int 1))

/-- `delete`. -/
def delete (key : String) : HandlerM σ Unit :=
  withClient host key fun model id => do
    let _ ← tryExcept (deleteStep host model id) (fun _ =>
      respond (.error ("cannot delete, key:'" ++ key ++ "'")))
    return ()

/-- `hlen`. -/
def hlen (key : String) : HandlerM σ Unit := do
  match split ':' key with
  | [name, _, url] => do
      let model ← onDb (host.modelGet name url)
      let count ← onDb (host.count model)
      respond (.encode (.int count))
  | _ => throw (.valueError "wrong number of values to unpack")

/-- What `scan` lists for a database. -/
def scanNames (instance' : String × List String) : List String :=
  match instance'.2 with
  | [] => [instance'.1 ++ ":schemas", instance'.1 ++ ":data"]
  | urls => urls.flatMap (fun url =>
      [instance'.1 ++ ":schemas:" ++ url, instance'.1 ++ ":data:" ++ url])

/-- `scan`. -/
def scan : HandlerM σ Unit := do
  let instances ← onDb host.instances
  respond (.page ((instances.flatMap scanNames).map .str))

/-- `_split`: the category and the url, with the name of the database. -/
def splitKey (key : String) : Except Exn (String × String × String) := do
  Fallible.ensure (strip key ≠ "") (.base "key cannot be empty")
  let splitted := split ':' key
  let bcdbName := splitted.headD ""
  if "schemas" ∈ splitted.take 2 then
    match splitted.drop (splitted.idxOf "schemas" + 1) with
    | url :: _ => return (bcdbName, "schemas", url)
    | [] => throw (.keyError "list index out of range")
  else
    match splitted with
    | [_, cat, url] => return (bcdbName, cat, url)
    | [_, cat, _, url] => return (bcdbName, cat, url)
    | [_, cat, _, url, _] => return (bcdbName, cat, url)
    | _ => return (bcdbName, "", "")

/-- The ids and the texts of the objects of a model: the loop of `hscan`. -/
def foundItems (model : Model) : EStateM Exn σ (List Value) := do
  let objs ← host.find model
  let res ← objs.mapM (fun obj => do
    let db ← getThe σ
    let json ← host.json obj
    return [idValue (host.objId obj db), .str json])
  return res.flatten

/-- `hscan`.  Without a url there is no model to read from. -/
def hscan (key : String) : HandlerM σ Unit := do
  let (name, cat, url) ← attempt (splitKey key)
  if url = "" then throw (.attributeError "find")
  else do
    let model ← onDb (host.modelGet name url)
    if cat = "schemas" then
      respond (.page [.str (host.key model), .str (host.schemaText model)])
    else do
      let res ← onDb (foundItems host model)
      respond (.page res)

/-- The keyword arguments of `request_to_dict`, by their names. -/
def requestNames : List String → List String
  | name :: _ :: rest => lower name :: requestNames rest
  | _ => []

/-- Whether the loop goes on behind a request. -/
inductive Flow where
  | stay
  | leave

/-- The methods that the names of the commands stand for.  A wrong number of
arguments raises; the methods that are no commands are left out. -/
def method (cmd : String) (args : List String) : HandlerM σ Flow :=
  let wrong : HandlerM σ Flow := throw (.typeError "wrong number of arguments")
  let stay (handler : HandlerM σ Unit) : HandlerM σ Flow := do
    handler
    return .stay
  if cmd = "set" then
    match args with
    | [key, val] => stay (set host key val)
    | _ => wrong
  else if cmd = "get" then
    match args with
    | [key] => stay (get host key)
    | _ => wrong
  else if cmd = "del" ∨ cmd = "delete" then
    match args with
    | [key] => stay (delete host key)
    | _ => wrong
  else if cmd = "hset" ∨ cmd = "hsetnew" then
    match args with
    | [key, id, val] => stay (set host (key ++ "/" ++ id) val)
    | _ => wrong
  else if cmd = "hget" then
    match args with
    | [key, id] => stay (get host (key ++ "/" ++ id))
    | _ => wrong
  else if cmd = "hdel" then
    match args with
    | [key, id] => stay (delete host (key ++ "/" ++ id))
    | _ => wrong
  else if cmd = "hlen" then
    match args with
    | [key] => stay (hlen host key)
    | _ => wrong
  else if cmd = "scan" then
    match args with
    | _ :: _ => stay (scan host)
    | [] => wrong
  else if cmd = "ttl" then
    match args with
    | [_] => stay (respond (.encode (.str "-1")))
    | _ => wrong
  else if cmd = "type" then
    match args with
    | [_] => stay (respond (.encode (.str "hash")))
    | _ => wrong
  else do
    respond (.error ("COULD NOT FIND COMMAND:" ++ cmd))
    return .leave

/-- One request: the body of the loop of `_handle_redis`. -/
def handleRequest : List String → HandlerM σ Flow
  | [] => return .stay
  | cmd :: args =>
      let cmd := lower cmd
      if cmd = "command" then do
        respond (.encode (.str "OK"))
        return .stay
      else if cmd = "ping" then do
        respond (.encode (.str "PONG"))
        return .stay
      else if cmd = "info" then do
        respond (.encode (.str host.infoText))
        return .stay
      else if cmd = "select" then
        match args with
        | index :: _ => do
            respond (if index = "0" then .encode (.str "OK")
              else .error "DB index is out of range")
            return .stay
        | [] => throw (.keyError "list index out of range")
      else if cmd = "hscan" then
        match args with
        | key :: cursor :: options => do
            let _ ← attempt (int cursor)
            if requestNames options ⊆ ["count"] then do
              hscan host key
              return .stay
            else throw (.typeError "unexpected keyword argument")
        | _ => throw (.keyError "list index out of range")
      else method host cmd args

end

/-- A connection: the database, the writer, and whether the loop still reads. -/
structure Connection (σ : Type) where
  db : σ
  response : RedisResponseWriter
  reading : Bool

/-- The calls that are made for a request, and whether the loop reads on. -/
def handled {σ Model Obj : Type} (host : Host σ Model Obj) (db : σ) (request : List String) :
    Handling σ × Bool :=
  match handleRequest host request { db := db, answers := [] } with
  | .ok .stay handling => (handling, true)
  | .ok .leave handling => (handling, false)
  | .error _ handling => (handling, false)

/-- A request on a connection.  What is raised ends the loop. -/
def step {σ Model Obj : Type} (host : Host σ Model Obj) (conn : Connection σ)
    (request : List String) : Connection σ :=
  if conn.reading then
    let (handling, reading) := handled host conn.db request
    { db := handling.db
      response := handling.answers.foldl Answer.write conn.response
      reading := reading }
  else conn

end RedisServer

end JumpscaleX
