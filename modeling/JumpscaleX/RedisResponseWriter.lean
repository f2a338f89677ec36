import JumpscaleX.Library.Resp

/-!
# The reply writer of the redis servers

`RedisResponseWriter` of `protocol.py`: replies are put together in a buffer,
and the buffer goes to the socket behind every value.
-/

namespace JumpscaleX

open TextBytes

namespace Gedis

/-- What is given to `encode`.  Anything else than the kinds it tells apart is
written as what its `__repr__` answers. -/
inductive Value where
  | none
  | int (value : Int)
  | bool (value : Bool)
  | str (text : String)
  | bytes (bytes : Bytes)
  | list (items : List Value)
  | other (repr : String)

/-- The bytes that the socket has taken, and those in the buffer. -/
structure RedisResponseWriter where
  socket : Bytes
  buffer : Bytes

namespace RedisResponseWriter

/-- `_write_buffer` with a text. -/
def writeBuffer (writer : RedisResponseWriter) (data : String) : RedisResponseWriter :=
  { writer with buffer := writer.buffer ++ utf8 data }

/-- `_write_buffer` with bytes. -/
def writeBytes (writer : RedisResponseWriter) (data : Bytes) : RedisResponseWriter :=
  { writer with buffer := writer.buffer ++ data }

/-- `_send`. -/
def send (writer : RedisResponseWriter) : RedisResponseWriter where
  socket := writer.socket ++ writer.buffer
  buffer := []

/-- `_bulk`, with the number of characters for the length. -/
def bulk (writer : RedisResponseWriter) (value : String) : RedisResponseWriter :=
  writer.writeBuffer ("$" ++ toString value.length ++ "\r\n" ++ value ++ "\r\n")

/-- `_bulkbytes`. -/
def bulkbytes (writer : RedisResponseWriter) (value : Bytes) : RedisResponseWriter :=
  writer.writeBytes (utf8 "$" ++ utf8 (toString value.length) ++ utf8 "\r\n" ++ value ++
    utf8 "\r\n")

/-- The header that `_array` writes. -/
def arrayHeader (writer : RedisResponseWriter) (length : Nat) : RedisResponseWriter :=
  writer.writeBuffer ("*" ++ toString length ++ "\r\n")

mutual

/-- `encode`. -/
def encode (writer : RedisResponseWriter) : Value → RedisResponseWriter
  | .none => (writer.writeBuffer "$-1\r\n").send
  | .int value => (writer.writeBuffer (":" ++ toString value ++ "\r\n")).send
  | .bool value => (writer.writeBuffer (":" ++ toString (if value then 1 else 0) ++ "\r\n")).send
  | .str value =>
      if '\n' ∈ value.toList then (writer.bulk value).send
      else (writer.writeBuffer ("+" ++ value ++ "\r\n")).send
  | .bytes value => (writer.bulkbytes value).send
  | .list items =>
      match items with
      | .str first :: rest =>
          if first = "*REDIS*" then
            (encodeItems (writer.arrayHeader rest.length) rest).send
          else
            (encodeItems (writer.arrayHeader (rest.length + 1)) (.str first :: rest)).send
      | items => (encodeItems (writer.arrayHeader items.length) items).send
  | .other repr => (writer.bulk repr).send

/-- The loop of `_array`. -/
def encodeItems (writer : RedisResponseWriter) : List Value → RedisResponseWriter
  | [] => writer
  | item :: items => encodeItems (encode writer item) items

end

/-- `status`. -/
def status (writer : RedisResponseWriter) (msg : String) : RedisResponseWriter :=
  (writer.writeBuffer ("+" ++ msg ++ "\r\n")).send

/-- `error`. -/
def error (writer : RedisResponseWriter) (msg : String) : RedisResponseWriter :=
  (writer.writeBuffer ("-ERR " ++ msg ++ "\r\n")).send

end RedisResponseWriter

end Gedis

end JumpscaleX
