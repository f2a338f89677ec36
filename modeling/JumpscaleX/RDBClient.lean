import JumpscaleX.DBSQLite

/-!
# The redis client

`RDBClient` keeps the values in a redis hash, each behind the four bytes of the
time it was written at, and takes new ids from a counter of its own.
-/

namespace JumpscaleX

open Fallible Stateful
open TextBytes (Bytes)

/-- A redis client with the hash of its values and the counter of its ids,
which is missing until the first id was taken. -/
structure RDBClient where
  hset : OrderedMap Nat Bytes
  incrkey : Option Nat
  stamped : ∀ key data, hset.lookup key = some data → 4 ≤ data.length
  counted : incrkey ≠ some 0

namespace RDBClient

def empty : RDBClient where
  hset := .empty
  incrkey := none
  stamped := fun _ _ found => by cases found
  counted := fun found => by cases found

/-- `epoch.to_bytes(4, "little", signed=False)`. -/
def epochBytes (epoch : UInt32) : Bytes :=
  [epoch.toUInt8, (epoch >>> 8).toUInt8, (epoch >>> 16).toUInt8,
    (epoch >>> 24).toUInt8]

def valueEncode (epoch : UInt32) (val : Bytes) : Bytes :=
  epochBytes epoch ++ val

def valueDecode (val : Bytes) : Bytes :=
  val.drop 4

@[simp] theorem valueDecode_valueEncode (epoch : UInt32) (val : Bytes) :
    valueDecode (valueEncode epoch val) = val := rfl

/-- The reply of `HGET`, with nothing where redis has no value. -/
def get (client : RDBClient) (key : Nat) : Option Bytes :=
  match client.hset.lookup key with
  | none => none
  | some data => if data.isEmpty then none else some (valueDecode data)

/-- `if not key`: no key is zero. -/
def keyProvided (key : Nat) : Except Exn Unit :=
  ensure (key ≠ 0) (.valueError "key must be provided, and must be an int")

def existsKey (client : RDBClient) (key : Nat) : Except Exn Bool := do
  keyProvided key
  return (client.hset.lookup key).isSome

def count (client : RDBClient) : Nat :=
  client.hset.entries.length

/-- `HSET` of an encoded value. -/
def hashSet (client : RDBClient) (key : Nat) (epoch : UInt32) (val : Bytes) :
    RDBClient where
  hset := client.hset.insert key (valueEncode epoch val)
  incrkey := client.incrkey
  stamped := by
    intro other data found
    rw [OrderedMap.lookup_insert] at found
    split at found
    · cases found
      simp [valueEncode, epochBytes]
    · exact client.stamped other data found
  counted := client.counted

/-- `HDEL`. -/
def hashDelete (client : RDBClient) (key : Nat) : RDBClient where
  hset := client.hset.erase key
  incrkey := client.incrkey
  stamped := by
    intro other data found
    rw [OrderedMap.lookup_erase] at found
    split at found
    · cases found
    · exact client.stamped other data found
  counted := client.counted

/-- The id that the next new value gets. -/
def nextId (client : RDBClient) : Nat :=
  client.incrkey.getD 0

/-- `INCR`, which counts a missing key as zero. -/
def countUp (client : RDBClient) : RDBClient where
  hset := client.hset
  incrkey := some (client.nextId + 1)
  stamped := client.stamped
  counted := by simp

/-- `_incr`. -/
def incr : EStateM Exn RDBClient Nat := do
  modify countUp
  let client ← getThe RDBClient
  return client.nextId - 1

/-- `set`.  An empty value that is already there is not recognised. -/
def set (epoch : UInt32) (data : Bytes) (key : Option Nat) :
    EStateM Exn RDBClient (Option Nat) := do
  match key with
  | none => do
      let key ← incr
      modify (fun client => client.hashSet key epoch data)
      return some key
  | some key => do
      let client ← getThe RDBClient
      let dataexisting := client.get key
      if dataexisting.getD [] ≠ [] ∧ dataexisting = some data then
        return none
      else do
        modify (fun client => client.hashSet key epoch data)
        return some key

/-- `delete`, which takes the key zero. -/
def delete (key : Nat) : EStateM Exn RDBClient Unit :=
  modify (fun client => client.hashDelete key)

/-- `flush`. -/
def flush : EStateM Exn RDBClient Unit :=
  modify (fun _ => empty)

/-- What a walk yields for a key: `if data:` passes over empty values. -/
def iterateKey (client : RDBClient) (key : Nat) : Option (Nat × Bytes) :=
  match client.get key with
  | none => none
  | some data => if data.isEmpty then none else some (key, data)

/-- The key at which a walk stops, behind the one that the counter has come
to. -/
def stopKey (client : RDBClient) : Nat :=
  match client.incrkey with
  | none => 0
  | some counter => counter + 1

/-- `iterate`: over `range(key_start, stop)`. -/
def iterate (client : RDBClient) (keyStart : Option Nat) : List (Nat × Bytes) :=
  (List.range' (keyStart.getD 0) (client.stopKey - keyStart.getD 0)).filterMap
    client.iterateKey

def list (client : RDBClient) (keyStart : Option Nat) : List Nat :=
  (client.iterate keyStart).map Prod.fst

/-- The values by their keys. -/
def contents (client : RDBClient) : OrderedMap Nat Bytes :=
  client.hset.mapValues valueDecode

theorem lookup_contents (client : RDBClient) (key : Nat) :
    client.contents.lookup key = (client.hset.lookup key).map valueDecode :=
  OrderedMap.lookup_mapValues ..

/-! ## What the operations do -/

theorem get_eq (client : RDBClient) (key : Nat) :
    client.get key = client.contents.lookup key := by
  rw [lookup_contents, get]
  cases found : client.hset.lookup key with
  | none => rfl
  | some data =>
      have long := client.stamped key data found
      have notEmpty : data.isEmpty = false := by
        cases data with
        | nil => simp at long
        | cons => rfl
      simp [notEmpty]

theorem contents_hashSet (client : RDBClient) (key : Nat) (epoch : UInt32)
    (data : Bytes) :
    (client.hashSet key epoch data).contents = client.contents.insert key data := by
  ext1 other
  rw [lookup_contents, OrderedMap.lookup_insert, lookup_contents]
  simp only [hashSet, OrderedMap.lookup_insert]
  split <;> simp

theorem count_eq (client : RDBClient) :
    client.count = client.contents.entries.length := by
  simp [count, contents, OrderedMap.mapValues]

section

variable {client : RDBClient} {key : Nat}

theorem existsKey_of_ne_zero (provided : key ≠ 0) :
    client.existsKey key = .ok (client.contents.lookup key).isSome := by
  rw [existsKey, keyProvided, ensure_of provided, lookup_contents, Option.isSome_map]
  rfl

theorem existsKey_zero :
    client.existsKey 0 =
      .error (.valueError "key must be provided, and must be an int") := rfl

theorem set_none (epoch : UInt32) (data : Bytes) :
    set epoch data none client =
      .ok (some client.nextId) (client.countUp.hashSet client.nextId epoch data) := rfl

theorem set_same {epoch : UInt32} {data : Bytes} (notEmpty : data ≠ [])
    (stored : client.contents.lookup key = some data) :
    set epoch data (some key) client = .ok none client := by
  simp only [set, get_seq, get_eq]
  rw [if_pos ⟨by rw [stored]; exact notEmpty, stored⟩]
  rfl

theorem set_changed {epoch : UInt32} {data : Bytes}
    (changed : data = [] ∨ client.contents.lookup key ≠ some data) :
    set epoch data (some key) client =
      .ok (some key) (client.hashSet key epoch data) := by
  simp only [set, get_seq, get_eq]
  rw [if_neg]
  · rfl
  · intro both
    obtain ⟨notEmpty, same⟩ := both
    rcases changed with none | different
    · rw [same] at notEmpty
      exact notEmpty none
    · exact different same

end

end RDBClient

end JumpscaleX
