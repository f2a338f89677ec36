import JumpscaleX.Library.Stateful
import JumpscaleX.JSXObject

/-!
# The store clients

`DBSQLite` (type `SDB`) and `RDBClient` (type `RDB`) as maps from ids to
values.  They differ in how a new id is found, in what a walk over the store
reaches and in which values they take.
-/

namespace JumpscaleX

open Fallible

inductive StorType where
  | SDB
  | RDB
  deriving DecidableEq

/-- A value in the store: the first entry of every database, the padding that
an import writes, or the record of an object. -/
inductive Stored where
  | init
  | padding
  | record (record : Record)
  deriving DecidableEq

/-- `if data:` on a stored value. -/
def Stored.truthy : Stored → Bool
  | .padding => false
  | _ => true

/-- A store client.  `readonly` is the `mode=ro` of the sqlite file and `incr`
the redis counter from which new ids are taken. -/
structure StorClient where
  type : StorType
  readonly : Bool
  kvs : OrderedMap Nat Stored
  incr : Nat
  deriving DecidableEq

namespace StorClient

def get (client : StorClient) (key : Nat) : Option Stored :=
  client.kvs.lookup key

/-- The id that the next new value gets: the key behind the greatest one in
sqlite, the counter in redis. -/
def nextId (client : StorClient) : Nat :=
  match client.type with
  | .SDB =>
      match client.kvs.maxKey? with
      | some greatest => greatest + 1
      | none => 0
  | .RDB => client.incr

/-- A read-only sqlite file refuses every write. -/
def writable (client : StorClient) : Except Exn Unit :=
  ensure (client.type = .SDB → client.readonly = false)
    (.operationalError "attempt to write a readonly database")

/-- The redis client takes bytes only, and the padding is not bytes. -/
def encodable (client : StorClient) (data : Stored) : Except Exn Unit :=
  ensure (client.type = .RDB → data ≠ .padding) .assertionError

/-- `set(data)`: a new value under the next id. -/
def append (client : StorClient) (data : Stored) :
    Except Exn (Nat × StorClient) := do
  client.encodable data
  client.writable
  return (client.nextId, { client with
    kvs := client.kvs.insert client.nextId data
    incr := match client.type with
      | .SDB => client.incr
      | .RDB => client.incr + 1 })

/-- `set(data, key)`: nothing is written when the value is already there. -/
def set (client : StorClient) (key : Nat) (data : Stored) :
    Except Exn StorClient := do
  client.encodable data
  if client.get key = some data then
    return client
  else
    client.writable
    return { client with kvs := client.kvs.insert key data }

def delete (client : StorClient) (key : Nat) : Except Exn StorClient := do
  client.writable
  return { client with kvs := client.kvs.erase key }

/-- The entries that a walk over the store yields: all of them in sqlite, and
in redis those whose id the counter has reached. -/
def iterate (client : StorClient) : List (Nat × Stored) :=
  match client.type with
  | .SDB => client.kvs.entries
  | .RDB =>
      client.kvs.entries.filter (fun entry =>
        decide (client.incr ≠ 0 ∧ entry.1 ≤ client.incr) && entry.2.truthy)

/-- The ids that a walk over the store reaches. -/
def Reaches (client : StorClient) (key : Nat) : Prop :=
  client.type = .RDB → client.incr ≠ 0 ∧ key ≤ client.incr

/-! ## What the operations do -/

theorem append_eq_ok {client reached : StorClient} {data : Stored} {key : Nat}
    (done : client.append data = .ok (key, reached)) :
    key = client.nextId ∧
      reached.kvs = client.kvs.insert client.nextId data ∧
      reached.type = client.type ∧ reached.readonly = client.readonly := by
  simp only [append, bind_eq_ok_iff, pure_eq_ok_iff] at done
  obtain ⟨_, _, _, _, same⟩ := done
  cases same
  exact ⟨rfl, rfl, rfl, rfl⟩

theorem set_eq_ok {client reached : StorClient} {data : Stored} {key : Nat}
    (done : client.set key data = .ok reached) :
    reached = { client with kvs := client.kvs.insert key data } := by
  simp only [set, bind_eq_ok_iff] at done
  obtain ⟨_, _, done⟩ := done
  split at done
  · rename_i present
    simp only [pure_eq_ok_iff] at done
    rw [← done, OrderedMap.insert_eq_self present]
  · simp only [bind_eq_ok_iff, pure_eq_ok_iff] at done
    obtain ⟨_, _, same⟩ := done
    exact same.symm

theorem delete_eq_ok {client reached : StorClient} {key : Nat}
    (done : client.delete key = .ok reached) :
    reached = { client with kvs := client.kvs.erase key } := by
  simp only [delete, bind_eq_ok_iff, pure_eq_ok_iff] at done
  obtain ⟨_, _, same⟩ := done
  exact same.symm

/-- A walk yields the entries that it reaches, except padding in redis. -/
theorem mem_iterate_iff {client : StorClient} {key : Nat} {data : Stored} :
    (key, data) ∈ client.iterate ↔
      client.get key = some data ∧ client.Reaches key ∧
        (client.type = .RDB → data.truthy = true) := by
  unfold iterate Reaches get
  cases kind : client.type with
  | SDB => simp [OrderedMap.lookup_eq_some_iff]
  | RDB => simp [OrderedMap.lookup_eq_some_iff]

/-- A walk yields the entries in the order of their keys. -/
theorem iterate_sorted (client : StorClient) :
    client.iterate.Pairwise (fun left right => left.1 < right.1) := by
  unfold iterate
  split
  · exact client.kvs.sorted
  · exact client.kvs.sorted.filter _

/-- A value came to stand under an id: the given one, or a new one where the
first entry of the store is passed over. -/
def Stores (given : Option Nat) (id : Nat) (data : Stored)
    (client reached : StorClient) : Prop :=
  match given with
  | some key => key = id ∧ client.set key data = .ok reached
  | none => client.append data = .ok (id, reached) ∧ id ≠ 0 ∨
      ∃ between, client.append data = .ok (0, between) ∧
        between.append data = .ok (id, reached) ∧ id ≠ 0

/-- The store after a value was put, when the next id is not the first one. -/
theorem Stores.kvs {given : Option Nat} {id : Nat} {data : Stored}
    {client reached : StorClient} (stores : Stores given id data client reached)
    (started : given = none → client.nextId ≠ 0) :
    reached.kvs = client.kvs.insert id data ∧ reached.type = client.type ∧
      (given = none → id = client.nextId) := by
  cases given with
  | some key =>
      obtain ⟨rfl, done⟩ := stores
      rw [set_eq_ok done]
      exact ⟨rfl, rfl, fun absent => by cases absent⟩
  | none =>
      rcases stores with ⟨done, _⟩ | ⟨between, first, _⟩
      · obtain ⟨rfl, kvs, type, _⟩ := append_eq_ok done
        exact ⟨kvs, type, fun _ => rfl⟩
      · obtain ⟨zero, _⟩ := append_eq_ok first
        exact (started rfl zero.symm).elim

/-- The ids of a sqlite store lie below the next one. -/
theorem lt_nextId {client : StorClient} (kind : client.type = .SDB) {key : Nat}
    {data : Stored} (found : client.get key = some data) :
    key < client.nextId := by
  unfold nextId
  simp only [kind]
  cases greatest : client.kvs.maxKey? with
  | none =>
      rw [StorClient.get, OrderedMap.lookup_eq_none_of_maxKey_eq_none _ greatest]
        at found
      cases found
  | some top => exact Nat.lt_succ_of_le (OrderedMap.le_maxKey greatest found)

/-- The ids are handed out one after the other. -/
theorem nextId_append {client reached : StorClient} {data : Stored} {key : Nat}
    (done : client.append data = .ok (key, reached)) :
    reached.nextId = client.nextId + 1 := by
  simp only [append, bind_eq_ok_iff, pure_eq_ok_iff] at done
  obtain ⟨_, _, _, _, same⟩ := done
  cases same
  cases kind : client.type with
  | RDB => simp [nextId, kind]
  | SDB =>
      have top := OrderedMap.maxKey_insert client.nextId data
        (fun other present found => lt_nextId kind found)
      rw [nextId]
      simp only [top]

/-- Writing under a given id lowers the next id in no store. -/
theorem nextId_le_set {client reached : StorClient} {data : Stored} {key : Nat}
    (done : client.set key data = .ok reached) : client.nextId ≤ reached.nextId := by
  rw [set_eq_ok done]
  cases kind : client.type with
  | RDB => simp [nextId, kind]
  | SDB =>
      unfold nextId
      simp only [kind]
      cases greatest : client.kvs.maxKey? with
      | none => exact Nat.zero_le _
      | some top =>
          obtain ⟨present, found⟩ := OrderedMap.lookup_of_maxKey greatest
          have still : ∃ value, (client.kvs.insert key data).lookup top = some value := by
            rw [OrderedMap.lookup_insert]
            split
            · exact ⟨data, rfl⟩
            · exact ⟨present, found⟩
          obtain ⟨value, still⟩ := still
          cases greatest' : (client.kvs.insert key data).maxKey? with
          | none =>
              rw [OrderedMap.lookup_eq_none_of_maxKey_eq_none _ greatest'] at still
              cases still
          | some top' => exact Nat.succ_le_succ (OrderedMap.le_maxKey greatest' still)

/-- A new value raises the next id. -/
theorem Stores.nextId_lt {id : Nat} {data : Stored} {client reached : StorClient}
    (stores : Stores none id data client reached) :
    client.nextId < reached.nextId := by
  rcases stores with ⟨done, _⟩ | ⟨between, first, second, _⟩
  · rw [nextId_append done]
    exact Nat.lt_succ_self _
  · rw [nextId_append second, nextId_append first]
    omega

theorem Stores.nextId_le {given : Option Nat} {id : Nat} {data : Stored}
    {client reached : StorClient}
    (stores : Stores given id data client reached) :
    client.nextId ≤ reached.nextId := by
  cases given with
  | none => exact Nat.le_of_lt stores.nextId_lt
  | some key => exact nextId_le_set stores.2

/-- The store is not empty, and the next ids are free. -/
def Room (client : StorClient) (count : Nat) : Prop :=
  client.nextId ≠ 0 ∧ ∀ k < count, client.get (client.nextId + k) = none

/-- A new value takes one of the free ids. -/
theorem Room.append {client reached : StorClient} {data : Stored} {key count : Nat}
    (room : client.Room (count + 1))
    (done : client.append data = .ok (key, reached)) : reached.Room count := by
  have next := nextId_append done
  obtain ⟨_, kvs, _⟩ := append_eq_ok done
  refine ⟨by omega, ?_⟩
  intro k below
  have free := room.2 (k + 1) (by omega)
  have different : client.nextId + 1 + k ≠ client.nextId := by omega
  rw [StorClient.get, next, kvs, OrderedMap.lookup_insert_of_ne _ different]
  rw [StorClient.get] at free
  rw [← free]
  congr 1
  omega

theorem Room.stores {client reached : StorClient} {data : Stored} {id count : Nat}
    (room : client.Room (count + 1))
    (stores : Stores none id data client reached) : reached.Room count := by
  rcases stores with ⟨done, _⟩ | ⟨between, first, _⟩
  · exact room.append done
  · exact (room.1 (append_eq_ok first).1.symm).elim

end StorClient

end JumpscaleX
