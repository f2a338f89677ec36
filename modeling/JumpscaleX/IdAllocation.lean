import JumpscaleX.Iteration
import JumpscaleX.Frames

/-!
# The allocation of ids

`set` without a key takes the id behind the greatest key in sqlite, and the
count of the ids handed out in redis.  The one is always free; the other is not
when a record was put there under a given id.
-/

namespace JumpscaleX

open Fallible Stateful
open TextBytes (Bytes)

/-! ## Both clients -/

/-- `set(data)` stores the value under a free id and nothing else changes. -/
def DBSQLite.AllocatesFree (db : DBSQLite) (data : Bytes) : Prop :=
  ∃ id db', DBSQLite.set data none db = .ok (some id) db' ∧
    db.contents.lookup id = none ∧ db'.contents = db.contents.insert id data

def RDBClient.AllocatesFree (client : RDBClient) (epoch : UInt32) (data : Bytes) :
    Prop :=
  ∃ id client', RDBClient.set epoch data none client = .ok (some id) client' ∧
    client.contents.lookup id = none ∧
    client'.contents = client.contents.insert id data

/-- No call closes a sqlite client. -/
theorem DBSQLite.perform_opened (call : StorCall) :
    Keeps (fun db : DBSQLite => db.readonly = false) (DBSQLite.perform call) := by
  cases call with
  | set data key =>
      refine .bind (.bind .get (fun db => ?_)) (fun _ => .pure _)
      cases key with
      | none =>
          exact .bind (.attempt _) (fun _ =>
            .bind (.modify (fun _ opened => opened)) (fun _ => .pure _))
      | some key =>
          refine .bind (.attempt _) (fun _ => .bind (.attempt _) (fun _ => ?_))
          split
          · exact .pure _
          · exact .bind (.attempt _) (fun _ =>
              .bind (.modify (fun _ opened => opened)) (fun _ => .pure _))
  | get key => exact .bind .get (fun _ => .bind (.attempt _) (fun _ => .pure _))
  | existsKey key => exact .bind .get (fun _ => .bind (.attempt _) (fun _ => .pure _))
  | delete key =>
      exact .bind (.bind .get (fun _ => .bind (.attempt _) (fun _ =>
        .bind (.attempt _) (fun _ => .bind (.modify (fun _ opened => opened))
          (fun _ => .pure _))))) (fun _ => .pure _)
  | count => exact .bind .get (fun _ => .pure _)
  | flush =>
      exact .bind (.bind .get (fun _ => .bind (.attempt _) (fun _ =>
        .modify (fun _ opened => opened)))) (fun _ => .pure _)

theorem DBSQLite.allocatesFree {db : DBSQLite} (opened : db.readonly = false)
    (data : Bytes) : db.AllocatesFree data := by
  have place : db.nextRow - 1 = nextKey db.contents := by
    rw [db.nextRow_eq, Nat.add_sub_cancel]
  refine ⟨_, _, DBSQLite.set_none opened data, ?_, ?_⟩
  · rw [place]
    exact lookup_nextKey db.contents
  · rw [DBSQLite.contents_writeRow db data _ db.nextRow_eq, place]

theorem RDBClient.allocatesFree_iff (client : RDBClient) (epoch : UInt32)
    (data : Bytes) :
    client.AllocatesFree epoch data ↔
      client.contents.lookup client.nextId = none := by
  constructor
  · intro allocates
    obtain ⟨id, client', done, free, _⟩ := allocates
    rw [RDBClient.set_none] at done
    cases done
    exact free
  · intro free
    refine ⟨_, _, RDBClient.set_none epoch data, free, ?_⟩
    rw [RDBClient.contents_hashSet]
    rfl

/-! ## A new object -/

namespace StorClient

/-- The ids from the next one on that a new value takes. -/
def taken (client : StorClient) : Nat :=
  if client.nextId = 0 then 2 else 1

/-- A new value takes ids from the next one on. -/
theorem Stores.taken {id : Nat} {data : Stored} {client reached : StorClient}
    (stores : Stores none id data client reached) :
    reached.type = client.type ∧ reached.nextId = client.nextId + client.taken ∧
      ∀ key, key < client.nextId ∨ reached.nextId ≤ key →
        reached.get key = client.get key := by
  unfold StorClient.taken
  rcases stores with ⟨done, notFirst⟩ | ⟨between, first, second, _⟩
  · have next := nextId_append done
    obtain ⟨rfl, kvs, type, _⟩ := append_eq_ok done
    rw [if_neg notFirst]
    refine ⟨type, next, ?_⟩
    intro key outside
    have different : key ≠ client.nextId := by omega
    rw [StorClient.get, kvs]
    exact OrderedMap.lookup_insert_of_ne _ different data
  · have next := nextId_append first
    have next' := nextId_append second
    obtain ⟨zero, kvs, type, _⟩ := append_eq_ok first
    obtain ⟨_, kvs', type', _⟩ := append_eq_ok second
    rw [if_pos zero.symm]
    refine ⟨type'.trans type, by omega, ?_⟩
    intro key outside
    rw [StorClient.get, kvs', OrderedMap.lookup_insert_of_ne _ (by omega), kvs,
      OrderedMap.lookup_insert_of_ne _ (by omega)]
    rfl

end StorClient

/-- Every id that was handed out had no record, and all other records are as
they were. -/
def KeepsRecords (client reached : StorClient) : Prop :=
  (∀ id, client.nextId ≤ id → id < reached.nextId → client.get id = none) ∧
    ∀ id, id < client.nextId ∨ reached.nextId ≤ id →
      reached.get id = client.get id

/-- The ids that a `set` of a new object takes are free: two when the first one
is left to the mark of the store, and one more for an ACL that is saved on the
way. -/
def NewIdsFree (session : Session) : Prop :=
  session.bcdb.storclient.type = .RDB →
    ∀ k, (k = 0 ∨
        k = 1 ∧ (session.bcdb.storclient.incr = 0 ∨
          BCDBModel.AclUnsaved session.bcdb session.toJSXObjectRoot) ∨
        k = 2 ∧ session.bcdb.storclient.incr = 0 ∧
          BCDBModel.AclUnsaved session.bcdb session.toJSXObjectRoot) →
      session.bcdb.storclient.get (session.bcdb.storclient.incr + k) = none

/-- Records are kept by a store that handed out some of its next ids when these
are free. -/
theorem keepsRecords_iff {client reached : StorClient} {count : Nat}
    (next : reached.nextId = client.nextId + count)
    (outside : ∀ id, id < client.nextId ∨ reached.nextId ≤ id →
      reached.get id = client.get id) :
    KeepsRecords client reached ↔
      ∀ k < count, client.get (client.nextId + k) = none := by
  constructor
  · intro keeps k below
    exact keeps.1 _ (Nat.le_add_right _ _) (by omega)
  · intro free
    refine ⟨?_, outside⟩
    intro id above below
    have offset := free (id - client.nextId) (by omega)
    rwa [Nat.add_sub_cancel' above] at offset

/-- Sqlite has nothing behind its next id. -/
theorem StorClient.get_of_nextId_le {client : StorClient} (kind : client.type = .SDB)
    {id : Nat} (above : client.nextId ≤ id) : client.get id = none := by
  cases found : client.get id with
  | none => rfl
  | some data => exact (Nat.not_lt.mpr above (lt_nextId kind found)).elim

theorem StorClient.nextId_RDB {client : StorClient} (kind : client.type = .RDB) :
    client.nextId = client.incr := by
  unfold nextId
  simp only [kind]

namespace BCDBModel

theorem setIndex_storclient {url : Url} {store : Bool} {session reached : Session}
    {value : PUnit} (done : setIndex url store session = .ok value reached) :
    reached.bcdb.storclient = session.bcdb.storclient := by
  have closed : BCDB.ClosedRead
      (fun bcdb => bcdb.storclient = session.bcdb.storclient) := by
    refine ⟨⟨?_, ?_⟩, ?_⟩
    · intro bcdb reached url made same
      obtain ⟨schema, _, rfl⟩ := BCDB.modelAdd_eq_ok_iff.mp made
      exact same
    · intro bcdb schema same
      rw [(BCDB.schemaChange_sameStore bcdb schema).storclient, same]
    · intro bcdb reached model change written same
      obtain ⟨_, _, _, _, rfl⟩ := BCDB.writeTable_eq_ok written
      exact same
  exact (setIndex_keeps closed url store).of_ok done rfl

/-- What a `set` of a new object does to the store. -/
theorem set_new_eq_ok {url : Url} {index : Bool} {session reached : Session}
    {value : PUnit} (isNew : session.obj.id = none)
    (done : set url index true session = .ok value reached) :
    ∃ between id record, StorClient.Stores none id record between
        reached.bcdb.storclient ∧
      (¬ AclUnsaved session.bcdb session.toJSXObjectRoot ∧
          between = session.bcdb.storclient ∨
        AclUnsaved session.bcdb session.toJSXObjectRoot ∧ ∃ aclId acl,
          StorClient.Stores none aclId acl session.bcdb.storclient between) := by
  simp only [set, setWith, setStore, get_seq, seq_eq_ok_iff, attempt_eq_ok_iff,
    ensure_eq_ok_iff, runIf_eq_ok_iff, Session.setObj, modify_seq] at done
  obtain ⟨_, _, ⟨_, rfl⟩, _, written, stored, indexed⟩ := done
  rcases stored with ⟨_, _, between, attached, stored⟩ | ⟨impossible, _⟩
  · have last : reached.bcdb.storclient = written.bcdb.storclient := by
      rcases indexed with ⟨_, indexed⟩ | ⟨_, rfl⟩
      · exact setIndex_storclient indexed
      · rfl
    obtain ⟨aclId, sameObj, effect⟩ := attachAcl_eq_ok attached
    obtain ⟨message, id, client, _, stores, rfl⟩ := (setRecord_eq_ok stored).effect
    have unnamed : between.obj.id = none := by
      rw [sameObj]
      exact isNew
    have same : reached.bcdb.storclient = client := last
    rw [unnamed, ← same] at stores
    refine ⟨between.bcdb.storclient, id, _, stores, ?_⟩
    rcases effect with ⟨settled, same, _⟩ |
      ⟨acl, _, aclId, message, isAcl, pending, _, _, puts⟩
    · exact .inl ⟨settled, by rw [same]⟩
    · obtain ⟨_, _, aclStores⟩ := puts.stores
      exact .inr ⟨⟨acl, isAcl, pending⟩, aclId, _, aclStores⟩
  · exact (impossible trivial).elim

/-- A `set` of a new object replaces no record exactly when the ids that it takes
are free. -/
theorem set_new_keepsRecords_iff {url : Url} {index : Bool} {session reached : Session}
    {value : PUnit} (isNew : session.obj.id = none)
    (done : set url index true session = .ok value reached) :
    KeepsRecords session.bcdb.storclient reached.bcdb.storclient ↔
      NewIdsFree session := by
  obtain ⟨between, id, record, stores, before⟩ := set_new_eq_ok isNew done
  obtain ⟨_, next, outside⟩ := stores.taken
  have effect : ∃ count, reached.bcdb.storclient.nextId =
        session.bcdb.storclient.nextId + count ∧
      (∀ id, id < session.bcdb.storclient.nextId ∨
          reached.bcdb.storclient.nextId ≤ id →
        reached.bcdb.storclient.get id = session.bcdb.storclient.get id) ∧
      ∀ k, k < count ↔ k = 0 ∨
        k = 1 ∧ (session.bcdb.storclient.nextId = 0 ∨
          AclUnsaved session.bcdb session.toJSXObjectRoot) ∨
        k = 2 ∧ session.bcdb.storclient.nextId = 0 ∧
          AclUnsaved session.bcdb session.toJSXObjectRoot := by
    rcases before with ⟨settled, rfl⟩ | ⟨pending, aclId, acl, aclStores⟩
    · refine ⟨_, next, outside, ?_⟩
      intro k
      simp only [settled, or_false, and_false, StorClient.taken]
      split <;> omega
    · obtain ⟨_, aclNext, aclOutside⟩ := aclStores.taken
      refine ⟨session.bcdb.storclient.taken + between.taken, by omega, ?_, ?_⟩
      · intro id far
        rw [outside id (by omega), aclOutside id (by omega)]
      · intro k
        have started : between.nextId ≠ 0 := by
          have positive : 0 < session.bcdb.storclient.taken := by
            unfold StorClient.taken
            split <;> omega
          omega
        simp only [pending, or_true, and_true, StorClient.taken, started, if_false]
        split <;> omega
  obtain ⟨count, next, outside, below⟩ := effect
  rw [keepsRecords_iff next outside]
  unfold NewIdsFree
  cases kind : session.bcdb.storclient.type with
  | SDB =>
      simp only [reduceCtorEq, false_implies, iff_true]
      intro k _
      exact StorClient.get_of_nextId_le kind (Nat.le_add_right _ _)
  | RDB =>
      rw [← StorClient.nextId_RDB kind]
      simp only [below, true_implies]

end BCDBModel

/-! ## Allocating never overwrites -/

/-- The sqlite client behind a script of calls. -/
def sqliteAfter (script : Script) : DBSQLite :=
  finals (fun call => DBSQLite.perform call.2) script .empty

/-- The redis client behind a script of calls. -/
def redisAfter (script : Script) : RDBClient :=
  finals (fun call => RDBClient.perform call.1 call.2) script .empty

/-- A new value is put under a free id by both clients, whatever was called
before, and a new object is put under free ids by its model. -/
structure NeverOverwrites (script : Script) (epoch : UInt32) (data : Bytes)
    (session reached : Session) : Prop where
  sqlite : (sqliteAfter script).AllocatesFree data
  redis : (redisAfter script).AllocatesFree epoch data
  database : KeepsRecords session.bcdb.storclient reached.bcdb.storclient

/-- Nothing is overwritten exactly when no record stands at the counter of redis
and at the ids that the object takes in redis. -/
theorem neverOverwrites_iff (script : Script) (epoch : UInt32) (data : Bytes)
    {url : Url} {index : Bool} {session reached : Session}
    (isNew : session.obj.id = none)
    (done : BCDBModel.set url index true session = .ok PUnit.unit reached) :
    NeverOverwrites script epoch data session reached ↔
      (redisAfter script).contents.lookup (redisAfter script).nextId = none ∧
        NewIdsFree session := by
  have opened : (sqliteAfter script).readonly = false := by
    apply finals_keeps (fun db : DBSQLite => db.readonly = false)
    · intro call db held
      exact DBSQLite.perform_opened call.2 db held
    · rfl
  rw [← BCDBModel.set_new_keepsRecords_iff isNew done,
    ← RDBClient.allocatesFree_iff (redisAfter script) epoch data]
  constructor
  · intro never
    exact ⟨never.redis, never.database⟩
  · intro both
    exact ⟨DBSQLite.allocatesFree opened data, both.1, both.2⟩

/-- The first object of the first model is put into the free store. -/
def firstSet : Session := ⟨⟨(nameSchema "test.one" "1").named "a" none, .none⟩, twoModels⟩

def afterFirstSet : Session := final (BCDBModel.set "test.one" true true) firstSet

theorem neverOverwrites_firstSet :
    firstSet.obj.id = none ∧
      BCDBModel.set "test.one" true true firstSet = .ok PUnit.unit afterFirstSet ∧
      (NeverOverwrites [] 0 [] firstSet afterFirstSet ↔
        (redisAfter []).contents.lookup (redisAfter []).nextId = none ∧
          NewIdsFree firstSet) := by
  have done : BCDBModel.set "test.one" true true firstSet =
      .ok PUnit.unit afterFirstSet := rfl
  exact ⟨rfl, done, neverOverwrites_iff [] 0 [] rfl done⟩

/-- The counter of redis comes to the id one, which was given to a value. -/
theorem redis_overwrites_given_id :
    ¬ NeverOverwrites [(0, .set [73, 78, 73, 84] none), (0, .set [97] (some 1))] 0 [98]
      firstSet afterFirstSet := by
  intro never
  have free := (RDBClient.allocatesFree_iff _ _ _).mp never.redis
  revert free
  decide

end JumpscaleX
