import JumpscaleX.RDBClient

/-!
# The store clients answer alike

The calls that a database makes on its store client, the answers of both
clients to them, and the finite map that both stand for.  A script of calls is
answered alike exactly as long as every call fits the map and the ids that were
handed out before it.
-/

namespace JumpscaleX

open Fallible Stateful
open TextBytes (Bytes)

/-- A call on a store client. -/
inductive StorCall where
  | set (data : Bytes) (key : Option Nat)
  | get (key : Nat)
  | existsKey (key : Nat)
  | delete (key : Nat)
  | count
  | flush
  deriving DecidableEq

/-- What a call answers with. -/
inductive StorAnswer where
  | none
  | int (value : Nat)
  | bytes (data : Bytes)
  | bool (value : Bool)
  deriving DecidableEq

namespace StorAnswer

def ofKey : Option Nat → StorAnswer
  | Option.none => .none
  | some key => .int key

def ofData : Option Bytes → StorAnswer
  | Option.none => .none
  | some data => .bytes data

end StorAnswer

def DBSQLite.perform : StorCall → EStateM Exn DBSQLite StorAnswer
  | .set data key => do
      let id ← DBSQLite.set data key
      return .ofKey id
  | .get key => do
      let db ← getThe DBSQLite
      let data ← attempt (db.get key)
      return .ofData data
  | .existsKey key => do
      let db ← getThe DBSQLite
      let present ← attempt (db.existsKey key)
      return .bool present
  | .delete key => do
      let rows ← DBSQLite.delete key
      return .int rows
  | .count => do
      let db ← getThe DBSQLite
      return .int db.count
  | .flush => do
      DBSQLite.flush
      return .none

/-- A call on a redis client, made at a time. -/
def RDBClient.perform (epoch : UInt32) : StorCall → EStateM Exn RDBClient StorAnswer
  | .set data key => do
      let id ← RDBClient.set epoch data key
      return .ofKey id
  | .get key => do
      let client ← getThe RDBClient
      return .ofData (client.get key)
  | .existsKey key => do
      let client ← getThe RDBClient
      let present ← attempt (client.existsKey key)
      return .bool present
  | .delete key => do
      RDBClient.delete key
      return .none
  | .count => do
      let client ← getThe RDBClient
      return .int client.count
  | .flush => do
      RDBClient.flush
      return .none

/-! ## The map that the clients stand for -/

/-- What a finite map with an allocator of new ids may answer to a call, and
the map behind it. -/
inductive MapAnswers (stored : OrderedMap Nat Bytes) :
    StorCall → Except Exn StorAnswer → OrderedMap Nat Bytes → Prop where
  | new (data : Bytes) (id : Nat) :
      stored.lookup id = none →
      MapAnswers stored (.set data none) (.ok (.int id)) (stored.insert id data)
  | same (data : Bytes) (key : Nat) :
      stored.lookup key = some data →
      MapAnswers stored (.set data (some key)) (.ok .none) stored
  | put (data : Bytes) (key : Nat) :
      stored.lookup key ≠ some data →
      MapAnswers stored (.set data (some key)) (.ok (.int key))
        (stored.insert key data)
  | get (key : Nat) :
      MapAnswers stored (.get key) (.ok (.ofData (stored.lookup key))) stored
  | existsKey (key : Nat) :
      MapAnswers stored (.existsKey key)
        (.ok (.bool (stored.lookup key).isSome)) stored
  | delete (key : Nat) :
      MapAnswers stored (.delete key) (.ok .none) (stored.erase key)
  | count : MapAnswers stored .count (.ok (.int stored.entries.length)) stored
  | flush : MapAnswers stored .flush (.ok .none) .empty

/-- A finite map may answer a script of calls so. -/
inductive MapAnswersAll : OrderedMap Nat Bytes → List StorCall →
    List (Except Exn StorAnswer) → Prop where
  | nil (stored : OrderedMap Nat Bytes) : MapAnswersAll stored [] []
  | cons {stored next : OrderedMap Nat Bytes} {call : StorCall}
      {calls : List StorCall} {answer : Except Exn StorAnswer}
      {answers : List (Except Exn StorAnswer)} :
      MapAnswers stored call answer next →
      MapAnswersAll next calls answers →
      MapAnswersAll stored (call :: calls) (answer :: answers)

/-- A script of calls, each with the time it is made at. -/
abbrev Script := List (UInt32 × StorCall)

/-- Both clients answer a script that starts on an empty store with the same
results, which are those of a finite map. -/
structure ImplementOneMap (script : Script) : Prop where
  same : outcomes (fun call => DBSQLite.perform call.2) script .empty =
    outcomes (fun call => RDBClient.perform call.1 call.2) script .empty
  sqlite : MapAnswersAll .empty (script.map Prod.snd)
    (outcomes (fun call => DBSQLite.perform call.2) script .empty)
  redis : MapAnswersAll .empty (script.map Prod.snd)
    (outcomes (fun call => RDBClient.perform call.1 call.2) script .empty)

/-! ## The calls that are answered alike -/

/-- The values that stand in the store and the number of ids handed out. -/
structure Allocated where
  stored : OrderedMap Nat Bytes
  ids : Nat

namespace Allocated

def empty : Allocated :=
  ⟨.empty, 0⟩

/-- The call is answered alike: a new id lies behind all keys, no empty value is
written over itself, the key zero is not asked for, no key is deleted, and every
key fits a row. -/
def Fits (before : Allocated) : StorCall → Prop
  | .set _ none => nextKey before.stored = before.ids
  | .set data (some key) =>
      key + 1 < 2 ^ 63 ∧ ¬ (data = [] ∧ before.stored.lookup key = some data)
  | .get key => key + 1 < 2 ^ 63
  | .existsKey key => key ≠ 0 ∧ key + 1 < 2 ^ 63
  | .delete _ => False
  | .count => True
  | .flush => True

def after (before : Allocated) : StorCall → Allocated
  | .set data none => ⟨before.stored.insert before.ids data, before.ids + 1⟩
  | .set data (some key) => ⟨before.stored.insert key data, before.ids⟩
  | .delete key => ⟨before.stored.erase key, before.ids⟩
  | .flush => empty
  | .get _ => before
  | .existsKey _ => before
  | .count => before

end Allocated

/-- Every call of a script that starts on an empty store fits. -/
def Script.Fits (script : Script) : Prop :=
  Along (fun before (call : UInt32 × StorCall) => before.Fits call.2)
    (fun before call => before.after call.2) Allocated.empty script

/-- Both clients hold the same values, and redis counts the ids. -/
structure Represent (before : Allocated) (db : DBSQLite) (client : RDBClient) :
    Prop where
  opened : db.readonly = false
  sqlite : db.contents = before.stored
  redis : client.contents = before.stored
  counter : client.nextId = before.ids

theorem represent_empty : Represent .empty .empty .empty where
  opened := rfl
  sqlite := rfl
  redis := rfl
  counter := rfl

namespace Represent

variable {before : Allocated} {db : DBSQLite} {client : RDBClient}

/-- Both clients answer a call with the same value, which the map may answer
too, and go on representing the same values. -/
def AnswersAlike (before : Allocated) (db : DBSQLite) (client : RDBClient)
    (epoch : UInt32) (call : StorCall) : Prop :=
  ∃ answer db' client', DBSQLite.perform call db = .ok answer db' ∧
    RDBClient.perform epoch call client = .ok answer client' ∧
    Represent (before.after call) db' client' ∧
    MapAnswers before.stored call (.ok answer) (before.after call).stored

theorem new (related : Represent before db client) (epoch : UInt32) (data : Bytes)
    (fits : nextKey before.stored = before.ids) :
    AnswersAlike before db client epoch (.set data none) := by
  have place : db.nextRow = before.ids + 1 := by
    rw [db.nextRow_eq, related.sqlite, fits]
  have id : db.nextRow - 1 = before.ids := by rw [place, Nat.add_sub_cancel]
  refine ⟨.int before.ids, db.writeRow db.nextRow data db.nextRow_pos,
    client.countUp.hashSet client.nextId epoch data, ?_, ?_, ?_, ?_⟩
  · rw [DBSQLite.perform, seq_of_ok (DBSQLite.set_none related.opened data), id]
    rfl
  · rw [RDBClient.perform, seq_of_ok (RDBClient.set_none epoch data), related.counter]
    rfl
  · constructor
    · exact related.opened
    · rw [DBSQLite.contents_writeRow db data _ place, related.sqlite]
      rfl
    · rw [RDBClient.contents_hashSet]
      change client.contents.insert _ _ = _
      rw [related.redis, related.counter]
      rfl
    · change client.nextId + 1 = _
      rw [related.counter]
      rfl
  · apply MapAnswers.new
    rw [← fits]
    exact lookup_nextKey before.stored

theorem same (related : Represent before db client) (epoch : UInt32) {data : Bytes}
    {key : Nat} (small : key + 1 < 2 ^ 63) (full : data ≠ [])
    (stored : before.stored.lookup key = some data) :
    AnswersAlike before db client epoch (.set data (some key)) := by
  have kept : (before.after (.set data (some key))) = before := by
    rw [Allocated.after, OrderedMap.insert_eq_self stored]
  refine ⟨.none, db, client, ?_, ?_, ?_, ?_⟩
  · rw [DBSQLite.perform,
      seq_of_ok (DBSQLite.set_same small (by rw [related.sqlite, stored]))]
    rfl
  · rw [RDBClient.perform,
      seq_of_ok (RDBClient.set_same full (by rw [related.redis, stored]))]
    rfl
  · rw [kept]
    exact related
  · rw [kept]
    exact .same data key stored

theorem put (related : Represent before db client) (epoch : UInt32) {data : Bytes}
    {key : Nat} (small : key + 1 < 2 ^ 63)
    (changed : before.stored.lookup key ≠ some data) :
    AnswersAlike before db client epoch (.set data (some key)) := by
  refine ⟨.int key, db.writeRow (key + 1) data key.succ_pos,
    client.hashSet key epoch data, ?_, ?_, ?_, ?_⟩
  · rw [DBSQLite.perform, seq_of_ok (DBSQLite.set_changed related.opened small
      (by rw [related.sqlite]; exact changed))]
    rfl
  · rw [RDBClient.perform,
      seq_of_ok (RDBClient.set_changed (.inr (by rw [related.redis]; exact changed)))]
    rfl
  · constructor
    · exact related.opened
    · rw [DBSQLite.contents_writeRow db data _ rfl, related.sqlite]
      rfl
    · rw [RDBClient.contents_hashSet, related.redis]
      rfl
    · exact related.counter
  · exact .put data key changed

theorem flush (related : Represent before db client) (epoch : UInt32) :
    AnswersAlike before db client epoch .flush := by
  refine ⟨.none, .empty, .empty, ?_, rfl, represent_empty, .flush⟩
  rw [DBSQLite.perform, seq_of_ok (DBSQLite.flush_eq related.opened)]
  rfl

/-- A call that fits is answered alike. -/
theorem answersAlike (related : Represent before db client) (epoch : UInt32)
    {call : StorCall} (fits : before.Fits call) :
    AnswersAlike before db client epoch call := by
  cases call with
  | set data key =>
      cases key with
      | none => exact related.new epoch data fits
      | some key =>
          obtain ⟨small, notEmpty⟩ := fits
          by_cases stored : before.stored.lookup key = some data
          · apply related.same epoch small _ stored
            intro none
            exact notEmpty ⟨none, stored⟩
          · exact related.put epoch small stored
  | get key =>
      refine ⟨.ofData (before.stored.lookup key), db, client, ?_, ?_, related, .get key⟩
      · rw [DBSQLite.perform, get_seq,
          attempt_seq_of_ok (DBSQLite.get_of_small fits), related.sqlite]
        rfl
      · rw [RDBClient.perform, get_seq, RDBClient.get_eq, related.redis]
        rfl
  | existsKey key =>
      obtain ⟨provided, small⟩ := fits
      refine ⟨.bool (before.stored.lookup key).isSome, db, client, ?_, ?_, related,
        .existsKey key⟩
      · rw [DBSQLite.perform, get_seq,
          attempt_seq_of_ok (DBSQLite.existsKey_of_small small), related.sqlite]
        rfl
      · rw [RDBClient.perform, get_seq,
          attempt_seq_of_ok (RDBClient.existsKey_of_ne_zero provided), related.redis]
        rfl
  | delete key => exact fits.elim
  | count =>
      refine ⟨.int before.stored.entries.length, db, client, ?_, ?_, related, .count⟩
      · rw [DBSQLite.perform, get_seq, DBSQLite.count_eq, related.sqlite]
        rfl
      · rw [RDBClient.perform, get_seq, RDBClient.count_eq, related.redis]
        rfl
  | flush => exact related.flush epoch

/-- Sqlite refuses a key that does not fit a row. -/
theorem sqlite_of_big {key : Nat} (big : ¬ key + 1 < 2 ^ 63) {call : StorCall}
    (named : (∃ data, call = .set data (some key)) ∨ call = .get key ∨
      call = .existsKey key ∨ call = .delete key) :
    outcome (DBSQLite.perform call) db = .error .overflowError := by
  rcases named with ⟨data, rfl⟩ | rfl | rfl | rfl
  · exact outcome_seq_of_error (DBSQLite.set_of_big big)
  · rw [DBSQLite.perform, outcome_get_seq, outcome_seq_of_error]
    exact attempt_eq_error_iff.mpr ⟨DBSQLite.get_of_big big, rfl⟩
  · rw [DBSQLite.perform, outcome_get_seq, outcome_seq_of_error]
    exact attempt_eq_error_iff.mpr ⟨DBSQLite.existsKey_of_big big, rfl⟩
  · exact outcome_seq_of_error (DBSQLite.delete_of_big big)

/-- Redis answers every call but the question for the key zero. -/
theorem redis_answers (client : RDBClient) (epoch : UInt32) {call : StorCall}
    (provided : call ≠ .existsKey 0) :
    ∃ answer, outcome (RDBClient.perform epoch call) client = .ok answer := by
  cases call with
  | set data key =>
      cases key with
      | none => exact ⟨_, rfl⟩
      | some key =>
          by_cases same : data ≠ [] ∧ client.contents.lookup key = some data
          · exact ⟨_, outcome_seq_of_ok (RDBClient.set_same same.1 same.2)⟩
          · apply Exists.intro
            apply outcome_seq_of_ok
            apply RDBClient.set_changed
            by_cases none : data = []
            · exact .inl none
            · exact .inr (fun stored => same ⟨none, stored⟩)
  | existsKey key =>
      have nonzero : key ≠ 0 := fun zero => provided (by rw [zero])
      refine ⟨.bool (client.contents.lookup key).isSome, ?_⟩
      rw [RDBClient.perform, outcome_get_seq]
      exact outcome_of_ok
        (attempt_seq_of_ok (RDBClient.existsKey_of_ne_zero nonzero))
  | _ => exact ⟨_, rfl⟩

/-- A call that does not fit is answered with different results. -/
theorem outcome_ne (related : Represent before db client) (epoch : UInt32)
    {call : StorCall} (unfit : ¬ before.Fits call) :
    outcome (DBSQLite.perform call) db ≠
      outcome (RDBClient.perform epoch call) client := by
  have refused : ∀ key, ¬ key + 1 < 2 ^ 63 → call ≠ .existsKey 0 →
      ((∃ data, call = .set data (some key)) ∨ call = .get key ∨
        call = .existsKey key ∨ call = .delete key) →
      outcome (DBSQLite.perform call) db ≠
        outcome (RDBClient.perform epoch call) client := by
    intro key big provided named
    obtain ⟨answer, answers⟩ := redis_answers client epoch provided
    rw [sqlite_of_big big named, answers]
    intro same
    cases same
  cases call with
  | set data key =>
      cases key with
      | none =>
          rw [DBSQLite.perform, outcome_seq_of_ok (DBSQLite.set_none related.opened data),
            RDBClient.perform, outcome_seq_of_ok (RDBClient.set_none epoch data)]
          intro same
          have ids : db.nextRow - 1 = client.nextId :=
            StorAnswer.int.inj (Except.ok.inj same)
          apply unfit
          change nextKey before.stored = before.ids
          rw [← related.counter, ← ids, db.nextRow_eq, related.sqlite,
            Nat.add_sub_cancel]
      | some key =>
          by_cases small : key + 1 < 2 ^ 63
          · have emptied : data = [] ∧ before.stored.lookup key = some data :=
              Decidable.not_not.mp (fun full => unfit ⟨small, full⟩)
            rw [DBSQLite.perform, outcome_seq_of_ok
                (DBSQLite.set_same small (by rw [related.sqlite, emptied.2])),
              RDBClient.perform, outcome_seq_of_ok (RDBClient.set_changed (.inl emptied.1))]
            intro same
            cases same
          · exact refused key small (fun same => by cases same) (.inl ⟨data, rfl⟩)
  | get key =>
      exact refused key unfit (fun same => by cases same) (.inr (.inl rfl))
  | existsKey key =>
      by_cases zero : key = 0
      · subst zero
        rw [DBSQLite.perform, outcome_get_seq, outcome_seq_of_ok
          (attempt_eq_ok_iff.mpr ⟨DBSQLite.existsKey_of_small (by decide), rfl⟩)]
        intro same
        cases same
      · have big : ¬ key + 1 < 2 ^ 63 := fun small => unfit ⟨zero, small⟩
        apply refused key big _ (.inr (.inr (.inl rfl)))
        intro same
        cases same
        exact zero rfl
  | delete key =>
      by_cases small : key + 1 < 2 ^ 63
      · rw [DBSQLite.perform,
          outcome_seq_of_ok (DBSQLite.delete_of_small related.opened small)]
        intro same
        cases same
      · exact refused key small (fun same => by cases same) (.inr (.inr (.inr rfl)))
  | count => exact (unfit trivial).elim
  | flush => exact (unfit trivial).elim

theorem outcome_eq_iff (related : Represent before db client) (epoch : UInt32)
    (call : StorCall) :
    outcome (DBSQLite.perform call) db =
      outcome (RDBClient.perform epoch call) client ↔ before.Fits call := by
  constructor
  · intro same
    by_contra unfit
    exact related.outcome_ne epoch unfit same
  · intro fits
    obtain ⟨answer, _, _, sqlite, redis, _⟩ := related.answersAlike epoch fits
    rw [outcome_of_ok sqlite, outcome_of_ok redis]

theorem next (related : Represent before db client) (epoch : UInt32)
    {call : StorCall} (fits : before.Fits call) :
    Represent (before.after call) (final (DBSQLite.perform call) db)
      (final (RDBClient.perform epoch call) client) := by
  obtain ⟨_, _, _, sqlite, redis, kept, _⟩ := related.answersAlike epoch fits
  rw [final_of_ok sqlite, final_of_ok redis]
  exact kept

/-- A script of calls that fit is answered as the map answers it. -/
theorem mapAnswersAll {script : Script} (related : Represent before db client)
    (fits : Along (fun before (call : UInt32 × StorCall) => before.Fits call.2)
      (fun before call => before.after call.2) before script) :
    MapAnswersAll before.stored (script.map Prod.snd)
      (outcomes (fun call => DBSQLite.perform call.2) script db) := by
  induction script generalizing before db client with
  | nil => exact .nil before.stored
  | cons call script induction =>
      obtain ⟨fitting, rest⟩ := fits
      obtain ⟨answer, db', client', sqlite, _, kept, answers⟩ :=
        related.answersAlike call.1 fitting
      rw [outcomes, outcome_of_ok sqlite, final_of_ok sqlite]
      exact .cons answers (induction kept rest)

end Represent

end JumpscaleX
