import Mathlib.Algebra.Group.Nat.Defs
import JumpscaleX.Library.OrderedMap
import JumpscaleX.Library.Outcomes
import JumpscaleX.Library.TextBytes
import JumpscaleX.Value

/-!
# The sqlite client

`DBSQLite` keeps the value of key `k` in row `k + 1` of the table `KVS`, whose
row ids sqlite hands out itself: the greatest one plus one.
-/

namespace JumpscaleX

open Fallible Stateful
open TextBytes (Bytes)

/-- The key behind the greatest one of a map. -/
def nextKey (stored : OrderedMap Nat Bytes) : Nat :=
  match stored.maxKey? with
  | some greatest => greatest + 1
  | none => 0

/-- No key lies behind the greatest one. -/
theorem lt_nextKey {stored : OrderedMap Nat Bytes} {key : Nat} {data : Bytes}
    (found : stored.lookup key = some data) : key < nextKey stored := by
  unfold nextKey
  cases greatest : stored.maxKey? with
  | none =>
      rw [OrderedMap.lookup_eq_none_of_maxKey_eq_none key greatest] at found
      cases found
  | some top => exact Nat.lt_succ_of_le (OrderedMap.le_maxKey greatest found)

theorem lookup_nextKey (stored : OrderedMap Nat Bytes) :
    stored.lookup (nextKey stored) = none := by
  cases found : stored.lookup (nextKey stored) with
  | none => rfl
  | some data => exact (Nat.lt_irrefl _ (lt_nextKey found)).elim

/-- A sqlite client.  Non-negative keys stand in the rows from one on. -/
structure DBSQLite where
  readonly : Bool
  KVS : OrderedMap Nat Bytes
  positive : ∀ row data, KVS.lookup row = some data → 0 < row

namespace DBSQLite

def empty : DBSQLite where
  readonly := false
  KVS := .empty
  positive := fun _ _ found => by cases found

/-- The row of a key: `int(key) + 1`, which has to fit a sqlite integer. -/
def rowId (key : Nat) : Except Exn Nat := do
  ensure (key + 1 < 2 ^ 63) .overflowError
  return key + 1

/-- The row id that sqlite gives to a new row. -/
def nextRow (db : DBSQLite) : Nat :=
  match db.KVS.maxKey? with
  | some greatest => greatest + 1
  | none => 1

theorem nextRow_pos (db : DBSQLite) : 0 < db.nextRow := by
  unfold nextRow
  split <;> omega

/-- A file opened with `mode=ro` refuses every statement that writes. -/
def writable (db : DBSQLite) : Except Exn Unit :=
  ensure (db.readonly = false)
    (.operationalError "attempt to write a readonly database")

/-- The value of a row is written. -/
def writeRow (db : DBSQLite) (row : Nat) (data : Bytes) (positive : 0 < row) :
    DBSQLite where
  readonly := db.readonly
  KVS := db.KVS.insert row data
  positive := by
    intro other value found
    rw [OrderedMap.lookup_insert] at found
    split at found
    · omega
    · exact db.positive other value found

def deleteRow (db : DBSQLite) (row : Nat) : DBSQLite where
  readonly := db.readonly
  KVS := db.KVS.erase row
  positive := by
    intro other value found
    rw [OrderedMap.lookup_erase] at found
    split at found
    · cases found
    · exact db.positive other value found

def get (db : DBSQLite) (key : Nat) : Except Exn (Option Bytes) := do
  let row ← rowId key
  return db.KVS.lookup row

/-- `exists`: `self.get(key) != None`. -/
def existsKey (db : DBSQLite) (key : Nat) : Except Exn Bool := do
  let data ← db.get key
  return data.isSome

def count (db : DBSQLite) : Nat :=
  db.KVS.entries.length

/-- `set`. -/
def set (data : Bytes) (key : Option Nat) :
    EStateM Exn DBSQLite (Option Nat) := do
  let db ← getThe DBSQLite
  match key with
  | none => do
      attempt db.writable
      modify (fun db => db.writeRow db.nextRow data db.nextRow_pos)
      return some (db.nextRow - 1)
  | some key => do
      let present ← attempt (db.existsKey key)
      let stored ← attempt (db.get key)
      if present && stored = some data then
        return none
      else do
        attempt db.writable
        modify (fun db => db.writeRow (key + 1) data key.succ_pos)
        return some key

/-- `delete`, which answers with the number of rows that it deleted. -/
def delete (key : Nat) : EStateM Exn DBSQLite Nat := do
  let db ← getThe DBSQLite
  let row ← attempt (rowId key)
  attempt db.writable
  modify (fun db => db.deleteRow row)
  return if (db.KVS.lookup row).isSome then 1 else 0

/-- `flush`. -/
def flush : EStateM Exn DBSQLite Unit := do
  let db ← getThe DBSQLite
  attempt db.writable
  modify (fun db => { empty with readonly := db.readonly })

/-- `iterate`: the rows from `key_start` on, each with the key before it. -/
def iterate (db : DBSQLite) (keyStart : Option Nat) :
    Except Exn (List (Nat × Option Bytes)) := do
  ensure (keyStart.getD 0 < 2 ^ 63) .overflowError
  let items :=
    if keyStart.getD 0 = 0 then db.KVS.keys
    else db.KVS.keys.filter (fun row => keyStart.getD 0 ≤ row)
  return items.map (fun row => (row - 1, db.KVS.lookup (row - 1 + 1)))

/-- `list`, which starts the walk one row later than the key. -/
def list (db : DBSQLite) (keyStart : Option Nat) : Except Exn (List Nat) := do
  let keyStart := if keyStart.getD 0 = 0 then keyStart else keyStart.map (· + 1)
  let items ← db.iterate keyStart
  return items.map Prod.fst

/-- The values by their keys. -/
def contents (db : DBSQLite) : OrderedMap Nat Bytes :=
  db.KVS.renameKeys (fun row => row - 1) (by
    intro first second firstRow _ below
    obtain ⟨data, found⟩ := OrderedMap.mem_keys_iff.mp firstRow
    have := db.positive first data found
    omega)

theorem lookup_contents (db : DBSQLite) (key : Nat) :
    db.contents.lookup key = db.KVS.lookup (key + 1) := by
  apply Option.ext
  intro data
  rw [contents, OrderedMap.lookup_renameKeys_eq_some_iff]
  constructor
  · intro present
    obtain ⟨row, same, found⟩ := present
    have := db.positive row data found
    rw [← same, Nat.sub_add_cancel this]
    exact found
  · intro found
    exact ⟨key + 1, rfl, found⟩

/-! ## What the operations do -/

theorem contents_writeRow (db : DBSQLite) {row key : Nat} (data : Bytes)
    (positive : 0 < row) (place : row = key + 1) :
    (db.writeRow row data positive).contents = db.contents.insert key data := by
  subst place
  ext1 other
  rw [lookup_contents, OrderedMap.lookup_insert, lookup_contents]
  simp [writeRow, OrderedMap.lookup_insert]

/-- The key of the next new row: the one behind the greatest key. -/
theorem nextRow_eq (db : DBSQLite) : db.nextRow = nextKey db.contents + 1 := by
  unfold nextRow nextKey
  rw [contents, OrderedMap.maxKey_renameKeys]
  cases greatest : db.KVS.maxKey? with
  | none => rfl
  | some row =>
      obtain ⟨data, found⟩ := OrderedMap.lookup_of_maxKey greatest
      have := db.positive row data found
      simp only [Option.map_some]
      omega

theorem count_eq (db : DBSQLite) : db.count = db.contents.entries.length := by
  simp [count, contents, OrderedMap.renameKeys]

section

variable {db : DBSQLite} {key : Nat}

theorem rowId_of_small (small : key + 1 < 2 ^ 63) : rowId key = .ok (key + 1) := by
  rw [rowId, ensure_of small]
  rfl

theorem rowId_of_big (big : ¬ key + 1 < 2 ^ 63) : rowId key = .error .overflowError := by
  rw [rowId, ensure_of_not big]
  rfl

theorem get_of_small (small : key + 1 < 2 ^ 63) :
    db.get key = .ok (db.contents.lookup key) := by
  rw [get, rowId_of_small small, lookup_contents]
  rfl

theorem get_of_big (big : ¬ key + 1 < 2 ^ 63) : db.get key = .error .overflowError := by
  rw [get, rowId_of_big big]
  rfl

theorem existsKey_of_small (small : key + 1 < 2 ^ 63) :
    db.existsKey key = .ok (db.contents.lookup key).isSome := by
  rw [existsKey, get_of_small small]
  rfl

theorem existsKey_of_big (big : ¬ key + 1 < 2 ^ 63) :
    db.existsKey key = .error .overflowError := by
  rw [existsKey, get_of_big big]
  rfl

theorem writable_of_open (opened : db.readonly = false) : db.writable = .ok () :=
  ensure_of opened

theorem set_none (opened : db.readonly = false) (data : Bytes) :
    set data none db = .ok (some (db.nextRow - 1))
      (db.writeRow db.nextRow data db.nextRow_pos) := by
  simp only [set, get_seq]
  rw [attempt_seq_of_ok (writable_of_open opened)]
  rfl

theorem set_same {data : Bytes} (small : key + 1 < 2 ^ 63)
    (stored : db.contents.lookup key = some data) :
    set data (some key) db = .ok none db := by
  simp only [set, get_seq]
  rw [attempt_seq_of_ok (existsKey_of_small small),
    attempt_seq_of_ok (get_of_small small)]
  simp [stored]

theorem set_changed {data : Bytes} (opened : db.readonly = false)
    (small : key + 1 < 2 ^ 63) (changed : db.contents.lookup key ≠ some data) :
    set data (some key) db =
      .ok (some key) (db.writeRow (key + 1) data key.succ_pos) := by
  simp only [set, get_seq]
  rw [attempt_seq_of_ok (existsKey_of_small small),
    attempt_seq_of_ok (get_of_small small)]
  simp only [changed, decide_false, Bool.and_false, Bool.false_eq_true, if_false]
  rw [attempt_seq_of_ok (writable_of_open opened)]
  rfl

theorem set_of_big {data : Bytes} (big : ¬ key + 1 < 2 ^ 63) :
    set data (some key) db = .error .overflowError db := by
  simp only [set, get_seq]
  rw [attempt_seq_of_error (existsKey_of_big big)]

theorem delete_of_small (opened : db.readonly = false) (small : key + 1 < 2 ^ 63) :
    delete key db =
      .ok (if (db.contents.lookup key).isSome then 1 else 0)
        (db.deleteRow (key + 1)) := by
  simp only [delete, get_seq]
  rw [attempt_seq_of_ok (rowId_of_small small),
    attempt_seq_of_ok (writable_of_open opened), lookup_contents]
  rfl

theorem delete_of_big (big : ¬ key + 1 < 2 ^ 63) :
    delete key db = .error .overflowError db := by
  simp only [delete, get_seq]
  rw [attempt_seq_of_error (rowId_of_big big)]

theorem flush_eq (opened : db.readonly = false) : flush db = .ok () empty := by
  simp only [flush, get_seq]
  rw [attempt_seq_of_ok (writable_of_open opened)]
  show EStateM.Result.ok () { empty with readonly := db.readonly } = .ok () empty
  rw [opened]
  rfl

end

end DBSQLite

end JumpscaleX
