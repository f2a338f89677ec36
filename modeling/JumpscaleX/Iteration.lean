import JumpscaleX.StorEquivalence
import JumpscaleX.AgreementRuns

/-!
# Iteration from a start key

What a walk over a store yields that starts at a key, through either client and
through the database.
-/

namespace JumpscaleX

open Fallible Stateful
open TextBytes (Bytes)

/-- The entries of a map from a key on. -/
def entriesFrom {β : Type} (stored : OrderedMap Nat β) (keyStart : Option Nat) :
    List (Nat × β) :=
  stored.entries.filter (fun entry => keyStart.getD 0 ≤ entry.1)

theorem filter_eq_filter_iff {α : Type} {items : List α} {first second : α → Bool} :
    items.filter first = items.filter second ↔
      ∀ item ∈ items, (first item = true ↔ second item = true) := by
  constructor
  · intro same item member
    have both : item ∈ items.filter first ↔ item ∈ items.filter second := by
      rw [same]
    simpa [List.mem_filter, member] using both
  · intro agree
    exact List.filter_congr (fun item member => Bool.eq_iff_iff.mpr (agree item member))

/-! ## The sqlite client -/

namespace DBSQLite

variable {db : DBSQLite} {keyStart : Option Nat}

/-- The rows from `key_start` on begin one key before it. -/
theorem iterate_eq (small : keyStart.getD 0 < 2 ^ 63) :
    db.iterate keyStart = .ok ((db.contents.entries.filter (fun entry =>
      keyStart.getD 0 ≤ entry.1 + 1)).map (fun entry => (entry.1, some entry.2))) := by
  have rows : ∀ entry ∈ db.KVS.entries, 0 < entry.1 ∧
      db.KVS.lookup entry.1 = some entry.2 := by
    intro entry member
    have found := OrderedMap.lookup_eq_some_iff.mpr member
    exact ⟨db.positive entry.1 entry.2 found, found⟩
  have items : (if keyStart.getD 0 = 0 then db.KVS.keys
      else db.KVS.keys.filter (fun row => keyStart.getD 0 ≤ row)) =
      (db.KVS.entries.filter (fun entry => keyStart.getD 0 ≤ entry.1)).map Prod.fst := by
    split
    · rename_i zero
      simp [OrderedMap.keys, zero]
    · rw [OrderedMap.keys, List.filter_map]
      rfl
  rw [iterate, ensure_of small]
  simp only [items]
  change Except.ok _ = Except.ok _
  rw [contents, OrderedMap.renameKeys, List.filter_map, List.map_map, List.map_map]
  congr 1
  have same : db.KVS.entries.filter (fun entry => keyStart.getD 0 ≤ entry.1) =
      db.KVS.entries.filter ((fun entry : Nat × Bytes => decide (keyStart.getD 0 ≤ entry.1 + 1)) ∘
        fun entry => (entry.1 - 1, entry.2)) := by
    apply List.filter_congr
    intro entry member
    have := (rows entry member).1
    simp only [Function.comp_apply, Nat.sub_add_cancel this]
  rw [← same]
  apply List.map_congr_left
  intro entry member
  obtain ⟨positive, found⟩ := rows entry (List.mem_of_mem_filter member)
  simp only [Function.comp_apply, Nat.sub_add_cancel positive, found]

theorem iterate_of_big (big : ¬ keyStart.getD 0 < 2 ^ 63) :
    db.iterate keyStart = .error .overflowError := by
  rw [iterate, ensure_of_not big]
  rfl

/-- The walk is exact unless the key before its start is present. -/
theorem iterate_exact_iff :
    db.iterate keyStart = .ok ((entriesFrom db.contents keyStart).map
        (fun entry => (entry.1, some entry.2))) ↔
      keyStart.getD 0 < 2 ^ 63 ∧
        ∀ key, key + 1 = keyStart.getD 0 → db.contents.lookup key = none := by
  by_cases small : keyStart.getD 0 < 2 ^ 63
  · have injective : Function.Injective
        (fun entry : Nat × Bytes => (entry.1, some entry.2)) := by
      intro left right same
      simpa [Prod.ext_iff] using same
    rw [iterate_eq small, Except.ok.injEq, List.map_inj_right (fun _ _ => injective.eq_iff.mp),
      entriesFrom, filter_eq_filter_iff]
    constructor
    · intro exact'
      refine ⟨small, ?_⟩
      intro key before
      rw [OrderedMap.lookup_eq_none_iff]
      intro data member
      have both := (exact' (key, data) member).mp (by simp [← before])
      simp only [← before, decide_eq_true_eq] at both
      omega
    · intro free
      obtain ⟨_, free⟩ := free
      intro entry member
      have present := OrderedMap.lookup_eq_some_iff.mpr member
      have different : entry.1 + 1 ≠ keyStart.getD 0 := by
        intro before
        rw [free entry.1 before] at present
        cases present
      simp only [decide_eq_true_eq]
      omega
  · rw [iterate_of_big small]
    constructor
    · intro impossible
      cases impossible
    · intro fits
      exact (small fits.1).elim

/-- `list` moves its start one row on, and is exact. -/
theorem list_exact_iff :
    db.list keyStart = .ok ((entriesFrom db.contents keyStart).map Prod.fst) ↔
      keyStart.getD 0 = 0 ∨ keyStart.getD 0 + 1 < 2 ^ 63 := by
  by_cases zero : keyStart.getD 0 = 0
  · rw [list]
    simp only [zero, if_true]
    rw [iterate_eq (by rw [zero]; decide)]
    simp only [entriesFrom, zero, Nat.zero_le, true_or, iff_true]
    change Except.ok _ = Except.ok _
    rw [List.map_map]
    rfl
  · have moved : (keyStart.map (· + 1)).getD 0 = keyStart.getD 0 + 1 := by
      cases keyStart with
      | none => exact (zero rfl).elim
      | some key => rfl
    rw [list]
    simp only [zero, if_false, false_or]
    by_cases small : keyStart.getD 0 + 1 < 2 ^ 63
    · rw [iterate_eq (by rw [moved]; exact small)]
      simp only [small, iff_true, moved, Nat.add_le_add_iff_right]
      change Except.ok _ = Except.ok _
      rw [List.map_map]
      rfl
    · rw [iterate_of_big (by rw [moved]; exact small)]
      constructor
      · intro impossible
        cases impossible
      · intro fits
        exact (small fits).elim

end DBSQLite

/-! ## The redis client -/

namespace RDBClient

variable {client : RDBClient} {keyStart : Option Nat}

/-- The counter has come to a key. -/
def Reaches (client : RDBClient) (key : Nat) : Prop :=
  key < client.stopKey

instance (client : RDBClient) (key : Nat) : Decidable (client.Reaches key) :=
  inferInstanceAs (Decidable (key < client.stopKey))

theorem iterateKey_eq_some_iff {key : Nat} {entry : Nat × Bytes} :
    client.iterateKey key = some entry ↔
      entry.1 = key ∧ (key, entry.2) ∈ client.contents.entries ∧ entry.2 ≠ [] := by
  rw [iterateKey, get_eq, ← OrderedMap.lookup_eq_some_iff]
  cases client.contents.lookup key with
  | none => simp
  | some data =>
      obtain ⟨other, value⟩ := entry
      simp only [Option.ite_none_left_eq_some, Option.some.injEq, Prod.mk.injEq,
        List.isEmpty_iff]
      constructor
      · intro yielded
        obtain ⟨full, same, rfl⟩ := yielded
        exact ⟨same.symm, rfl, full⟩
      · intro yielded
        obtain ⟨same, rfl, full⟩ := yielded
        exact ⟨full, same.symm, rfl⟩

theorem iterate_eq (client : RDBClient) (keyStart : Option Nat) :
    client.iterate keyStart = client.contents.entries.filter (fun entry =>
      keyStart.getD 0 ≤ entry.1 ∧ client.Reaches entry.1 ∧ entry.2 ≠ []) := by
  apply OrderedMap.pairwise_ext
  · rw [iterate, List.pairwise_filterMap]
    have ascending : (List.range' (keyStart.getD 0)
        (client.stopKey - keyStart.getD 0)).Pairwise (· < ·) := List.pairwise_lt_range'
    apply ascending.imp
    intro first second below left leftYielded right rightYielded
    rw [(iterateKey_eq_some_iff.mp leftYielded).1,
      (iterateKey_eq_some_iff.mp rightYielded).1]
    exact below
  · exact client.contents.sorted.filter _
  · intro entry
    simp only [iterate, List.mem_filterMap, List.mem_range'_1, List.mem_filter,
      decide_eq_true_eq, iterateKey_eq_some_iff]
    constructor
    · intro yielded
      obtain ⟨key, ⟨reached, below⟩, rfl, member, full⟩ := yielded
      refine ⟨member, reached, ?_, full⟩
      unfold Reaches
      omega
    · intro yielded
      obtain ⟨member, started, reached, full⟩ := yielded
      refine ⟨entry.1, ⟨started, ?_⟩, rfl, member, full⟩
      unfold Reaches at reached
      omega

/-- The walk is exact when the counter has come to every key from its start on,
and none has an empty value. -/
theorem iterate_exact_iff :
    client.iterate keyStart = entriesFrom client.contents keyStart ↔
      ∀ key data, client.contents.lookup key = some data → keyStart.getD 0 ≤ key →
        client.Reaches key ∧ data ≠ [] := by
  rw [iterate_eq, entriesFrom, filter_eq_filter_iff]
  constructor
  · intro exact' key data present reached
    have both := (exact' (key, data) (OrderedMap.lookup_eq_some_iff.mp present)).mpr
      (by simpa using reached)
    simp only [decide_eq_true_eq] at both
    exact both.2
  · intro fits entry member
    have present := OrderedMap.lookup_eq_some_iff.mpr member
    simp only [decide_eq_true_eq]
    constructor
    · intro both
      exact both.1
    · intro reached
      exact ⟨reached, fits entry.1 entry.2 present reached⟩

theorem list_exact_iff :
    client.list keyStart = (entriesFrom client.contents keyStart).map Prod.fst ↔
      ∀ key data, client.contents.lookup key = some data → keyStart.getD 0 ≤ key →
        client.Reaches key ∧ data ≠ [] := by
  rw [← iterate_exact_iff]
  constructor
  · intro keys
    have fewer : List.Sublist (client.iterate keyStart)
        (entriesFrom client.contents keyStart) := by
      rw [iterate_eq, entriesFrom]
      apply List.monotone_filter_right
      intro entry yielded
      simp only [decide_eq_true_eq] at yielded ⊢
      exact yielded.1
    apply fewer.eq_of_length
    have lengths := congrArg List.length keys
    rwa [list, List.length_map, List.length_map] at lengths
  · intro same
    rw [list, same]

end RDBClient

/-! ## The database -/

/-- What a walk of a store client hands to its caller. -/
inductive StorItem where
  | bare (key : Nat)
  | pair (key : Nat) (data : Stored)

/-- `for key, data in ...`: a bare key cannot be unpacked. -/
def StorItem.unpack : StorItem → Except Exn (Nat × Stored)
  | .bare _ => .error (.typeError "cannot unpack non-iterable int object")
  | .pair key data => .ok (key, data)

namespace StorClient

/-- The entries that `iterate` of the client meets from a key on. -/
def walkEntries (client : StorClient) (keyStart : Option Nat) : List (Nat × Stored) :=
  match client.type with
  | .SDB => client.kvs.entries.filter (fun entry => keyStart.getD 0 ≤ entry.1 + 1)
  | .RDB =>
      client.kvs.entries.filter (fun entry =>
        keyStart.getD 0 ≤ entry.1 ∧ (client.incr ≠ 0 ∧ entry.1 ≤ client.incr) ∧
          entry.2.truthy = true)

/-- `iterate(key_start, keyonly)`, which yields keys only in redis. -/
def walk (client : StorClient) (keyStart : Option Nat) (keyonly : Bool) :
    Except Exn (List StorItem) := do
  ensure (client.type = .SDB → keyStart.getD 0 < 2 ^ 63) .overflowError
  return (client.walkEntries keyStart).map (fun entry =>
    if client.type = .RDB ∧ keyonly = true then .bare entry.1
    else .pair entry.1 entry.2)

theorem mem_walkEntries_SDB {client : StorClient} {keyStart : Option Nat}
    {entry : Nat × Stored} (kind : client.type = .SDB) :
    entry ∈ client.walkEntries keyStart ↔
      client.get entry.1 = some entry.2 ∧ keyStart.getD 0 ≤ entry.1 + 1 := by
  rw [StorClient.get, OrderedMap.lookup_eq_some_iff, walkEntries]
  simp only [kind, List.mem_filter, decide_eq_true_eq]

theorem mem_walkEntries_RDB {client : StorClient} {keyStart : Option Nat}
    {entry : Nat × Stored} (kind : client.type = .RDB) :
    entry ∈ client.walkEntries keyStart ↔
      client.get entry.1 = some entry.2 ∧ keyStart.getD 0 ≤ entry.1 ∧
        (client.incr ≠ 0 ∧ entry.1 ≤ client.incr) ∧ entry.2.truthy = true := by
  rw [StorClient.get, OrderedMap.lookup_eq_some_iff, walkEntries]
  simp only [kind, List.mem_filter, decide_eq_true_eq]

end StorClient

/-- What the walk over a database yields, with `padding` for the empty string. -/
inductive Yielded where
  | id (id : Nat)
  | obj (obj : JSXObject)
  | padding

/-- A walk under way. -/
structure Walk where
  bcdb : BCDB
  yielded : List Yielded

namespace Walk

def yieldItem (item : Yielded) : EStateM Exn Walk PUnit :=
  modify (fun walk => { walk with yielded := walk.yielded ++ [item] })

def onBcdb {α : Type} : BCDBM α → EStateM Exn Walk α :=
  onPart Walk.bcdb (fun walk bcdb => { walk with bcdb := bcdb })

/-- What the body of the loop does with an entry.  `yield obj` follows every
branch, and the branch of `keyonly` has not bound `obj`. -/
def entryStep (keyonly : Bool) (entry : Nat × Stored) : EStateM Exn Walk PUnit :=
  if keyonly then do
    yieldItem (.id entry.1)
    throw (.unboundLocalError "obj")
  else if entry.2.truthy then do
    let obj ← onBcdb (BCDB.unserialize entry.1 entry.2 none)
    yieldItem (.obj obj)
  else yieldItem .padding

/-- The body of the loop.  The first entry is skipped. -/
def step (keyonly : Bool) (item : StorItem) : EStateM Exn Walk PUnit := do
  let entry ← attempt item.unpack
  runIf (entry.1 ≠ 0) (entryStep keyonly entry)

/-- `BCDB.iterate(key_start, keyonly)`. -/
def iterate (keyStart : Option Nat) (keyonly : Bool) : EStateM Exn Walk PUnit := do
  let walk ← getThe Walk
  let items ← attempt (walk.bcdb.storclient.walk keyStart keyonly)
  items.forM (step keyonly)

end Walk

namespace BCDB

/-- The item that a walk has to yield for an entry. -/
def ItemOf (bcdb : BCDB) (keyonly : Bool) (entry : Nat × Stored) (item : Yielded) :
    Prop :=
  if keyonly then item = .id entry.1
  else ∃ record schema, entry.2 = .record record ∧
    bcdb.schemaFactory.schemasMd5 record.bdata.md5 = some schema ∧
    item = .obj (record.read entry.1 schema)

/-- The entries that a walk has to yield an item for. -/
def itemEntries (bcdb : BCDB) (keyStart : Option Nat) : List (Nat × Stored) :=
  (entriesFrom bcdb.storclient.kvs keyStart).filter (fun entry => entry.1 ≠ 0)

/-- The walk over the database yields one item for each record from a key on. -/
def IteratesExactly (bcdb : BCDB) (keyStart : Option Nat) (keyonly : Bool) : Prop :=
  ∃ reached, Walk.iterate keyStart keyonly ⟨bcdb, []⟩ = .ok PUnit.unit reached ∧
    List.Forall₂ (bcdb.ItemOf keyonly) (bcdb.itemEntries keyStart) reached.yielded

/-- An entry holds a record that was stored under the newest version. -/
def Current (bcdb : BCDB) (data : Stored) : Prop :=
  ∃ record schema, data = .record record ∧
    bcdb.schemaFactory.schemasMd5 record.bdata.md5 = some schema ∧
    bcdb.schemaFactory.schemasLoaded schema.url = some schema

/-- A walk for keys meets nothing to yield. -/
def KeysFit (bcdb : BCDB) (keyStart : Option Nat) : Prop :=
  match bcdb.storclient.type with
  | .SDB => keyStart.getD 0 < 2 ^ 63 ∧
      ∀ key data, bcdb.storclient.get key = some data → key ≠ 0 →
        key + 1 < keyStart.getD 0
  | .RDB =>
      (∀ key data, bcdb.storclient.get key = some data → key ≠ 0 →
        key < keyStart.getD 0) ∧
      (keyStart.getD 0 = 0 → bcdb.storclient.incr ≠ 0 →
        ∀ data, bcdb.storclient.get 0 = some data → data.truthy = false)

/-- A walk for objects starts behind no record, and reaches records of newest
versions only. -/
def ObjectsFit (bcdb : BCDB) (keyStart : Option Nat) : Prop :=
  (match bcdb.storclient.type with
  | .SDB => keyStart.getD 0 < 2 ^ 63 ∧
      ∀ key, key + 1 = keyStart.getD 0 → key ≠ 0 → bcdb.storclient.get key = none
  | .RDB =>
      ∀ key data, bcdb.storclient.get key = some data → key ≠ 0 →
        keyStart.getD 0 ≤ key → bcdb.storclient.incr ≠ 0 ∧ key ≤ bcdb.storclient.incr) ∧
    ∀ key data, bcdb.storclient.get key = some data → key ≠ 0 →
      keyStart.getD 0 ≤ key → bcdb.Current data

end BCDB

namespace Walk

/-- The loop over keys goes on only past the first entry. -/
theorem step_true_eq_ok_iff {item : StorItem} {walk reached : Walk} {value : PUnit} :
    step true item walk = .ok value reached ↔
      (∃ data, item = .pair 0 data) ∧ walk = reached := by
  cases item with
  | bare key => simp [step, StorItem.unpack]
  | pair key data =>
      simp only [step, StorItem.unpack, seq_eq_ok_iff, attempt_eq_ok_iff,
        Except.ok.injEq, runIf_eq_ok_iff]
      constructor
      · intro done
        obtain ⟨_, _, ⟨rfl, rfl⟩, raised | skipped⟩ := done
        · simp [entryStep, yieldItem] at raised
        · obtain ⟨zero, same⟩ := skipped
          have isZero : key = 0 := Decidable.not_not.mp zero
          exact ⟨⟨data, by rw [isZero]⟩, same⟩
      · intro first
        obtain ⟨⟨_, same⟩, rfl⟩ := first
        cases same
        exact ⟨_, walk, ⟨rfl, rfl⟩, .inr ⟨fun nonzero => nonzero rfl, rfl⟩⟩

theorem step_true_reads (item : StorItem) : Reads (step true item) := by
  intro walk value reached done
  exact (step_true_eq_ok_iff.mp done).2

/-- A walk for keys returns when it meets no key but the first. -/
theorem iterate_true_eq_ok_iff {keyStart : Option Nat} {bcdb : BCDB} {reached : Walk} :
    iterate keyStart true ⟨bcdb, []⟩ = .ok PUnit.unit reached ↔
      (bcdb.storclient.type = .SDB → keyStart.getD 0 < 2 ^ 63) ∧
        (∀ entry ∈ bcdb.storclient.walkEntries keyStart,
          bcdb.storclient.type = .SDB ∧ entry.1 = 0) ∧
        ⟨bcdb, []⟩ = reached := by
  simp only [iterate, get_seq, seq_eq_ok_iff, attempt_eq_ok_iff, StorClient.walk,
    bind_eq_ok_iff, ensure_eq_ok_iff, pure_eq_ok_iff,
    forM_eq_ok_iff (fun item _ => step_true_reads item)]
  constructor
  · intro done
    obtain ⟨_, _, ⟨⟨_, small, rfl⟩, rfl⟩, same, items⟩ := done
    refine ⟨small, ?_, same⟩
    intro entry member
    have passed := items _ (List.mem_map_of_mem member)
    rw [step_true_eq_ok_iff] at passed
    obtain ⟨⟨data, pair⟩, _⟩ := passed
    split at pair
    · cases pair
    · rename_i other
      refine ⟨?_, (StorItem.pair.inj pair).1⟩
      cases kind : bcdb.storclient.type with
      | SDB => rfl
      | RDB => exact (other ⟨kind, trivial⟩).elim
  · intro fits
    obtain ⟨small, first, same⟩ := fits
    refine ⟨_, _, ⟨⟨PUnit.unit, small, rfl⟩, rfl⟩, same, ?_⟩
    intro item member
    obtain ⟨entry, present, rfl⟩ := List.mem_map.mp member
    obtain ⟨sqlite, zero⟩ := first entry present
    rw [step_true_eq_ok_iff, zero]
    simp [sqlite]

end Walk

theorem BCDB.mem_itemEntries {bcdb : BCDB} {keyStart : Option Nat}
    {entry : Nat × Stored} :
    entry ∈ bcdb.itemEntries keyStart ↔
      bcdb.storclient.get entry.1 = some entry.2 ∧ keyStart.getD 0 ≤ entry.1 ∧
        entry.1 ≠ 0 := by
  rw [StorClient.get, OrderedMap.lookup_eq_some_iff]
  simp only [itemEntries, entriesFrom, List.mem_filter, decide_eq_true_eq, and_assoc]

/-- A walk for keys is exact when there is nothing to yield. -/
theorem BCDB.iteratesExactly_keys_iff (bcdb : BCDB) (keyStart : Option Nat) :
    bcdb.IteratesExactly keyStart true ↔ bcdb.KeysFit keyStart := by
  have nothing : bcdb.IteratesExactly keyStart true ↔
      (bcdb.storclient.type = .SDB → keyStart.getD 0 < 2 ^ 63) ∧
        (∀ entry ∈ bcdb.storclient.walkEntries keyStart,
          bcdb.storclient.type = .SDB ∧ entry.1 = 0) ∧
        bcdb.itemEntries keyStart = [] := by
    unfold IteratesExactly
    simp only [Walk.iterate_true_eq_ok_iff]
    constructor
    · intro exact'
      obtain ⟨_, ⟨small, first, rfl⟩, items⟩ := exact'
      exact ⟨small, first, List.forall₂_nil_right_iff.mp items⟩
    · intro fits
      obtain ⟨small, first, none⟩ := fits
      exact ⟨_, ⟨small, first, rfl⟩, by rw [none]; exact .nil⟩
  have items : bcdb.itemEntries keyStart = [] ↔
      ∀ key data, bcdb.storclient.get key = some data → key ≠ 0 →
        key < keyStart.getD 0 := by
    rw [List.eq_nil_iff_forall_not_mem]
    constructor
    · intro absent key data present nonzero
      by_contra reached
      exact absent (key, data)
        (mem_itemEntries.mpr ⟨present, Nat.le_of_not_lt reached, nonzero⟩)
    · intro below entry member
      obtain ⟨present, reached, nonzero⟩ := mem_itemEntries.mp member
      exact Nat.not_lt.mpr reached (below entry.1 entry.2 present nonzero)
  rw [nothing, items]
  unfold KeysFit
  cases kind : bcdb.storclient.type with
  | SDB =>
      simp only [StorClient.mem_walkEntries_SDB kind, true_and, forall_const,
        Prod.forall, and_imp]
      constructor
      · intro fits
        obtain ⟨small, first, _⟩ := fits
        refine ⟨small, ?_⟩
        intro key data present nonzero
        by_contra reached
        exact nonzero (first key data present (by omega))
      · intro fits
        obtain ⟨small, below⟩ := fits
        refine ⟨small, ?_, ?_⟩
        · intro key data present reached
          by_contra nonzero
          have := below key data present nonzero
          omega
        · intro key data present nonzero
          have := below key data present nonzero
          omega
  | RDB =>
      simp only [StorClient.mem_walkEntries_RDB kind, Prod.forall,
        reduceCtorEq, false_and, imp_false, IsEmpty.forall_iff, true_and]
      constructor
      · intro fits
        obtain ⟨unmet, below⟩ := fits
        refine ⟨below, ?_⟩
        intro fromZero counted data present
        apply eq_false_of_ne_true
        intro full
        exact unmet 0 data ⟨present, by omega, ⟨counted, Nat.zero_le _⟩, full⟩
      · intro fits
        obtain ⟨below, first⟩ := fits
        refine ⟨?_, below⟩
        intro key data walked
        obtain ⟨present, reached, ⟨counted, _⟩, full⟩ := walked
        by_cases zero : key = 0
        · subst zero
          rw [first (by omega) counted data present] at full
          cases full
        · have := below key data present zero
          omega

namespace Walk

/-- What the walk yields for an entry that it reads as an object or passes as
padding. -/
def ReadAs (bcdb : BCDB) (entry : Nat × Stored) (item : Yielded) : Prop :=
  entry.2 = .padding ∧ item = .padding ∨
    ∃ record schema, entry.2 = .record record ∧
      bcdb.schemaFactory.schemasMd5 record.bdata.md5 = some schema ∧
      bcdb.schemaFactory.schemasLoaded schema.url = some schema ∧
      item = .obj (record.read entry.1 schema)

theorem entryStep_false_eq_ok {entry : Nat × Stored} {walk reached : Walk}
    {value : PUnit} (done : entryStep false entry walk = .ok value reached) :
    BCDB.SameStore walk.bcdb reached.bcdb ∧
      ∃ item, reached.yielded = walk.yielded ++ [item] ∧
        ReadAs walk.bcdb entry item := by
  obtain ⟨key, data⟩ := entry
  unfold entryStep at done
  cases data with
  | padding =>
      simp only [Bool.false_eq_true, if_false, Stored.truthy, yieldItem,
        modify_eq_ok_iff] at done
      rw [← done]
      exact ⟨.refl _, .padding, rfl, .inl ⟨rfl, rfl⟩⟩
  | init =>
      simp [Stored.truthy, onBcdb, onPart_eq_ok_iff, BCDB.unserialize] at done
  | record record =>
      simp only [Bool.false_eq_true, if_false, Stored.truthy, if_true, yieldItem,
        seq_eq_ok_iff, onBcdb, onPart_eq_ok_iff, modify_eq_ok_iff] at done
      obtain ⟨obj, _, ⟨bcdb, read, rfl⟩, rfl⟩ := done
      obtain ⟨schema, known, newest, got, rfl⟩ :=
        BCDB.unserialize_none_eq_ok_iff.mp read
      exact ⟨BCDB.modelGet_sameStore got, .obj (record.read key schema), rfl,
        .inr ⟨record, schema, rfl, known, newest, rfl⟩⟩

/-- The entry of a current record is read. -/
theorem entryStep_false_of_current {entry : Nat × Stored} {walk : Walk}
    (current : walk.bcdb.Current entry.2) :
    ∃ reached, entryStep false entry walk = .ok PUnit.unit reached := by
  obtain ⟨key, data⟩ := entry
  obtain ⟨record, schema, rfl, known, newest⟩ := current
  have got : ∃ bcdb, walk.bcdb.modelGet schema = .ok bcdb := by
    unfold BCDB.modelGet
    split
    · exact ⟨_, rfl⟩
    · exact ⟨_, BCDB.modelAdd_eq_ok_iff.mpr ⟨schema, newest, rfl⟩⟩
  obtain ⟨bcdb, got⟩ := got
  have read : BCDB.unserialize key (.record record) none walk.bcdb =
      .ok (record.read key schema) bcdb :=
    BCDB.unserialize_none_eq_ok_iff.mpr ⟨schema, known, newest, got, rfl⟩
  refine ⟨⟨bcdb, walk.yielded ++ [.obj (record.read key schema)]⟩, ?_⟩
  simp only [entryStep, Bool.false_eq_true, if_false, Stored.truthy, if_true,
    seq_eq_ok_iff, onBcdb, onPart_eq_ok_iff, yieldItem, modify_eq_ok_iff]
  exact ⟨_, _, ⟨bcdb, read, rfl⟩, rfl⟩

theorem step_pair (keyonly : Bool) (entry : Nat × Stored) :
    step keyonly (.pair entry.1 entry.2) =
      runIf (entry.1 ≠ 0) (entryStep keyonly entry) := rfl

/-- A loop for objects that returns has yielded an item for each entry. -/
theorem forM_step_eq_ok {entries : List (Nat × Stored)} {walk reached : Walk}
    {value : PUnit}
    (done : (entries.map (fun entry => StorItem.pair entry.1 entry.2)).forM
      (step false) walk = .ok value reached) :
    ∃ items, reached.yielded = walk.yielded ++ items ∧
      List.Forall₂ (ReadAs walk.bcdb) (entries.filter (fun entry => entry.1 ≠ 0))
        items := by
  induction entries generalizing walk with
  | nil =>
      have same : walk = reached := (return_eq_ok_iff.mp done).2
      exact ⟨[], by rw [← same, List.append_nil], .nil⟩
  | cons entry rest induction =>
      change (step false (.pair entry.1 entry.2) >>= fun _ =>
        (rest.map (fun entry => StorItem.pair entry.1 entry.2)).forM (step false))
        walk = _ at done
      rw [step_pair, seq_eq_ok_iff] at done
      obtain ⟨_, between, first, later⟩ := done
      obtain ⟨items, yielded, read⟩ := induction later
      rcases runIf_eq_ok_iff.mp first with ⟨nonzero, first⟩ | ⟨zero, same⟩
      · obtain ⟨same, item, one, readItem⟩ := entryStep_false_eq_ok first
        refine ⟨item :: items, by rw [yielded, one, List.append_assoc]; rfl, ?_⟩
        rw [List.filter_cons_of_pos (by simpa using nonzero)]
        apply List.Forall₂.cons readItem
        apply read.imp
        intro entry item readItem
        unfold ReadAs at readItem ⊢
        rwa [same.schemaFactory] at readItem
      · rw [List.filter_cons_of_neg (by simpa using zero), same]
        exact ⟨items, yielded, read⟩

/-- A loop over current records comes to its end. -/
theorem forM_step_of_current {entries : List (Nat × Stored)} {walk : Walk}
    (current : ∀ entry ∈ entries, entry.1 ≠ 0 → walk.bcdb.Current entry.2) :
    ∃ reached, (entries.map (fun entry => StorItem.pair entry.1 entry.2)).forM
      (step false) walk = .ok PUnit.unit reached := by
  induction entries generalizing walk with
  | nil => exact ⟨walk, rfl⟩
  | cons entry rest induction =>
      have first : ∃ between, runIf (entry.1 ≠ 0) (entryStep false entry) walk =
          .ok PUnit.unit between ∧ BCDB.SameStore walk.bcdb between.bcdb := by
        by_cases zero : entry.1 = 0
        · exact ⟨walk, runIf_eq_ok_iff.mpr (.inr ⟨fun nonzero => nonzero zero, rfl⟩),
            .refl _⟩
        · obtain ⟨between, done⟩ :=
            entryStep_false_of_current (current entry List.mem_cons_self zero)
          exact ⟨between, runIf_eq_ok_iff.mpr (.inl ⟨zero, done⟩),
            (entryStep_false_eq_ok done).1⟩
      obtain ⟨between, done, same⟩ := first
      have others : ∀ entry ∈ rest, entry.1 ≠ 0 → between.bcdb.Current entry.2 := by
        intro entry member nonzero
        have before := current entry (List.mem_cons_of_mem _ member) nonzero
        unfold BCDB.Current at before ⊢
        rwa [same.schemaFactory]
      obtain ⟨reached, later⟩ := induction others
      refine ⟨reached, ?_⟩
      change (step false (.pair entry.1 entry.2) >>= fun _ =>
        (rest.map (fun entry => StorItem.pair entry.1 entry.2)).forM (step false))
        walk = _
      rw [step_pair, seq_of_ok done, later]

theorem iterate_false_eq_ok_iff {keyStart : Option Nat} {bcdb : BCDB} {reached : Walk} :
    iterate keyStart false ⟨bcdb, []⟩ = .ok PUnit.unit reached ↔
      (bcdb.storclient.type = .SDB → keyStart.getD 0 < 2 ^ 63) ∧
        ((bcdb.storclient.walkEntries keyStart).map
          (fun entry => StorItem.pair entry.1 entry.2)).forM (step false)
            ⟨bcdb, []⟩ = .ok PUnit.unit reached := by
  simp only [iterate, get_seq, seq_eq_ok_iff, attempt_eq_ok_iff, StorClient.walk,
    bind_eq_ok_iff, ensure_eq_ok_iff, pure_eq_ok_iff, Bool.false_eq_true, and_false,
    if_false]
  constructor
  · intro done
    obtain ⟨_, _, ⟨⟨_, small, rfl⟩, rfl⟩, done⟩ := done
    exact ⟨small, done⟩
  · intro done
    exact ⟨_, _, ⟨⟨PUnit.unit, done.1, rfl⟩, rfl⟩, done.2⟩

end Walk

namespace BCDB

variable {bcdb : BCDB} {keyStart : Option Nat}

theorem ReadAs.itemOf {entry : Nat × Stored} {item : Yielded}
    (current : bcdb.Current entry.2) (read : Walk.ReadAs bcdb entry item) :
    bcdb.ItemOf false entry item := by
  obtain ⟨_, _, isRecord, _⟩ := current
  rcases read with ⟨padding, _⟩ | ⟨record, schema, same, known, _, read⟩
  · rw [isRecord] at padding
    cases padding
  · exact ⟨record, schema, same, known, read⟩

/-- The entries that are met, past the first one. -/
def walkedEntries (bcdb : BCDB) (keyStart : Option Nat) : List (Nat × Stored) :=
  (bcdb.storclient.walkEntries keyStart).filter (fun entry => entry.1 ≠ 0)

theorem mem_walkedEntries_SDB {entry : Nat × Stored}
    (kind : bcdb.storclient.type = .SDB) :
    entry ∈ bcdb.walkedEntries keyStart ↔
      bcdb.storclient.get entry.1 = some entry.2 ∧ keyStart.getD 0 ≤ entry.1 + 1 ∧
        entry.1 ≠ 0 := by
  simp only [walkedEntries, List.mem_filter, decide_eq_true_eq,
    StorClient.mem_walkEntries_SDB kind, and_assoc]

theorem mem_walkedEntries_RDB {entry : Nat × Stored}
    (kind : bcdb.storclient.type = .RDB) :
    entry ∈ bcdb.walkedEntries keyStart ↔
      bcdb.storclient.get entry.1 = some entry.2 ∧ keyStart.getD 0 ≤ entry.1 ∧
        (bcdb.storclient.incr ≠ 0 ∧ entry.1 ≤ bcdb.storclient.incr) ∧
        entry.2.truthy = true ∧ entry.1 ≠ 0 := by
  simp only [walkedEntries, List.mem_filter, decide_eq_true_eq,
    StorClient.mem_walkEntries_RDB kind, and_assoc]

theorem walkedEntries_sorted (bcdb : BCDB) (keyStart : Option Nat) :
    (bcdb.walkedEntries keyStart).Pairwise (fun left right => left.1 < right.1) := by
  apply List.Pairwise.filter
  unfold StorClient.walkEntries
  split
  · exact bcdb.storclient.kvs.sorted.filter _
  · exact bcdb.storclient.kvs.sorted.filter _

theorem itemEntries_sorted (bcdb : BCDB) (keyStart : Option Nat) :
    (bcdb.itemEntries keyStart).Pairwise (fun left right => left.1 < right.1) :=
  (bcdb.storclient.kvs.sorted.filter _).filter _

/-- As many entries are met as are wanted only when they are the same ones. -/
theorem walkedEntries_eq_of_length
    (same : (bcdb.walkedEntries keyStart).length = (bcdb.itemEntries keyStart).length) :
    bcdb.walkedEntries keyStart = bcdb.itemEntries keyStart := by
  cases kind : bcdb.storclient.type with
  | SDB =>
      have fewer : List.Sublist (bcdb.itemEntries keyStart)
          (bcdb.walkedEntries keyStart) := by
        apply List.Sublist.filter
        rw [entriesFrom, StorClient.walkEntries]
        simp only [kind]
        apply List.monotone_filter_right
        intro entry wanted
        simp only [decide_eq_true_eq] at wanted ⊢
        omega
      exact (fewer.eq_of_length same.symm).symm
  | RDB =>
      have fewer : List.Sublist (bcdb.walkedEntries keyStart)
          (bcdb.itemEntries keyStart) := by
        apply List.Sublist.filter
        rw [entriesFrom, StorClient.walkEntries]
        simp only [kind]
        apply List.monotone_filter_right
        intro entry met
        simp only [decide_eq_true_eq] at met ⊢
        exact met.1
      exact fewer.eq_of_length same

/-- A walk that fits meets what is wanted. -/
theorem ObjectsFit.walkedEntries_eq (fits : bcdb.ObjectsFit keyStart) :
    bcdb.walkedEntries keyStart = bcdb.itemEntries keyStart := by
  obtain ⟨range, current⟩ := fits
  apply OrderedMap.pairwise_ext (walkedEntries_sorted bcdb keyStart)
    (itemEntries_sorted bcdb keyStart)
  intro entry
  cases kind : bcdb.storclient.type with
  | SDB =>
      simp only [kind] at range
      rw [mem_walkedEntries_SDB kind, mem_itemEntries]
      constructor
      · intro met
        obtain ⟨present, reached, nonzero⟩ := met
        refine ⟨present, ?_, nonzero⟩
        by_contra before
        rw [range.2 entry.1 (by omega) nonzero] at present
        cases present
      · intro wanted
        exact ⟨wanted.1, Nat.le_succ_of_le wanted.2.1, wanted.2.2⟩
  | RDB =>
      simp only [kind] at range
      rw [mem_walkedEntries_RDB kind, mem_itemEntries]
      constructor
      · intro met
        exact ⟨met.1, met.2.1, met.2.2.2.2⟩
      · intro wanted
        obtain ⟨present, reached, nonzero⟩ := wanted
        obtain ⟨record, _, isRecord, _⟩ :=
          current entry.1 entry.2 present nonzero reached
        exact ⟨present, reached, range entry.1 entry.2 present nonzero reached,
          by rw [isRecord]; rfl, nonzero⟩

/-- A walk that meets what is wanted, and all of it current, fits. -/
theorem objectsFit_of_walkedEntries
    (small : bcdb.storclient.type = .SDB → keyStart.getD 0 < 2 ^ 63)
    (same : bcdb.walkedEntries keyStart = bcdb.itemEntries keyStart)
    (current : ∀ entry ∈ bcdb.itemEntries keyStart, bcdb.Current entry.2) :
    bcdb.ObjectsFit keyStart := by
  constructor
  · cases kind : bcdb.storclient.type with
    | SDB =>
        refine ⟨small kind, ?_⟩
        intro key before nonzero
        cases present : bcdb.storclient.get key with
        | none => rfl
        | some data =>
            have met : (key, data) ∈ bcdb.walkedEntries keyStart :=
              (mem_walkedEntries_SDB kind).mpr ⟨present, by omega, nonzero⟩
            rw [same, mem_itemEntries] at met
            have reached : keyStart.getD 0 ≤ key := met.2.1
            omega
    | RDB =>
        intro key data present nonzero reached
        have met : (key, data) ∈ bcdb.walkedEntries keyStart := by
          rw [same]
          exact mem_itemEntries.mpr ⟨present, reached, nonzero⟩
        exact ((mem_walkedEntries_RDB kind).mp met).2.2.1
  · intro key data present nonzero reached
    exact current (key, data) (mem_itemEntries.mpr ⟨present, reached, nonzero⟩)

theorem current_of_items {entries : List (Nat × Stored)} {items : List Yielded}
    (wanted : List.Forall₂ (bcdb.ItemOf false) entries items)
    (read : List.Forall₂ (Walk.ReadAs bcdb) entries items) :
    ∀ entry ∈ entries, bcdb.Current entry.2 := by
  induction wanted with
  | nil =>
      intro entry member
      cases member
  | cons wantedItem _ induction =>
      cases read with
      | cons readItem others =>
          refine List.forall_mem_cons.mpr ⟨?_, induction others⟩
          obtain ⟨record, _, isRecord, _⟩ := wantedItem
          rcases readItem with ⟨padding, _⟩ | ⟨other, schema, same, known, newest, _⟩
          · rw [isRecord] at padding
            cases padding
          · exact ⟨other, schema, same, known, newest⟩

theorem items_of_current {entries : List (Nat × Stored)} {items : List Yielded}
    (read : List.Forall₂ (Walk.ReadAs bcdb) entries items)
    (current : ∀ entry ∈ entries, bcdb.Current entry.2) :
    List.Forall₂ (bcdb.ItemOf false) entries items := by
  induction read with
  | nil => exact .nil
  | cons readItem _ induction =>
      obtain ⟨first, others⟩ := List.forall_mem_cons.mp current
      exact .cons (ReadAs.itemOf first readItem) (induction others)

/-- A walk for objects is exact when it starts behind no record, and reaches
records of newest versions only. -/
theorem iteratesExactly_objects_iff (bcdb : BCDB) (keyStart : Option Nat) :
    bcdb.IteratesExactly keyStart false ↔ bcdb.ObjectsFit keyStart := by
  unfold IteratesExactly
  simp only [Walk.iterate_false_eq_ok_iff]
  constructor
  · intro walked
    obtain ⟨reached, ⟨small, done⟩, wanted⟩ := walked
    obtain ⟨items, yielded, read⟩ := Walk.forM_step_eq_ok done
    rw [List.nil_append] at yielded
    rw [yielded] at wanted
    have same : bcdb.walkedEntries keyStart = bcdb.itemEntries keyStart :=
      walkedEntries_eq_of_length (by rw [wanted.length_eq]; exact read.length_eq)
    apply objectsFit_of_walkedEntries small same
    change List.Forall₂ _ (bcdb.walkedEntries keyStart) _ at read
    rw [same] at read
    exact current_of_items wanted read
  · intro fits
    have same := fits.walkedEntries_eq
    have small : bcdb.storclient.type = .SDB → keyStart.getD 0 < 2 ^ 63 := by
      intro kind
      have range := fits.1
      simp only [kind] at range
      exact range.1
    have current : ∀ entry ∈ bcdb.itemEntries keyStart, bcdb.Current entry.2 := by
      intro entry member
      obtain ⟨present, reached, nonzero⟩ := mem_itemEntries.mp member
      exact fits.2 entry.1 entry.2 present nonzero reached
    have walkable : ∀ entry ∈ bcdb.storclient.walkEntries keyStart, entry.1 ≠ 0 →
        (Walk.mk bcdb []).bcdb.Current entry.2 := by
      intro entry member nonzero
      apply current entry
      rw [← same]
      exact List.mem_filter.mpr ⟨member, decide_eq_true nonzero⟩
    obtain ⟨reached, done⟩ := Walk.forM_step_of_current walkable
    obtain ⟨items, yielded, read⟩ := Walk.forM_step_eq_ok done
    rw [List.nil_append] at yielded
    refine ⟨reached, ⟨small, done⟩, ?_⟩
    rw [yielded]
    apply items_of_current _ current
    rw [← same]
    exact read

end BCDB

/-! ## Both back ends -/

/-- The walks and the lists of both clients, and the walks of a database, yield
exactly the entries from a key on. -/
structure IteratesExactly (db : DBSQLite) (client : RDBClient) (bcdb : BCDB)
    (keyStart : Option Nat) : Prop where
  sqlite : db.iterate keyStart =
    .ok ((entriesFrom db.contents keyStart).map (fun entry => (entry.1, some entry.2)))
  sqliteList : db.list keyStart = .ok ((entriesFrom db.contents keyStart).map Prod.fst)
  redis : client.iterate keyStart = entriesFrom client.contents keyStart
  redisList : client.list keyStart = (entriesFrom client.contents keyStart).map Prod.fst
  database : ∀ keyonly, bcdb.IteratesExactly keyStart keyonly

/-- The conditions under which all walks are exact. -/
structure IterationFits (db : DBSQLite) (client : RDBClient) (bcdb : BCDB)
    (keyStart : Option Nat) : Prop where
  sqlite : keyStart.getD 0 < 2 ^ 63 ∧
    ∀ key, key + 1 = keyStart.getD 0 → db.contents.lookup key = none
  sqliteList : keyStart.getD 0 = 0 ∨ keyStart.getD 0 + 1 < 2 ^ 63
  redis : ∀ key data, client.contents.lookup key = some data →
    keyStart.getD 0 ≤ key → client.Reaches key ∧ data ≠ []
  keys : bcdb.KeysFit keyStart
  objects : bcdb.ObjectsFit keyStart

/-- The walks are exact under these conditions and under no others. -/
theorem iteratesExactly_iff (db : DBSQLite) (client : RDBClient) (bcdb : BCDB)
    (keyStart : Option Nat) :
    IteratesExactly db client bcdb keyStart ↔ IterationFits db client bcdb keyStart := by
  constructor
  · intro exactly
    constructor
    · exact DBSQLite.iterate_exact_iff.mp exactly.sqlite
    · exact DBSQLite.list_exact_iff.mp exactly.sqliteList
    · exact RDBClient.iterate_exact_iff.mp exactly.redis
    · exact (BCDB.iteratesExactly_keys_iff bcdb keyStart).mp (exactly.database true)
    · exact (BCDB.iteratesExactly_objects_iff bcdb keyStart).mp (exactly.database false)
  · intro fits
    constructor
    · exact DBSQLite.iterate_exact_iff.mpr fits.sqlite
    · exact DBSQLite.list_exact_iff.mpr fits.sqliteList
    · exact RDBClient.iterate_exact_iff.mpr fits.redis
    · exact RDBClient.list_exact_iff.mpr fits.redis
    · intro keyonly
      cases keyonly with
      | true => exact (BCDB.iteratesExactly_keys_iff bcdb keyStart).mpr fits.keys
      | false => exact (BCDB.iteratesExactly_objects_iff bcdb keyStart).mpr fits.objects

/-- Three values that were set in turn. -/
def threeValues : DBSQLite :=
  finals DBSQLite.perform
    [.set [73, 78, 73, 84] none, .set [114] none, .set [98] none] .empty

/-- The walk from the key two yields the key one as well. -/
theorem iterate_threeValues_starts_early :
    ¬ IteratesExactly threeValues .empty (.init .SDB (.ofList [] (by decide)))
      (some 2) := by
  intro exactly
  have sqlite := exactly.sqlite
  revert sqlite
  decide

end JumpscaleX
