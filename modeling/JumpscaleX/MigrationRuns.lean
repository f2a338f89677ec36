import Mathlib.Data.List.ReduceOption
import JumpscaleX.Library.Selection
import JumpscaleX.Migration
import JumpscaleX.Namespace
import JumpscaleX.StorageKeys

/-!
# Runs of a migration

`migrate_models` opens the two models, finds the objects of the source and moves
them one after the other.
-/

namespace JumpscaleX

open Fallible Stateful

/-! ## The store -/

namespace StorClient

/-- The first entry is there, and all ids lie below the next one. -/
structure Ready (client : StorClient) : Prop where
  marked : ∃ data, client.get 0 = some data
  below : ∀ id data, client.get id = some data → id < client.nextId

variable {client reached : StorClient}

theorem Ready.room (ready : client.Ready) : client.Room 1 := by
  constructor
  · obtain ⟨data, first⟩ := ready.marked
    exact Nat.ne_of_gt (ready.below 0 data first)
  · intro k below
    rw [Nat.lt_one_iff.mp below, Nat.add_zero]
    cases found : client.get client.nextId with
    | none => rfl
    | some data => exact (Nat.lt_irrefl _ (ready.below _ data found)).elim

/-- A new value leaves a store ready. -/
theorem Ready.stores (ready : client.Ready) {id : Nat} {data : Stored}
    (stores : Stores none id data client reached) : reached.Ready := by
  obtain ⟨kvs, _, isNext⟩ := stores.kvs (fun _ => ready.room.1)
  have lookup : ∀ other, reached.get other =
      if other = id then some data else client.get other := by
    intro other
    rw [StorClient.get, kvs, OrderedMap.lookup_insert]
    rfl
  constructor
  · obtain ⟨first, isFirst⟩ := ready.marked
    rw [lookup]
    split
    · exact ⟨data, rfl⟩
    · exact ⟨first, isFirst⟩
  · intro other value present
    have raised := stores.nextId_lt
    rw [lookup] at present
    split at present
    · rename_i same
      rw [same, isNext rfl]
      exact raised
    · exact (ready.below other value present).trans raised

/-- So does the deletion of a value behind the first one. -/
theorem Ready.erase (ready : client.Ready) {id : Nat} (notFirst : id ≠ 0) :
    ({ client with kvs := client.kvs.erase id } : StorClient).Ready := by
  have lookup : ∀ other, ({ client with kvs := client.kvs.erase id } : StorClient).get other =
      if other = id then none else client.get other :=
    fun other => OrderedMap.lookup_erase _ id other
  constructor
  · rw [lookup, if_neg notFirst.symm]
    exact ready.marked
  · intro other value present
    by_cases kind : client.type = .SDB
    · exact lt_nextId (by exact kind) present
    · have isRedis : client.type = .RDB := by
        cases type : client.type with
        | SDB => exact (kind type).elim
        | RDB => rfl
      rw [lookup] at present
      split at present
      · cases present
      · have below := ready.below other value present
        rw [nextId_RDB isRedis] at below
        rw [nextId_RDB (by exact isRedis)]
        exact below

end StorClient

/-- The contents of two models are what their tables and the store say. -/
theorem BCDB.Contains.ext {bcdb : BCDB} {fromKey toKey : String}
    {source source' target target' : Nat → Option Record}
    (first : bcdb.Contains fromKey toKey source target)
    (second : bcdb.Contains fromKey toKey source' target') :
    source = source' ∧ target = target' := by
  have same : ∀ {rows : Nat → Bool} {records records' : Nat → Option Record},
      (∀ id, rows id = (records id).isSome) → (∀ id, rows id = (records' id).isSome) →
      (∀ id record, records id = some record →
        bcdb.storclient.get id = some (.record record)) →
      (∀ id record, records' id = some record →
        bcdb.storclient.get id = some (.record record)) → records = records' := by
    intro rows records records' isSome isSome' stored stored'
    funext id
    have both := (isSome id).symm.trans (isSome' id)
    cases found : records id with
    | none =>
        rw [found] at both
        cases found' : records' id with
        | none => rfl
        | some record =>
            rw [found'] at both
            cases both
    | some record =>
        rw [found] at both
        cases found' : records' id with
        | none =>
            rw [found'] at both
            cases both
        | some record' =>
            have equal := (stored id record found).symm.trans (stored' id record' found')
            cases equal
            rfl
  obtain ⟨table, present, rows⟩ := first.fromTable
  obtain ⟨table', present', rows'⟩ := second.fromTable
  rw [present, Option.some.injEq] at present'
  subst present'
  obtain ⟨toTable, toPresent, toRows⟩ := first.toTable
  obtain ⟨toTable', toPresent', toRows'⟩ := second.toTable
  rw [toPresent, Option.some.injEq] at toPresent'
  subst toPresent'
  exact ⟨same rows rows' first.fromRecords second.fromRecords,
    same toRows toRows' first.toRecords second.toRecords⟩

/-! ## Two models -/

/-- A database with two models that store their objects, and what the tables and
the store hold of them.  `generateXCharID` gives the texts for each object. -/
structure Migration where
  bcdb : BCDB
  fromUrl : Url
  toUrl : Url
  fromModel : Model
  toModel : Model
  fromSchema : Schema
  toSchema : Schema
  generateXCharID : Nat → String → String
  source : Nat → Option Record
  target : Nat → Option Record
  fromFound : bcdb.models.find fromUrl = some fromModel
  toFound : bcdb.models.find toUrl = some toModel
  fromKnown : bcdb.schemaFactory.schemasMd5 fromModel.schema.md5 = some fromModel.schema
  toKnown : bcdb.schemaFactory.schemasMd5 toModel.schema.md5 = some toModel.schema
  fromNewest : bcdb.schemaFactory.schemasLoaded fromUrl = some fromSchema
  toNewest : bcdb.schemaFactory.schemasLoaded toUrl = some toSchema
  fromStored : fromModel.nosave = false
  toStored : toModel.nosave = false
  keysApart : fromSchema.key ≠ toSchema.key
  numbered : (toSchema.properties.map SchemaProperty.nr).Nodup
  contains : bcdb.Contains fromSchema.key toSchema.key source target
  named : ∀ id record, source id = some record →
    id ≠ 0 ∧ (record.bdata.objId = 0 ∨ record.bdata.objId = id)
  ready : bcdb.storclient.Ready

namespace Migration

variable (migration : Migration)

/-- The object that a record of the source is read as. -/
def obj (id : Nat) (record : Record) : JSXObject :=
  record.read id migration.fromSchema

/-- The record keeps the object of the source. -/
def KeptBy (id : Nat) (record made : Record) : Prop :=
  KeptAs migration.fromSchema migration.toSchema (migration.generateXCharID id)
    (migration.obj id record) made

/-- Each object of the source is portable, and its model deletes what it is
asked to, as all but the one of the ACLs do. -/
def AllPortable : Prop :=
  ∀ id record, migration.source id = some record →
    migration.fromUrl ≠ aclUrl ∧
      Portable migration.fromSchema migration.toSchema (migration.generateXCharID id)
        (migration.obj id record)

/-- The source is empty, and the target has one more object for each that the
source had, in the same order, which keeps it. -/
def Moved (reached : BCDB) : Prop :=
  ∃ (target : Nat → Option Record) (ids newIds : List Nat),
    reached.Contains migration.fromSchema.key migration.toSchema.key (fun _ => none) target ∧
    Selection.Ascending id ids ∧ (∀ id, id ∈ ids ↔ migration.source id ≠ none) ∧
    Selection.Ascending id newIds ∧
    List.Forall₂ (fun id newId => migration.target newId = none ∧ ∃ record made,
      migration.source id = some record ∧ target newId = some made ∧
        migration.KeptBy id record made) ids newIds ∧
    ∀ other, other ∉ newIds → target other = migration.target other

/-- Each object that the source had is there still, or a new object of the
target keeps it. -/
def Kept (reached : BCDB) : Prop :=
  ∃ source target, reached.Contains migration.fromSchema.key migration.toSchema.key
      source target ∧
    ∀ id record, migration.source id = some record →
      source id = some record ∨
        ∃ newId made, migration.target newId = none ∧ target newId = some made ∧
          migration.KeptBy id record made

/-! ## Opening the models -/

/-- The models are open under the newest versions of their schemas, and hold the
given records. -/
structure Opened (source target : Nat → Option Record) (bcdb : BCDB) : Prop where
  fromFound : bcdb.models.find migration.fromUrl =
    some { migration.fromModel with schema := migration.fromSchema }
  toFound : bcdb.models.find migration.toUrl =
    some { migration.toModel with schema := migration.toSchema }
  schemaFactory : bcdb.schemaFactory = migration.bcdb.schemaFactory
  contains : bcdb.Contains migration.fromSchema.key migration.toSchema.key source target
  ready : bcdb.storclient.Ready

end Migration

/-- `model_get` brings an open model to the newest version of its schema. -/
theorem modelGetUrl_total {bcdb : BCDB} {url : Url} {model : Model} {newest : Schema}
    (found : bcdb.models.find url = some model)
    (known : bcdb.schemaFactory.schemasMd5 model.schema.md5 = some model.schema)
    (loaded : bcdb.schemaFactory.schemasLoaded url = some newest) :
    modelGetUrl url bcdb = .ok () (bcdb.schemaChange newest) ∧
      ∀ other, (bcdb.schemaChange newest).models.find other =
        if other = url then some { model with schema := newest }
        else bcdb.models.find other := by
  have isUrl : newest.url = url := bcdb.schemaFactory.urlNamed loaded
  have foundNewest : bcdb.models.find newest.url = some model := by
    rw [isUrl]
    exact found
  constructor
  · refine advance_eq_ok_iff.mpr (bind_eq_ok_iff.mpr ⟨newest, ?_, ?_⟩)
    · exact SchemaFactory.getFromUrl_eq_ok_iff.mpr loaded
    · rw [BCDB.modelGet, foundNewest]
  · intro other
    by_cases current : model.schema.md5 = newest.md5
    · have same : model.schema = newest := by
        have newestKnown := bcdb.schemaFactory.loadedKnown loaded
        rw [← current, known] at newestKnown
        exact Option.some.inj newestKnown
      rw [BCDB.schemaChange_eq_self foundNewest current, ← same]
      by_cases isModel : other = url
      · rw [if_pos isModel, isModel, found]
      · rw [if_neg isModel]
    · have changed : bcdb.schemaChange newest =
          { bcdb with models := bcdb.models.add { model with schema := newest } } := by
        rw [BCDB.schemaChange, foundNewest]
        exact if_neg current
      rw [changed]
      change (bcdb.models.add { model with schema := newest }).find other = _
      rw [Models.find_add, isUrl]

namespace Migration

variable (migration : Migration)

/-- The two models are opened, and what they hold stays. -/
theorem migrateModels_eq : ∃ opened,
    migration.Opened migration.source migration.target opened ∧
      migrateModels migration.fromUrl migration.toUrl migration.generateXCharID
          migration.bcdb =
        (BCDBModel.find migration.fromUrl none [] >>= fun objs =>
          objs.forM (migrateObj migration.fromUrl migration.toUrl
            migration.generateXCharID)) opened := by
  have closed := BCDB.Contains.closedOpen migration.fromSchema.key migration.toSchema.key
    migration.source migration.target
  have fromUrl : migration.fromSchema.url = migration.fromUrl :=
    migration.bcdb.schemaFactory.urlNamed migration.fromNewest
  have toUrl : migration.toSchema.url = migration.toUrl :=
    migration.bcdb.schemaFactory.urlNamed migration.toNewest
  have apart : migration.toUrl ≠ migration.fromUrl := by
    intro same
    apply migration.keysApart
    rw [Schema.key_eq, Schema.key_eq, fromUrl, toUrl, same]
  obtain ⟨first, firstFinds⟩ := modelGetUrl_total migration.fromFound migration.fromKnown
    migration.fromNewest
  have sameFactory :=
    (BCDB.schemaChange_sameStore migration.bcdb migration.fromSchema).schemaFactory
  have toFound : (migration.bcdb.schemaChange migration.fromSchema).models.find
      migration.toUrl = some migration.toModel := by
    rw [firstFinds, if_neg apart]
    exact migration.toFound
  have toKnown := migration.toKnown
  have toNewest := migration.toNewest
  rw [← sameFactory] at toKnown toNewest
  obtain ⟨second, secondFinds⟩ := modelGetUrl_total toFound toKnown toNewest
  have same := (BCDB.schemaChange_sameStore migration.bcdb migration.fromSchema).trans
    (BCDB.schemaChange_sameStore _ migration.toSchema)
  refine ⟨_, ⟨?_, ?_, same.schemaFactory, ?_, ?_⟩, ?_⟩
  · rw [secondFinds, if_neg apart.symm, firstFinds, if_pos rfl]
  · rw [secondFinds, if_pos rfl]
  · exact closed.schemaChange _ _ (closed.schemaChange _ _ migration.contains)
  · rw [same.storclient]
    exact migration.ready
  · rw [migrateModels, seq_of_ok first, seq_of_ok second]

/-! ## The objects of the source -/

/-- The objects of the given ids, in ascending order. -/
structure Objects (ids : List Nat) (objs : List JSXObject) : Prop where
  ascending : Selection.Ascending id ids
  complete : ∀ id, id ∈ ids ↔ migration.source id ≠ none
  read : List.Forall₂ (fun id obj => ∃ record, migration.source id = some record ∧
    obj = migration.obj id record) ids objs

end Migration

/-- A query finds its ids in ascending order. -/
theorem BCDBModel.findIds_ascending {url : Url} {nid : Option Nat} {kwargs : DataDict}
    {bcdb : BCDB} {ids : List Nat} (done : findIds url nid kwargs bcdb = .ok ids) :
    Selection.Ascending id ids := by
  simp only [findIds, bind_eq_ok_iff, pure_eq_ok_iff] at done
  obtain ⟨table, _, values, _, _, _, rfl⟩ := done
  exact List.pairwise_map.mpr (table.rows.map.sorted.filter _)

/-- The values that a walk does not pass over. -/
theorem forall₂_filterMap_id {α β : Type} {relation : α → β → Prop} {items : List α}
    {values : List (Option β)}
    (pointwise : List.Forall₂ (fun item value => ∃ present, value = some present ∧
      relation item present) items values) :
    List.Forall₂ relation items (values.filterMap id) := by
  induction pointwise with
  | nil => exact .nil
  | cons first _ induction =>
      obtain ⟨present, rfl, related⟩ := first
      exact .cons related induction

/-- Each item of the first list is related to one of the second. -/
theorem forall₂_partner {α β : Type} {relation : α → β → Prop} {items : List α}
    {values : List β} (pointwise : List.Forall₂ relation items values) {item : α}
    (member : item ∈ items) : ∃ value ∈ values, relation item value := by
  induction pointwise with
  | nil => cases member
  | cons first _ induction =>
      rcases List.mem_cons.mp member with rfl | member
      · exact ⟨_, List.mem_cons_self, first⟩
      · obtain ⟨value, inValues, related⟩ := induction member
        exact ⟨value, List.mem_cons_of_mem _ inValues, related⟩

namespace Migration

variable {migration : Migration} {source target : Nat → Option Record} {bcdb : BCDB}

/-- An object of an opened source model is not passed over, and is read from its
record. -/
theorem Opened.getOrSkip (opened : migration.Opened source target bcdb) {id : Nat}
    {record : Record} (found : source id = some record) {obj? : Option JSXObject}
    (done : BCDBModel.getOrSkip migration.fromUrl id bcdb = .ok obj? bcdb) :
    ∃ obj, obj? = some obj ∧ obj = migration.obj id record := by
  have stored := opened.contains.fromRecords id record found
  unfold BCDBModel.getOrSkip at done
  split at done
  · rename_i obj between outcome
    cases done
    refine ⟨obj, rfl, ?_⟩
    obtain ⟨_, model, record', loaded, _, _, stored', loads, isUrl, _, rfl⟩ :=
      BCDBModel.get_eq_ok outcome
    rw [Option.getD_some, stored] at stored'
    cases stored'
    obtain ⟨schema, newest, _, isNewest, rfl⟩ := SchemaFactory.loads_eq_ok_iff.mp loads
    have sameUrl : schema.url = migration.fromUrl :=
      (bcdb.schemaFactory.urlNamed isNewest).symm.trans isUrl
    rw [sameUrl, opened.schemaFactory, migration.fromNewest, Option.some.injEq] at isNewest
    subst isNewest
    have isFrom : migration.fromSchema.url = migration.fromUrl :=
      migration.bcdb.schemaFactory.urlNamed migration.fromNewest
    rw [Migration.obj, Record.read, isFrom]
    rfl
  · rename_i message between outcome
    obtain ⟨_, problem, absent⟩ := BCDBModel.get_eq_notFound outcome
    simp [BCDBModel.storedData, stored, Stored.truthy] at absent
  · cases done

/-- The source is found whole. -/
theorem Opened.find (opened : migration.Opened migration.source target bcdb)
    {objs : List JSXObject} {reached : BCDB}
    (done : BCDBModel.find migration.fromUrl none [] bcdb = .ok objs reached) :
    reached = bcdb ∧ ∃ ids, migration.Objects ids objs := by
  have same := (BCDBModel.find_reads migration.fromUrl none [] bcdb objs reached done).symm
  refine ⟨same, ?_⟩
  simp only [BCDBModel.find, seq_eq_ok_iff, query_eq_ok_iff, return_eq_ok_iff] at done
  obtain ⟨ids, _, ⟨asked, rfl⟩, values, _, walked, rfl, _⟩ := done
  have isUrl : migration.fromSchema.url = migration.fromUrl :=
    migration.bcdb.schemaFactory.urlNamed migration.fromNewest
  have complete : ∀ id, id ∈ ids ↔ migration.source id ≠ none := by
    intro id
    rw [(BCDBModel.mem_findIds asked).2, BCDBModel.matches_nil]
    obtain ⟨table, present, rows⟩ := opened.contains.fromTable
    have isRow : (∃ row, bcdb.rowAt migration.fromUrl id = some row) ↔
        (table.lookup id).isSome = true := by
      rw [Option.isSome_iff_exists]
      apply exists_congr
      intro row
      rw [BCDB.rowAt_eq_some_iff]
      constructor
      · rintro ⟨model, table', found, present', lookup⟩
        rw [opened.fromFound, Option.some.injEq] at found
        subst found
        change bcdb.tables migration.fromSchema.key = some table' at present'
        rw [present, Option.some.injEq] at present'
        subst present'
        exact lookup
      · intro lookup
        exact ⟨_, table, opened.fromFound, present, lookup⟩
    rw [isRow, rows, Option.isSome_iff_ne_none]
  have pointwise := ((mapM_eq_ok_iff
    (fun id _ => BCDBModel.getOrSkip_reads migration.fromUrl id)).mp walked).2
  refine ⟨ids, BCDBModel.findIds_ascending asked, complete, forall₂_filterMap_id ?_⟩
  have inSource : ∀ id ∈ ids, ∀ value,
      BCDBModel.getOrSkip migration.fromUrl id bcdb = .ok value bcdb →
        ∃ obj, value = some obj ∧
          ∃ record, migration.source id = some record ∧ obj = migration.obj id record := by
    intro id member value done
    obtain ⟨record, found⟩ := Option.ne_none_iff_exists'.mp ((complete id).mp member)
    obtain ⟨obj, isObj, read⟩ := opened.getOrSkip found done
    exact ⟨obj, isObj, record, found, read⟩
  clear walked asked complete
  induction pointwise with
  | nil => exact .nil
  | cons first _ induction =>
      exact .cons (inSource _ List.mem_cons_self _ first)
        (induction (fun id member => inSource id (List.mem_cons_of_mem _ member)))

/-! ## One object after the other -/

theorem obj_id {id : Nat} {record : Record} (found : migration.source id = some record) :
    (migration.obj id record).id = some id :=
  Record.read_id (migration.named id record found).1 (migration.named id record found).2

theorem Objects.ids {ids : List Nat} {objs : List JSXObject}
    (objects : migration.Objects ids objs) : objs.map JSXObject.id = ids.map some := by
  have read := objects.read
  clear objects
  induction read with
  | nil => rfl
  | cons first _ induction =>
      obtain ⟨record, found, rfl⟩ := first
      rw [List.map_cons, List.map_cons, induction, obj_id found]

variable (migration) in
/-- The model of the target while the objects are moved. -/
def opensTo : Model :=
  { migration.toModel with schema := migration.toSchema }

variable (migration) in
/-- What the source holds when the given objects were moved.  The model of the
ACLs keeps them. -/
def left (front : List JSXObject) (id : Nat) : Option Record :=
  if migration.fromUrl ≠ aclUrl ∧ some id ∈ front.map JSXObject.id then none
  else migration.source id

variable (migration) in
/-- What the target holds after the moves, of which some stored nothing. -/
def filled (moves : List (Option (Nat × Record))) (id : Nat) : Option Record :=
  (migration.target id).or (moves.reduceOption.lookup id)

variable (migration) in
/-- The moves of the objects: the ids are new and ascend. -/
structure Moves (front : List JSXObject) (moves : List (Option (Nat × Record))) : Prop where
  made : List.Forall₂ (fun obj move =>
    migratedRecord migration.fromSchema migration.toUrl migration.opensTo
      (migration.generateXCharID (obj.id.getD 0)) obj = .ok (move.map Prod.snd)) front moves
  fresh : ∀ entry ∈ moves.reduceOption, migration.target entry.1 = none
  ascending : Selection.Ascending Prod.fst moves.reduceOption

/-- The entry under a key of a list with ascending keys. -/
theorem lookup_of_mem {entries : List (Nat × Record)}
    (ascending : Selection.Ascending Prod.fst entries) {id : Nat} {record : Record}
    (member : (id, record) ∈ entries) : entries.lookup id = some record := by
  obtain ⟨before, behind, rfl⟩ := List.append_of_mem member
  refine List.lookup_eq_some_iff.mpr ⟨before, behind, rfl, ?_⟩
  intro other inFront
  have below := (Selection.ascending_append.mp ascending).2.2 other inFront (id, record)
    List.mem_cons_self
  simpa using Nat.ne_of_gt below

theorem mem_of_lookup {entries : List (Nat × Record)} {id : Nat} {record : Record}
    (found : entries.lookup id = some record) : (id, record) ∈ entries := by
  obtain ⟨before, behind, rfl, _⟩ := List.lookup_eq_some_iff.mp found
  exact List.mem_append_right _ List.mem_cons_self

/-- A move goes behind the others when its id lies above theirs. -/
theorem Moves.concat {front : List JSXObject} {moves : List (Option (Nat × Record))}
    (done : migration.Moves front moves) {obj : JSXObject} {move : Option (Nat × Record)}
    (made : migratedRecord migration.fromSchema migration.toUrl migration.opensTo
      (migration.generateXCharID (obj.id.getD 0)) obj = .ok (move.map Prod.snd))
    (fresh : ∀ entry, move = some entry → migration.target entry.1 = none)
    (above : ∀ entry, move = some entry → ∀ other ∈ moves.reduceOption, other.1 < entry.1) :
    migration.Moves (front ++ [obj]) (moves ++ [move]) := by
  refine ⟨List.rel_append done.made (.cons made .nil), ?_, ?_⟩
  · intro entry member
    rw [List.reduceOption_append, List.mem_append] at member
    rcases member with earlier | last
    · exact done.fresh entry earlier
    · rw [List.reduceOption_mem_iff, List.mem_singleton] at last
      exact fresh entry last.symm
  · rw [List.reduceOption_append, Selection.ascending_append]
    refine ⟨done.ascending, ?_, ?_⟩
    · rw [List.reduceOption_singleton]
      cases move <;> simp [Selection.Ascending]
    · intro other earlier entry last
      rw [List.reduceOption_mem_iff, List.mem_singleton] at last
      exact above entry last.symm other earlier

theorem filled_none (moves : List (Option (Nat × Record))) :
    migration.filled (moves ++ [none]) = migration.filled moves := by
  funext id
  simp [filled, List.reduceOption_append]

/-- A new record stands under its id. -/
theorem filled_some {moves : List (Option (Nat × Record))} {id : Nat}
    (free : migration.filled moves id = none) (record : Record) :
    migration.filled (moves ++ [some (id, record)]) =
      Function.update (migration.filled moves) id (some record) := by
  funext other
  obtain ⟨noTarget, noMove⟩ := Option.or_eq_none_iff.mp free
  rw [filled, List.reduceOption_append, List.lookup_append]
  by_cases same : other = id
  · rw [same, Function.update_self, noTarget, noMove]
    simp
  · have apart : [some (id, record)].reduceOption.lookup other = none := by
      rw [List.reduceOption_singleton, Option.toList_some, List.lookup_cons,
        beq_eq_false_iff_ne.mpr same]
      rfl
    rw [Function.update_of_ne same, apart, Option.or_none]
    rfl

/-- The save of the new object is a move. -/
theorem Moves.saved {front : List JSXObject} {moves : List (Option (Nat × Record))}
    (done : migration.Moves front moves)
    (opened : migration.Opened source (migration.filled moves) bcdb) {obj new : JSXObject}
    {reached : BCDB}
    (made : migratedObj migration.fromSchema migration.toUrl migration.opensTo
      (migration.generateXCharID (obj.id.getD 0)) obj = .ok new)
    (saved : (JSXObjectRoot.mk new .none).on BCDBModel.save bcdb = .ok () reached) :
    ∃ move, migratedRecord migration.fromSchema migration.toUrl migration.opensTo
        (migration.generateXCharID (obj.id.getD 0)) obj = .ok (move.map Prod.snd) ∧
      migration.Moves (front ++ [obj]) (moves ++ [move]) ∧
      migration.Opened source (migration.filled (moves ++ [move])) reached ∧
      (move ≠ none → reached.indexReadonly = false) := by
  obtain ⟨session, saves, rfl⟩ := JSXObjectRoot.on_eq_ok saved
  have carries := migratedObj_carries made
  have stored : migration.opensTo.nosave = false := migration.toStored
  obtain ⟨unchanged, same⟩ | ⟨changed, writable, message, id, serialised, puts⟩ :=
    BCDBModel.save_eq_ok rfl carries.model opened.toFound stored saves
  · change new.changed = false at unchanged
    have nothing : migratedRecord migration.fromSchema migration.toUrl migration.opensTo
        (migration.generateXCharID (obj.id.getD 0)) obj = .ok none := by
      rw [migratedRecord, made]
      change (if new.changed = true then _ else _) = _
      rw [if_neg (by simp [unchanged])]
      rfl
    refine ⟨none, nothing, done.concat nothing (by simp) (by simp), ?_, by simp⟩
    rw [filled_none, same]
    exact opened
  · have toUrl : migration.toSchema.url = migration.toUrl :=
      migration.bcdb.schemaFactory.urlNamed migration.toNewest
    have again := new.toCapnp_again serialised
    obtain ⟨isNext, contains⟩ := opened.contains.puts migration.keysApart opened.toFound rfl
      (by exact carries.id) opened.ready.room puts again
    have isFree : bcdb.storclient.get id = none := by
      rw [isNext]
      exact opened.ready.room.2 0 Nat.zero_lt_one
    have noRecord := (opened.contains.free isFree).2
    have sameRecord : ({ new with
        capnpObj := message
        aclId := some (new.aclId.getD 0) } : JSXObject).record message =
        new.record message := by
      simp only [JSXObject.record, carries.aclId]
      rfl
    rw [sameRecord, ← filled_some noRecord] at contains
    obtain ⟨_, _, stores⟩ := puts.stores
    rw [show ({ new with
        capnpObj := message
        aclId := some (new.aclId.getD 0) } : JSXObject).id = none from carries.id] at stores
    have stands : migratedRecord migration.fromSchema migration.toUrl migration.opensTo
        (migration.generateXCharID (obj.id.getD 0)) obj = .ok (some (new.record message)) := by
      rw [migratedRecord, made]
      change (if new.changed = true then _ else _) = _
      rw [if_pos changed, show new.toCapnp = .ok message from serialised]
      rfl
    refine ⟨some (id, new.record message), stands, done.concat stands ?_ ?_,
      ⟨?_, ?_, ?_, contains, opened.ready.stores stores⟩, fun _ => ?_⟩
    · rintro entry ⟨rfl⟩
      exact (Option.or_eq_none_iff.mp noRecord).1
    · rintro entry ⟨rfl⟩ other earlier
      have inTarget : migration.filled moves other.1 = some other.2 := by
        rw [filled, done.fresh other earlier, lookup_of_mem done.ascending earlier]
        rfl
      rw [isNext]
      exact opened.ready.below other.1 _ (opened.contains.toRecords _ _ inTarget)
    · rw [puts.frame.1]
      exact opened.fromFound
    · rw [puts.frame.1]
      exact opened.toFound
    · exact puts.frame.2.trans opened.schemaFactory
    · obtain ⟨_, _, _, _, _, _, _, _, _, _, _, _, same⟩ := puts.effect
      rw [same]
      exact writable

theorem left_concat {front : List JSXObject} {id : Nat} {obj : JSXObject}
    (isId : obj.id = some id) (notAcl : migration.fromUrl ≠ aclUrl) :
    migration.left (front ++ [obj]) = Function.update (migration.left front) id none := by
  funext other
  by_cases same : other = id
  · rw [same, Function.update_self, left, if_pos]
    exact ⟨notAcl, by simp [isId]⟩
  · rw [Function.update_of_ne same, left, left, List.map_append, List.map_singleton, isId]
    simp [same]

theorem left_acl (isAcl : migration.fromUrl = aclUrl) (front : List JSXObject) :
    migration.left front = migration.source := by
  funext id
  exact if_neg (fun both => both.1 isAcl)

theorem obj_model (id : Nat) (record : Record) :
    (migration.obj id record).model = some migration.fromUrl :=
  congrArg some (migration.bcdb.schemaFactory.urlNamed migration.fromNewest)

/-- The entry of a moved object is gone. -/
theorem Opened.removed {front : List JSXObject} (opened :
    migration.Opened (migration.left front) target bcdb) {id : Nat} {record : Record}
    (found : migration.source id = some record)
    (notYet : some id ∉ front.map JSXObject.id) (notAcl : migration.fromUrl ≠ aclUrl)
    {reached : BCDB} (removes : Removes migration.fromUrl id bcdb reached) :
    migration.Opened (migration.left (front ++ [migration.obj id record])) target reached := by
  have present : migration.left front id = some record := by
    rw [left, if_neg (fun both => notYet both.2)]
    exact found
  have isSource : target id = none := by
    rcases opened.contains.apart id with absent | absent
    · rw [present] at absent
      cases absent
    · exact absent
  have contains := opened.contains.removes migration.keysApart opened.fromFound rfl isSource
    removes
  rw [← left_concat (obj_id found) notAcl] at contains
  obtain ⟨_, _, _, _, rfl⟩ := removes.effect
  exact ⟨opened.fromFound, opened.toFound, opened.schemaFactory, contains,
    opened.ready.erase (migration.named id record found).1⟩

/-- The delete of a moved object that returns. -/
theorem Opened.deleted {front : List JSXObject} (opened :
    migration.Opened (migration.left front) target bcdb) {id : Nat} {record : Record}
    (found : migration.source id = some record)
    (notYet : some id ∉ front.map JSXObject.id) {reached : BCDB}
    (done : (JSXObjectRoot.mk (migration.obj id record) .none).on BCDBModel.objDelete bcdb =
      .ok () reached) :
    migration.Opened (migration.left (front ++ [migration.obj id record])) target reached := by
  obtain ⟨session, deletes, rfl⟩ := JSXObjectRoot.on_eq_ok done
  by_cases isAcl : migration.fromUrl = aclUrl
  · have isModel : (migration.obj id record).model = some migration.fromUrl := obj_model id record
    rw [isAcl] at isModel
    have same := BCDBModel.objDelete_acl (by exact isModel) deletes
    rw [same, left_acl isAcl]
    rw [left_acl isAcl] at opened
    exact opened
  · have stored : ({ migration.fromModel with schema := migration.fromSchema } : Model).nosave =
        false := migration.fromStored
    exact opened.removed found notYet isAcl
      (BCDBModel.objDelete_removes opened.fromFound stored isAcl (obj_model id record)
        (obj_id found) deletes)

variable (migration) in
/-- The state after the given objects were moved. -/
structure Running (front : List JSXObject) (moves : List (Option (Nat × Record)))
    (bcdb : BCDB) : Prop where
  done : migration.Moves front moves
  opened : migration.Opened (migration.left front) (migration.filled moves) bcdb

/-- One object is moved. -/
theorem Running.step {front : List JSXObject} {moves : List (Option (Nat × Record))}
    (running : migration.Running front moves bcdb) {id : Nat} {record : Record}
    (found : migration.source id = some record)
    (notYet : some id ∉ front.map JSXObject.id) {reached : BCDB}
    (done : migrateObj migration.fromUrl migration.toUrl migration.generateXCharID
      (migration.obj id record) bcdb = .ok () reached) :
    ∃ move, migration.Running (front ++ [migration.obj id record]) (moves ++ [move])
      reached := by
  have asked : BCDB.model migration.fromUrl bcdb = .ok _ :=
    BCDB.model_eq_ok_iff.mpr running.opened.fromFound
  have asked' : BCDB.model migration.toUrl bcdb = .ok _ :=
    BCDB.model_eq_ok_iff.mpr running.opened.toFound
  simp only [migrateObj, seq_eq_ok_iff, query_eq_ok_iff, attempt_eq_ok_iff, asked,
    Except.ok.injEq] at done
  obtain ⟨_, _, ⟨rfl, rfl⟩, _, _, ⟨same, rfl⟩, new, _, ⟨made, rfl⟩, _, between, saved,
    deleted⟩ := done
  rw [asked', Except.ok.injEq] at same
  subst same
  obtain ⟨move, _, moved, opened, _⟩ := running.done.saved running.opened made saved
  exact ⟨move, moved, opened.deleted found notYet deleted⟩

/-- Each object is one of the source. -/
theorem Objects.mem {ids : List Nat} {objs : List JSXObject}
    (objects : migration.Objects ids objs) {obj : JSXObject} (member : obj ∈ objs) :
    ∃ id record, migration.source id = some record ∧ obj = migration.obj id record := by
  have read := objects.read
  clear objects
  induction read with
  | nil => cases member
  | @cons id _ _ _ first _ induction =>
      rcases List.mem_cons.mp member with rfl | member
      · obtain ⟨record, found, same⟩ := first
        exact ⟨id, record, found, same⟩
      · exact induction member

/-- The next object was not moved yet. -/
theorem Objects.next {ids : List Nat} {front back : List JSXObject} {obj : JSXObject}
    (objects : migration.Objects ids (front ++ obj :: back)) :
    ∃ id record, migration.source id = some record ∧ obj = migration.obj id record ∧
      some id ∉ front.map JSXObject.id := by
  have member : obj ∈ front ++ obj :: back := List.mem_append_right _ List.mem_cons_self
  obtain ⟨id, record, found, rfl⟩ := objects.mem member
  refine ⟨id, record, found, rfl, ?_⟩
  have distinct : ((front ++ migration.obj id record :: back).map JSXObject.id).Nodup := by
    rw [objects.ids]
    exact objects.ascending.nodup.map (Option.some_injective Nat)
  rw [List.map_append, List.map_cons, obj_id found, List.nodup_append] at distinct
  intro member
  exact distinct.2.2 _ member _ List.mem_cons_self rfl

theorem Objects.step {ids : List Nat} {objs : List JSXObject}
    (objects : migration.Objects ids objs) (front : List JSXObject) (obj : JSXObject)
    (back : List JSXObject) (state reached : BCDB) (value : Unit)
    (split : objs = front ++ obj :: back) (running : ∃ moves, migration.Running front moves state)
    (done : migrateObj migration.fromUrl migration.toUrl migration.generateXCharID obj state =
      .ok value reached) : ∃ moves, migration.Running (front ++ [obj]) moves reached := by
  subst split
  obtain ⟨id, record, found, rfl, notYet⟩ := objects.next
  obtain ⟨moves, running⟩ := running
  obtain ⟨move, next⟩ := running.step found notYet done
  exact ⟨moves ++ [move], next⟩

theorem Opened.start (opened : migration.Opened migration.source migration.target bcdb) :
    migration.Running [] [] bcdb := by
  refine ⟨⟨.nil, by simp, .nil⟩, ?_⟩
  have all : migration.left [] = migration.source := by
    funext id
    simp [left]
  have none : migration.filled [] = migration.target := by
    funext id
    simp [filled]
  rw [all, none]
  exact opened

/-! ## What the moves keep -/

/-- The record that a move made stands in the target. -/
theorem Moves.stands {front : List JSXObject} {moves : List (Option (Nat × Record))}
    (done : migration.Moves front moves) {id : Nat} {made : Record}
    (member : some (id, made) ∈ moves) :
    migration.target id = none ∧ migration.filled moves id = some made := by
  have inMade := List.reduceOption_mem_iff.mpr member
  refine ⟨done.fresh _ inMade, ?_⟩
  rw [filled, done.fresh _ inMade, lookup_of_mem done.ascending inMade]
  rfl

/-- The record that a move made keeps its object exactly when this is portable. -/
theorem portable_iff_kept {id : Nat} {record : Record} {move : Option (Nat × Record)}
    (found : migration.source id = some record)
    (made : migratedRecord migration.fromSchema migration.toUrl migration.opensTo
      (migration.generateXCharID ((migration.obj id record).id.getD 0))
      (migration.obj id record) = .ok (move.map Prod.snd)) :
    Portable migration.fromSchema migration.toSchema (migration.generateXCharID id)
        (migration.obj id record) ↔
      ∃ newId stored, move = some (newId, stored) ∧ migration.KeptBy id record stored := by
  rw [obj_id found, Option.getD_some] at made
  have numbered : (migration.opensTo.schema.properties.map SchemaProperty.nr).Nodup :=
    migration.numbered
  have ofSource : (migration.obj id record).schema = migration.fromSchema := rfl
  refine (portable_iff numbered ofSource made).trans ?_
  cases move with
  | none => simp
  | some entry =>
      constructor
      · rintro ⟨stored, same, kept⟩
        exact ⟨entry.1, entry.2, rfl, by rw [Option.some.inj same]; exact kept⟩
      · rintro ⟨newId, stored, same, kept⟩
        cases same
        exact ⟨stored, rfl, kept⟩

/-- Portable objects are kept while they are moved. -/
theorem Moves.kept {front part : List JSXObject} {moves : List (Option (Nat × Record))}
    (done : migration.Moves front moves) (portable : migration.AllPortable)
    (objects : ∀ obj ∈ front, ∃ id record,
      migration.source id = some record ∧ obj = migration.obj id record)
    (moved : part ⊆ front)
    (contains : bcdb.Contains migration.fromSchema.key migration.toSchema.key
      (migration.left part) (migration.filled moves)) : migration.Kept bcdb := by
  refine ⟨_, _, contains, ?_⟩
  intro id record found
  by_cases gone : migration.fromUrl ≠ aclUrl ∧ some id ∈ part.map JSXObject.id
  · right
    obtain ⟨obj, member, isId⟩ := List.mem_map.mp gone.2
    obtain ⟨id', record', found', rfl⟩ := objects obj (moved member)
    rw [obj_id found', Option.some.injEq] at isId
    subst isId
    rw [found, Option.some.injEq] at found'
    subst found'
    obtain ⟨move, inMoves, made⟩ := forall₂_partner done.made (moved member)
    obtain ⟨newId, stored, rfl, kept⟩ :=
      (portable_iff_kept found made).mp (portable id' record found).2
    obtain ⟨fresh, stands⟩ := done.stands inMoves
    exact ⟨newId, stored, fresh, stands, kept⟩
  · left
    rw [left, if_neg gone]
    exact found

/-- Moving one portable object more loses nothing when it raises. -/
theorem Running.kept_of_error {front : List JSXObject}
    {moves : List (Option (Nat × Record))} (running : migration.Running front moves bcdb)
    (portable : migration.AllPortable)
    (objects : ∀ obj ∈ front, ∃ id record,
      migration.source id = some record ∧ obj = migration.obj id record)
    {id : Nat} {record : Record} (found : migration.source id = some record)
    (notYet : some id ∉ front.map JSXObject.id) {problem : Exn} {reached : BCDB}
    (failed : migrateObj migration.fromUrl migration.toUrl migration.generateXCharID
      (migration.obj id record) bcdb = .error problem reached) : migration.Kept reached := by
  have asked : BCDB.model migration.fromUrl bcdb = .ok _ :=
    BCDB.model_eq_ok_iff.mpr running.opened.fromFound
  have asked' : BCDB.model migration.toUrl bcdb = .ok _ :=
    BCDB.model_eq_ok_iff.mpr running.opened.toFound
  have unmoved := running.done.kept portable objects (List.Subset.refl front)
    running.opened.contains
  simp only [migrateObj, seq_eq_error_iff, query_eq_ok_iff, query_eq_error_iff,
    attempt_eq_ok_iff, attempt_eq_error_iff, asked, Except.ok.injEq] at failed
  obtain ⟨impossible, _⟩ | ⟨_, _, ⟨rfl, rfl⟩, failed⟩ := failed
  · cases impossible
  obtain ⟨_, rfl⟩ | ⟨_, _, ⟨same, rfl⟩, failed⟩ := failed
  · exact unmoved
  rw [asked', Except.ok.injEq] at same
  subst same
  obtain ⟨_, rfl⟩ | ⟨new, _, ⟨made, rfl⟩, failed⟩ := failed
  · exact unmoved
  obtain failed | ⟨_, between, saved, failed⟩ := failed
  · -- The save raises: both models are as they were.
    have carries := migratedObj_carries made
    simp only [JSXObjectRoot.on, onPart_eq_error_iff] at failed
    obtain ⟨session, failed, rfl⟩ := failed
    have contains := BCDBModel.save_error_contains (by exact running.opened.contains)
      (by exact carries.id) (by rfl) (by exact running.opened.ready.room) failed
    exact running.done.kept portable objects (List.Subset.refl front) contains
  · -- The delete raises: the object stands in the target already.
    obtain ⟨move, became, moved, opened, writable⟩ :=
      running.done.saved running.opened made saved
    have objects' : ∀ obj ∈ front ++ [migration.obj id record], ∃ id record,
        migration.source id = some record ∧ obj = migration.obj id record := by
      intro obj member
      rcases List.mem_append.mp member with earlier | last
      · exact objects obj earlier
      · exact ⟨id, record, found, List.mem_singleton.mp last⟩
    have isStored : move ≠ none := by
      obtain ⟨newId, stored, same, _⟩ :=
        (portable_iff_kept found became).mp (portable id record found).2
      simp [same]
    simp only [JSXObjectRoot.on, onPart_eq_error_iff] at failed
    obtain ⟨session, failed, rfl⟩ := failed
    obtain ⟨table, present, _⟩ := opened.contains.fromTable
    rcases BCDBModel.objDelete_eq_error opened.fromFound present (writable isStored)
      (obj_model id record) (obj_id found) failed with same | removes
    · rw [same]
      exact moved.kept portable objects' (List.subset_append_left front _) opened.contains
    · have gone := opened.removed found notYet (portable id record found).1 removes
      exact moved.kept portable objects' (List.Subset.refl _) gone.contains

/-- What the ids of the source became. -/
theorem Moves.became {ids : List Nat} {objs : List JSXObject}
    {moves : List (Option (Nat × Record))} (objects : migration.Objects ids objs)
    (done : migration.Moves objs moves) :
    List.Forall₂ (fun id move => ∃ record, migration.source id = some record ∧
      migratedRecord migration.fromSchema migration.toUrl migration.opensTo
        (migration.generateXCharID ((migration.obj id record).id.getD 0))
        (migration.obj id record) = .ok (move.map Prod.snd)) ids moves := by
  have read := objects.read
  have made := done.made
  clear objects done
  induction read generalizing moves with
  | nil =>
      cases made
      exact .nil
  | cons first _ induction =>
      obtain ⟨record, found, rfl⟩ := first
      cases made with
      | cons one others => exact .cons ⟨record, found, one⟩ (induction others)

/-- All objects were moved when they are portable. -/
theorem Running.moved {ids : List Nat} {objs : List JSXObject}
    {moves : List (Option (Nat × Record))} (objects : migration.Objects ids objs)
    (running : migration.Running objs moves bcdb) (portable : migration.AllPortable) :
    migration.Moved bcdb := by
  have empty : migration.left objs = fun _ => none := by
    funext id
    rw [left, objects.ids]
    split
    · rfl
    · rename_i remains
      cases found : migration.source id with
      | none => rfl
      | some record =>
          have member := (objects.complete id).mpr (by simp [found])
          exact (remains ⟨(portable id record found).1, List.mem_map_of_mem member⟩).elim
  have kept : List.Forall₂ (fun id move => ∃ entry : Nat × Record, move = some entry ∧
      migration.target entry.1 = none ∧ ∃ record made, migration.source id = some record ∧
        migration.filled moves entry.1 = some made ∧ migration.KeptBy id record made)
      ids moves := by
    have became := running.done.became objects
    refine List.forall₂_iff_zip.mpr ⟨became.length_eq, ?_⟩
    intro id move pair
    obtain ⟨record, found, made⟩ := (List.forall₂_iff_zip.mp became).2 pair
    obtain ⟨newId, stored, rfl, kept⟩ :=
      (portable_iff_kept found made).mp (portable id record found).2
    obtain ⟨fresh, stands⟩ := running.done.stands (List.of_mem_zip pair).2
    exact ⟨(newId, stored), rfl, fresh, record, stored, found, stands, kept⟩
  have contains := running.opened.contains
  rw [empty] at contains
  refine ⟨migration.filled moves, ids, moves.reduceOption.map Prod.fst, contains,
    objects.ascending, objects.complete, List.pairwise_map.mpr running.done.ascending, ?_, ?_⟩
  · exact List.forall₂_map_right_iff.mpr (forall₂_filterMap_id kept)
  · intro other outside
    have notMade : moves.reduceOption.lookup other = none := by
      cases found : moves.reduceOption.lookup other with
      | none => rfl
      | some made => exact (outside (List.mem_map.mpr ⟨_, mem_of_lookup found, rfl⟩)).elim
    rw [filled, notMade, Option.or_none]

/-- Only portable objects are moved. -/
theorem Running.portable {ids : List Nat} {objs : List JSXObject}
    {moves : List (Option (Nat × Record))} (objects : migration.Objects ids objs)
    (running : migration.Running objs moves bcdb) (moved : migration.Moved bcdb) :
    migration.AllPortable := by
  obtain ⟨target, ids', newIds, contains, ascending, complete, newAscending, kept, others⟩ :=
    moved
  have sameIds : ids' = ids :=
    ascending.ext objects.ascending
      (fun id => (complete id).trans (objects.complete id).symm)
  subst sameIds
  obtain ⟨empty, isTarget⟩ := running.opened.contains.ext contains
  subst isTarget
  have isNew : ∀ newId, newId ∈ newIds ↔ newId ∈ moves.reduceOption.map Prod.fst := by
    intro newId
    constructor
    · intro member
      obtain ⟨id, _, fresh, record, made, _, stands, _⟩ := forall₂_partner kept.flip member
      rw [filled, fresh, Option.none_or] at stands
      exact List.mem_map.mpr ⟨_, mem_of_lookup stands, rfl⟩
    · intro member
      obtain ⟨entry, inMoves, rfl⟩ := List.mem_map.mp member
      obtain ⟨fresh, stands⟩ := running.done.stands (List.reduceOption_mem_iff.mp inMoves)
      by_contra outside
      rw [others entry.1 outside, fresh] at stands
      cases stands
  have sameNew : newIds = moves.reduceOption.map Prod.fst :=
    newAscending.ext (List.pairwise_map.mpr running.done.ascending) isNew
  subst sameNew
  have became := running.done.became objects
  have allStored : ∀ move ∈ moves, move.isSome := by
    have lengths := kept.length_eq.symm.trans became.length_eq
    rw [List.length_map] at lengths
    exact List.reduceOption_length_eq_iff.mp lengths
  have stored : List.Forall₂ (fun id entry => ∃ record,
      migration.source id = some record ∧
      migratedRecord migration.fromSchema migration.toUrl migration.opensTo
        (migration.generateXCharID ((migration.obj id record).id.getD 0))
        (migration.obj id record) = .ok (some entry.2)) ids' moves.reduceOption := by
    apply forall₂_filterMap_id
    refine List.forall₂_iff_zip.mpr ⟨became.length_eq, ?_⟩
    intro id move pair
    obtain ⟨record, found, made⟩ := (List.forall₂_iff_zip.mp became).2 pair
    obtain ⟨entry, rfl⟩ := Option.isSome_iff_exists.mp (allStored move (List.of_mem_zip pair).2)
    exact ⟨entry, rfl, record, found, made⟩
  intro id record found
  have notAcl : migration.fromUrl ≠ aclUrl := by
    intro isAcl
    have gone := congrFun empty id
    rw [left_acl isAcl, found] at gone
    cases gone
  refine ⟨notAcl, ?_⟩
  have both := List.Forall₂.mp (fun _ _ => And.intro) (List.forall₂_map_right_iff.mp kept)
    stored
  obtain ⟨entry, inMade, ⟨_, record', made, found', stands, kept⟩, record'', found'', became⟩ :=
    forall₂_partner both ((complete id).mpr (by simp [found]))
  rw [found, Option.some.injEq] at found' found''
  subst found' found''
  have sameMade := (running.done.stands (List.reduceOption_mem_iff.mp inMade)).2
  rw [stands, Option.some.injEq] at sameMade
  subst sameMade
  have made' : migratedRecord migration.fromSchema migration.toUrl migration.opensTo
      (migration.generateXCharID ((migration.obj id record).id.getD 0))
      (migration.obj id record) = .ok ((some entry : Option (Nat × Record)).map Prod.snd) :=
    became
  exact (portable_iff_kept found made').mpr ⟨entry.1, entry.2, rfl, kept⟩

/-! ## Whole runs -/

variable (migration)

/-- What `migrate_models` comes to. -/
def run : EStateM.Result Exn BCDB Unit :=
  migrateModels migration.fromUrl migration.toUrl migration.generateXCharID migration.bcdb

/-- A run that returns has moved the objects, and one that raises has kept them. -/
def LosesNothing : Prop :=
  (∀ reached, migration.run = .ok () reached → migration.Moved reached) ∧
    ∀ problem reached, migration.run = .error problem reached → migration.Kept reached

variable {migration}

theorem moved_iff_of_returns {reached : BCDB} (done : migration.run = .ok () reached) :
    migration.Moved reached ↔ migration.AllPortable := by
  obtain ⟨bcdb, opened, same⟩ := migration.migrateModels_eq
  rw [run, same, seq_eq_ok_iff] at done
  obtain ⟨objs, between, found, walked⟩ := done
  obtain ⟨rfl, ids, objects⟩ := opened.find found
  obtain ⟨moves, running⟩ := forM_trace
    (fun front state => ∃ moves, migration.Running front moves state) objects.step
    ⟨[], opened.start⟩ walked
  exact ⟨running.portable objects, running.moved objects⟩

theorem kept_of_raises (portable : migration.AllPortable) {problem : Exn} {reached : BCDB}
    (failed : migration.run = .error problem reached) : migration.Kept reached := by
  obtain ⟨bcdb, opened, same⟩ := migration.migrateModels_eq
  rw [run, same, seq_eq_error_iff] at failed
  obtain failed | ⟨objs, between, found, failed⟩ := failed
  · have closed := BCDB.Contains.closedOpen migration.fromSchema.key migration.toSchema.key
      migration.source migration.target
    have contains := (BCDBModel.find_keeps closed migration.fromUrl none []).of_error failed
      opened.contains
    exact ⟨_, _, contains, fun id record found => .inl found⟩
  · obtain ⟨rfl, ids, objects⟩ := opened.find found
    obtain ⟨front, obj, back, state, split, ⟨moves, running⟩, raised⟩ := forM_trace_error
      (fun front state => ∃ moves, migration.Running front moves state) objects.step
      ⟨[], opened.start⟩ failed
    subst split
    obtain ⟨id, record, isSource, rfl, notYet⟩ := objects.next
    refine running.kept_of_error portable ?_ isSource notYet raised
    intro obj member
    exact objects.mem (List.mem_append_left _ member)

/-- A migration of portable objects loses nothing, and one that returns loses
nothing only then. -/
theorem losesNothing_iff (migration : Migration) :
    (migration.AllPortable → migration.LosesNothing) ∧
      ∀ reached, migration.run = .ok () reached →
        (migration.LosesNothing ↔ migration.AllPortable) := by
  have enough : migration.AllPortable → migration.LosesNothing := by
    intro portable
    exact ⟨fun reached done => (moved_iff_of_returns done).mpr portable,
      fun problem reached failed => kept_of_raises portable failed⟩
  refine ⟨enough, fun reached done => ⟨?_, enough⟩⟩
  intro losesNothing
  exact (moved_iff_of_returns done).mp (losesNothing.1 reached done)

end Migration

/-! ## An object of another namespace -/

/-- An object with the nid 2 is set in the first model. -/
def setElsewhere : Call :=
  .set "test.one" ⟨{ (nameSchema "test.one" "1").named "a" none with nid := 2 }, .none⟩ true true

def afterSetElsewhere : BCDB := final setElsewhere.run twoModels

def recordElsewhere : Record where
  nid := 2
  aclId := some 0
  bdata := { objId := 0, md5 := "1", message := .insert .empty 1 (.str "a") }

/-- It is migrated to the second model. -/
def migrationElsewhere : Migration where
  bcdb := afterSetElsewhere
  fromUrl := "test.one"
  toUrl := "test.two"
  fromModel := (nameSchema "test.one" "1").model
  toModel := (nameSchema "test.two" "2").model
  fromSchema := nameSchema "test.one" "1"
  toSchema := nameSchema "test.two" "2"
  generateXCharID := fun _ _ => "generatedgeneratedge"
  source := fun id => if id = 1 then some recordElsewhere else none
  target := fun _ => none
  fromFound := rfl
  toFound := rfl
  fromKnown := rfl
  toKnown := rfl
  fromNewest := rfl
  toNewest := rfl
  fromStored := rfl
  toStored := rfl
  keysApart := by decide
  numbered := by decide
  contains := by
    refine ⟨⟨_, rfl, ?_⟩, ⟨_, rfl, fun _ => rfl⟩, ?_, by simp, fun _ => .inr rfl⟩
    · intro id
      change (if 1 = id then _ else none : Option Row).isSome = _
      by_cases isFirst : id = 1
      · rw [if_pos isFirst.symm, if_pos isFirst]
        rfl
      · rw [if_neg (Ne.symm isFirst), if_neg isFirst]
        rfl
    · intro id record found
      split at found
      · rename_i isFirst
        cases found
        rw [isFirst]
        rfl
      · cases found
  named := by
    intro id record found
    split at found
    · rename_i isFirst
      cases found
      exact ⟨by omega, .inl rfl⟩
    · cases found
  ready := ⟨⟨.init, rfl⟩, fun _ _ => StorClient.lt_nextId rfl⟩

/-- The object that the second model gets. -/
def movedElsewhere : Except Exn JSXObject :=
  migratedObj (nameSchema "test.one" "1") "test.two" (nameSchema "test.two" "2").model
    (migrationElsewhere.generateXCharID 1) (migrationElsewhere.obj 1 recordElsewhere)

def newElsewhere : JSXObject :=
  movedElsewhere.toOption.getD (migrationElsewhere.obj 1 recordElsewhere)

def afterSaveElsewhere : BCDB :=
  final ((JSXObjectRoot.mk newElsewhere .none).on BCDBModel.save) afterSetElsewhere

def afterMoveElsewhere : BCDB :=
  final ((JSXObjectRoot.mk (migrationElsewhere.obj 1 recordElsewhere) .none).on
    BCDBModel.objDelete) afterSaveElsewhere

theorem migrationElsewhere_run : migrationElsewhere.run = .ok () afterMoveElsewhere := by
  have first : modelGetUrl "test.one" afterSetElsewhere = .ok () afterSetElsewhere := rfl
  have second : modelGetUrl "test.two" afterSetElsewhere = .ok () afterSetElsewhere := rfl
  have found : BCDBModel.find "test.one" none [] afterSetElsewhere =
      .ok [migrationElsewhere.obj 1 recordElsewhere] afterSetElsewhere := rfl
  have made : movedElsewhere = .ok newElsewhere := rfl
  have saved : (JSXObjectRoot.mk newElsewhere .none).on BCDBModel.save afterSetElsewhere =
      .ok () afterSaveElsewhere := rfl
  have deleted : (JSXObjectRoot.mk (migrationElsewhere.obj 1 recordElsewhere) .none).on
      BCDBModel.objDelete afterSaveElsewhere = .ok () afterMoveElsewhere := rfl
  have moved : migrateObj "test.one" "test.two" migrationElsewhere.generateXCharID
      (migrationElsewhere.obj 1 recordElsewhere) afterSetElsewhere =
        .ok () afterMoveElsewhere := by
    simp only [migrateObj, seq_eq_ok_iff, query_eq_ok_iff, attempt_eq_ok_iff]
    exact ⟨_, _, ⟨rfl, rfl⟩, _, _, ⟨rfl, rfl⟩, newElsewhere, _, ⟨made, rfl⟩, (), _, saved,
      deleted⟩
  change migrateModels "test.one" "test.two" migrationElsewhere.generateXCharID
    afterSetElsewhere = _
  rw [migrateModels, seq_of_ok first, seq_of_ok second, seq_of_ok found]
  simp only [List.forM_eq_forM, List.forM_cons, List.forM_nil, seq_of_ok moved]
  rfl

/-- The migration of the object ends without raising and does not keep its nid. -/
theorem migration_loses_nid : ¬ migrationElsewhere.LosesNothing := by
  intro losesNothing
  have moved := losesNothing.1 _ migrationElsewhere_run
  have portable := (Migration.moved_iff_of_returns migrationElsewhere_run).mp moved
  have nid := (portable 1 recordElsewhere rfl).2.nid
  have isTwo : (migrationElsewhere.obj 1 recordElsewhere).nid = 2 := rfl
  rw [isTwo] at nid
  cases nid

end JumpscaleX
