import JumpscaleX.Rebuild

/-!
# Rebuilding what can be rebuilt

The walk over the entries of a rebuildable database never stops: when an entry
comes up, the table of its model holds the rows of the entries before it, and
none of them is deleted by its name or clashes with its row.
-/

namespace JumpscaleX

open Fallible Stateful PartitionedIndex

namespace BCDB

theorem RowOf.unique {bcdb : BCDB} {record : Record} {schema schema' : Schema}
    {row row' : Row} (isRow : bcdb.RowOf record schema row)
    (isRow' : bcdb.RowOf record schema' row') : schema = schema' ∧ row = row' := by
  obtain ⟨known, read⟩ := isRow
  obtain ⟨known', read'⟩ := isRow'
  rw [known, Option.some.injEq] at known'
  subst known'
  rw [read, Except.ok.injEq] at read'
  exact ⟨rfl, read'⟩

/-- The tables hold the rows of the entries that were walked over. -/
def RowsOf (bcdb : BCDB) (front : List (Nat × Stored)) (state : BCDB) : Prop :=
  ∀ url id row, state.rowAt url id = some row ↔
    ∃ record schema, (id, .record record) ∈ front ∧
      bcdb.RowOf record schema row ∧ schema.url = url

/-- The rows after the table of one model was replaced. -/
theorem rowAt_setTable {bcdb : BCDB} {url : Url} {model : Model}
    (found : bcdb.models.find url = some model)
    (only : ∀ other model', bcdb.models.find other = some model' →
      model'.key = model.key → other = url)
    (table : Table) (other : Url) (id : Nat) :
    (bcdb.setTable model.key table).rowAt other id =
      if other = url then table.lookup id else bcdb.rowAt other id := by
  unfold rowAt
  rw [setTable_models]
  split
  · rename_i same
    rw [same, found]
    simp only [Option.bind_some, setTable_tables_self]
  · rename_i different
    cases present : bcdb.models.find other with
    | none => simp only [Option.bind_none]
    | some model' =>
        have apart : model'.key ≠ model.key :=
          fun sameKey => different (only other model' present sameKey)
        simp only [Option.bind_some, setTable_tables_of_ne _ _ _ apart]

/-- No two known urls that may get a table share it with the given one. -/
def OwnTable (start : BCDB) (known : Url → Prop) (schema : Schema) : Prop :=
  ∀ other newest, known other → start.schemaFactory.schemasLoaded other = some newest →
    newest.key = schema.key → other = schema.url

theorem Tidy.only {start bcdb : BCDB} {known : Url → Prop} {ids : List Nat}
    (tidy : Tidy start known ids bcdb) {schema : Schema}
    (own : OwnTable start known schema) (url : Url) (model : Model)
    (found : bcdb.models.find url = some model)
    (sameKey : model.key = schema.model.key) : url = schema.url := by
  obtain ⟨newest, loaded, rfl⟩ := tidy.newest url model found
  exact own url newest ((tidy.models url).mp ⟨_, found⟩) loaded sameKey

/-- A model that is added under a key of its own has no rows, and the other
models keep theirs. -/
theorem Tidy.rowAt_addModel {start bcdb : BCDB} {known : Url → Prop}
    {ids : List Nat} (tidy : Tidy start known ids bcdb)
    (writable : start.readonly = false) {schema : Schema}
    (own : OwnTable start known schema) (missing : ¬ bcdb.HasModel schema.url)
    (url : Url) (id : Nat) :
    (bcdb.addModel schema.model).rowAt url id = bcdb.rowAt url id := by
  have isMaster : bcdb.readonly = false := tidy.same.readonly.trans writable
  have noTable : bcdb.tables schema.model.key = none := by
    cases present : bcdb.tables schema.model.key with
    | none => rfl
    | some table =>
        obtain ⟨other, model, found, sameKey, _⟩ := tidy.owned _ table present
        have here := tidy.only own other model found sameKey
        exact (missing ⟨model, by rw [← here]; exact found⟩).elim
  have tables : (bcdb.addModel schema.model).tables =
      Function.update bcdb.tables schema.model.key
        (some (Table.create schema.model.columns)) := by
    rw [addModel_tables, isMaster, noTable]
    simp only [Bool.not_false, Option.isNone_none, Bool.and_self, if_true]
  have isUrl : schema.model.schema.url = schema.url := rfl
  unfold rowAt
  rw [addModel_models, Models.find_add, tables, isUrl]
  by_cases here : url = schema.url
  · subst here
    cases present : bcdb.models.find schema.url with
    | none =>
        simp only [if_true, Option.bind_some, Function.update_self,
          Table.lookup_create, Option.bind_none]
    | some model => exact (missing ⟨model, present⟩).elim
  · rw [if_neg here]
    cases present : bcdb.models.find url with
    | none => simp only [Option.bind_none]
    | some model =>
        have apart : model.key ≠ schema.model.key :=
          fun sameKey => here (tidy.only own url model present sameKey)
        simp only [Option.bind_some, Function.update_of_ne apart]

/-! ## The row of an entry -/

/-- The row of an entry goes into a table that holds no row it clashes with,
and no other row goes. -/
theorem set_without_of_free {schema : Schema} {row : Row} (id : Nat) (obj : JSXObject)
    (read : obj.indexRow schema.propertiesIndexSql = .ok row)
    (complete : row.Complete schema.model.columns)
    (hasColumn : obj.schema.hasName = true →
      ∃ field ∈ schema.propertiesIndexSql, field.name = "name")
    {table : Table} (columns : table.columns = schema.model.columns)
    (free : ∀ other row', table.lookup other = some row' → other ≠ id →
      ¬ row.Clash table.columns row') :
    ∃ name table', BCDBModel.DeletedName obj schema.model name ∧
      (table.without id name).set id row = .ok table' ∧
      ∀ other, table'.lookup other =
        if other = id then some row else table.lookup other := by
  have isColumn : ∀ field ∈ schema.propertiesIndexSql,
      ({ name := field.name, unique := field.unique } : Column) ∈
        schema.model.columns :=
    fun field member => List.mem_map.mpr ⟨field, member, rfl⟩
  -- the name that is looked for is the one of the row
  obtain ⟨name, isName, inRow⟩ : ∃ name,
      BCDBModel.DeletedName obj schema.model name ∧
      ∀ cell, name = some cell → row.cell "name" = some cell ∧
        ∃ column ∈ schema.model.columns, column.name = "name" ∧
          column.unique = true := by
    by_cases hasName : obj.schema.hasName = true
    · obtain ⟨field, member, named⟩ := hasColumn hasName
      have present := (complete _ (isColumn field member)).1
      simp only [named] at present
      refine ⟨row.cell "name", (BCDBModel.deletedName_iff read).mpr ?_, ?_⟩
      · rw [if_pos hasName]
        exact ⟨⟨field, member, named⟩, rfl, present⟩
      · intro cell isCell
        exact ⟨isCell, _, isColumn field member, named,
          (Schema.nameField member named).2⟩
    · refine ⟨none, (BCDBModel.deletedName_iff read).mpr ?_, fun _ none => by cases none⟩
      rw [if_neg hasName]
  -- so only the row with the id can go
  have kept : ∀ other row', (table.without id name).lookup other = some row' ↔
      other ≠ id ∧ table.lookup other = some row' := by
    intro other row'
    rw [Table.lookup_without_eq_some_iff]
    constructor
    · rintro ⟨different, found, _⟩
      exact ⟨different, found⟩
    · rintro ⟨different, found⟩
      refine ⟨different, found, ?_⟩
      intro cell isCell
      obtain ⟨inRow, column, member, named, unique⟩ := inRow cell isCell
      by_contra shared
      obtain ⟨same, notNull⟩ := not_or.mp shared
      rw [not_not] at same
      refine free other row' found different ⟨column, by rw [columns]; exact member,
        unique, ?_, ?_, ?_⟩
      · rw [named, inRow, same]
      · rw [named, inRow]
        simp
      · rw [named, inRow]
        simpa using notNull
  obtain ⟨table', put⟩ : ∃ table', (table.without id name).putRow id row = .ok table' := by
    refine Table.putRow_of_free ?_ ?_ ?_
    · rw [(JSXObject.indexRow_names read).1, Table.without_columns, columns]
      simp [Model.columns, Schema.model]
    · rw [Table.without_columns, columns]
      exact complete
    · intro other row' found different
      rw [Table.without_columns]
      exact free other row' ((kept other row').mp found).2 different
  refine ⟨name, table', isName, by rw [set_without_eq_putRow, put], ?_⟩
  obtain ⟨_, _, lookups⟩ := Table.putRow_eq_ok put
  intro other
  rw [lookups]
  split
  · rfl
  · rename_i different
    apply Option.ext
    intro row'
    rw [kept]
    exact and_iff_right different

/-- The entry of a rebuildable database that comes up next is indexed. -/
theorem Rebuildable.rebuildEntry {start state : BCDB} {front : List (Nat × Stored)}
    (rebuildable : start.Rebuildable) (saved : start.Saved)
    (walked : ∀ id record, (id, .record record) ∈ front → start.Holds id record)
    (onlyRecords : ∀ entry ∈ front, ∃ record, entry.2 = .record record)
    (tidy : Tidy start (start.KnownAfter front) (front.map Prod.fst) state)
    (rows : start.RowsOf front state) {id : Nat} {record : Record}
    (holds : start.Holds id record) :
    ∃ reached, rebuildEntry (id, .record record) state = .ok () reached ∧
      start.RowsOf (front ++ [(id, .record record)]) reached := by
  obtain ⟨schema, current, loaded, nid, hasColumn⟩ := rebuildable.indexable id record holds
  obtain ⟨schema', row, isRow, complete⟩ := rebuildable.complete id record holds
  have sameSchema := isRow.1
  rw [current, Option.some.injEq] at sameSchema
  subst sameSchema
  obtain ⟨_, _, same, _, storedId⟩ := saved.records id _ holds.1 holds.2
  cases same
  have own : OwnTable start
      (fun url => start.KnownAfter front url ∨ url = schema.url) schema := by
    rintro other newest (known | here) loaded' sameKey
    · refine rebuildable.tables id record schema holds current other newest loaded' ?_ sameKey
      rcases known with system | ⟨⟨id', data⟩, member, belongs⟩
      · exact .inl system
      · obtain ⟨record', isRecord⟩ := onlyRecords _ member
        cases isRecord
        exact .inr ⟨id', record', walked id' record' member, belongs⟩
    · exact here
  obtain ⟨between, got, tidy', change⟩ := tidy.modelGet saved.writable loaded
  have rows' : ∀ url id', between.rowAt url id' = state.rowAt url id' := by
    rcases change with rfl | ⟨missing, rfl⟩
    · exact fun _ _ => rfl
    · exact tidy.rowAt_addModel saved.writable
        (fun other newest known => own other newest (.inl known)) missing
  have found : between.models.find schema.url = some schema.model :=
    tidy'.find_eq loaded (.inr rfl)
  obtain ⟨table, present⟩ := tidy'.table _ _ found
  have columns : table.columns = schema.model.columns := by
    obtain ⟨other, model, found', sameKey, columns⟩ := tidy'.owned _ table present
    have here := tidy'.only own other model found' sameKey
    rw [here, found, Option.some.injEq] at found'
    rw [columns, found']
  have inTable : ∀ other row', table.lookup other = some row' ↔
      ∃ record' schema', (other, .record record') ∈ front ∧
        start.RowOf record' schema' row' ∧ schema'.url = schema.url := by
    intro other row'
    rw [← rows, ← rows', rowAt_eq_some_iff]
    constructor
    · intro lookup
      exact ⟨schema.model, table, found, present, lookup⟩
    · rintro ⟨model, table', found', present', lookup⟩
      rw [found, Option.some.injEq] at found'
      rw [← found', present, Option.some.injEq] at present'
      rw [present']
      exact lookup
  obtain ⟨name, table', isName, set, lookups⟩ :=
    set_without_of_free id (record.read id schema)
      ((Record.read_indexRow record id schema _).trans isRow.2) complete hasColumn columns
      (by
        intro other row' lookup different clash
        obtain ⟨record', schema', member, isRow', sameUrl⟩ := (inTable other row').mp lookup
        rw [columns] at clash
        exact different (rebuildable.unique id other record record' schema schema' row row'
          holds (walked other record' member) sameUrl.symm isRow isRow' clash).symm)
  refine ⟨between.setTable schema.model.key table', ?_, ?_⟩
  · exact (tidy.rebuildEntry_eq_ok_iff saved.writable saved.indexWritable holds.1
      storedId).mpr ⟨schema, current, loaded, nid, between, row, table, table', name, got,
        isRow.2, present, isName, set, rfl⟩
  · intro url id' row'
    rw [rowAt_setTable found (tidy'.only own) table' url id', rows', lookups]
    have older : ∀ record' schema', (id', .record record') ∈ front →
        start.RowOf record' schema' row' → id' = id → row' = row := by
      rintro record' schema' member isRow' rfl
      have stored := holds.2.symm.trans (walked id' record' member).2
      simp only [Option.some.injEq, Stored.record.injEq] at stored
      subst stored
      exact (isRow'.unique isRow).2
    constructor
    · intro lookup
      by_cases here : url = schema.url
      · rw [if_pos here] at lookup
        split at lookup
        · rename_i sameId
          cases lookup
          exact ⟨record, schema, by simp [sameId], isRow, here.symm⟩
        · obtain ⟨record', schema', member, isRow', sameUrl⟩ :=
            (inTable id' row').mp lookup
          exact ⟨record', schema', List.mem_append_left _ member, isRow',
            sameUrl.trans here.symm⟩
      · rw [if_neg here] at lookup
        obtain ⟨record', schema', member, isRow', sameUrl⟩ := (rows url id' row').mp lookup
        exact ⟨record', schema', List.mem_append_left _ member, isRow', sameUrl⟩
    · rintro ⟨record', schema', member, isRow', sameUrl⟩
      rcases List.mem_append.mp member with earlier | now
      · by_cases here : url = schema.url
        · rw [if_pos here]
          by_cases sameId : id' = id
          · rw [if_pos sameId, older record' schema' earlier isRow' sameId]
          · rw [if_neg sameId]
            exact (inTable id' row').mpr
              ⟨record', schema', earlier, isRow', sameUrl.trans here⟩
        · rw [if_neg here]
          exact (rows url id' row').mpr ⟨record', schema', earlier, isRow', sameUrl⟩
      · cases List.mem_singleton.mp now
        obtain ⟨rfl, rfl⟩ := isRow'.unique isRow
        rw [if_pos sameUrl.symm, if_pos rfl]

/-- The walk over the entries of a rebuildable database. -/
theorem Rebuildable.walk {bcdb started : BCDB} (rebuildable : bcdb.Rebuildable)
    (saved : bcdb.Saved) (tidy : Tidy bcdb (· ∈ systemUrls) [] started) :
    ∃ reached, bcdb.storclient.iterate.tail.forM BCDB.rebuildEntry started =
        .ok () reached ∧
      Tidy bcdb (bcdb.KnownAfter bcdb.storclient.iterate.tail)
        (bcdb.storclient.iterate.tail.map Prod.fst) reached ∧
      bcdb.RowsOf bcdb.storclient.iterate.tail reached := by
  have inStore : ∀ entry ∈ bcdb.storclient.iterate.tail, ∃ record,
      entry.2 = .record record ∧ bcdb.Holds entry.1 record := by
    rintro ⟨id, data⟩ member
    obtain ⟨record, isRecord, holds, _⟩ := saved.mem_tail_iff.mp member
    exact ⟨record, isRecord, holds⟩
  refine forM_total (fun front state =>
    Tidy bcdb (bcdb.KnownAfter front) (front.map Prod.fst) state ∧
      bcdb.RowsOf front state) ?_ ⟨tidy.congr (by simp [KnownAfter]), ?_⟩
  · rintro front ⟨id, data⟩ back state split ⟨tidy, rows⟩
    have inFront : ∀ entry ∈ front, entry ∈ bcdb.storclient.iterate.tail := by
      intro entry member
      rw [split]
      exact List.mem_append_left _ member
    obtain ⟨record, isRecord, holds⟩ := inStore (id, data) (by rw [split]; simp)
    cases isRecord
    obtain ⟨reached, done, rows'⟩ := rebuildable.rebuildEntry saved
      (fun id' record' member => by
        obtain ⟨other, same, holds'⟩ := inStore _ (inFront _ member)
        cases same
        exact holds')
      (fun entry member => by
        obtain ⟨record', same, _⟩ := inStore _ (inFront _ member)
        exact ⟨record', same⟩)
      tidy rows holds
    obtain ⟨_, _, same, _, own⟩ := saved.records id _ holds.1 holds.2
    cases same
    obtain ⟨_, tidy'⟩ := tidy.rebuildEntry saved.writable saved.indexWritable
      holds.1 own done
    refine ⟨reached, done, ?_, rows'⟩
    rw [List.map_append]
    exact tidy'.congr (knownAfter_append (id, .record record))
  · intro url id row
    rw [rowAt_eq_some_iff]
    constructor
    · rintro ⟨model, table, _, present, lookup⟩
      cases (tidy.rows _ table id row present lookup).1
    · rintro ⟨_, _, member, _⟩
      cases member

/-- A rebuildable database comes through the rebuild with its index. -/
theorem Rebuildable.lossless {bcdb : BCDB} (rebuildable : bcdb.Rebuildable)
    (saved : bcdb.Saved) : bcdb.RebuildLossless := by
  obtain ⟨started, tidyStart, walk⟩ := saved.indexRebuild
  obtain ⟨reached, done, tidy, rows⟩ := rebuildable.walk saved tidyStart
  have factory := tidy.same.schemaFactory
  have sameUrl : ∀ stored, reached.urlOf stored = bcdb.urlOf stored := by
    intro stored
    cases stored <;> simp [urlOf, factory]
  have walked : ∀ id record, bcdb.Holds id record →
      (id, .record record) ∈ bcdb.storclient.iterate.tail :=
    fun id record holds => saved.mem_tail_iff.mpr
      ⟨record, rfl, holds, rebuildable.reached id record holds⟩
  refine ⟨reached, by rw [walk, done], tidy.same.storclient, ?_, ?_⟩
  · intro url hasModel id
    -- what stands under the id is a record of the url, or there is no row
    by_cases belongs : ∃ record, bcdb.Holds id record ∧
        bcdb.urlOf (.record record) = some url
    · obtain ⟨record, holds, belongs⟩ := belongs
      obtain ⟨schema, row, isRow, _⟩ := rebuildable.complete id record holds
      obtain ⟨schema', known, loaded, _⟩ := rebuildable.indexable id record holds
      have sameSchema := isRow.1
      rw [known, Option.some.injEq] at sameSchema
      subst sameSchema
      have isUrl : schema'.url = url := by simpa [urlOf, known] using belongs
      subst isUrl
      refine .inl ⟨.record record, row, ?_, ?_, ?_, ?_⟩
      · rw [tidy.same.storclient]
        exact holds.2
      · rw [sameUrl]
        exact belongs
      · exact (rows _ id row).mpr ⟨record, schema', walked id record holds, isRow, rfl⟩
      · exact ⟨schema'.model, record, schema',
          tidy.find_eq loaded ((tidy.models _).mp hasModel), rfl,
          by rw [factory]; exact known, isRow.2⟩
    · refine .inr ⟨?_, ?_⟩
      · rintro stored present belongs'
        rw [tidy.same.storclient] at present
        rw [sameUrl] at belongs'
        by_cases first : id = 0
        · rw [first, saved.first, Option.some.injEq] at present
          rw [← present] at belongs'
          cases belongs'
        · obtain ⟨record, _, rfl, _⟩ := saved.records id stored first present
          exact belongs ⟨record, ⟨first, present⟩, belongs'⟩
      · cases lookup : reached.rowAt url id with
        | none => rfl
        | some row =>
            obtain ⟨record, schema, member, isRow, isUrl⟩ := (rows url id row).mp lookup
            obtain ⟨_, same, holds, _⟩ := saved.mem_tail_iff.mp member
            cases same
            exact (belongs ⟨record, holds, by simp [urlOf, isRow.1, isUrl]⟩).elim
  · intro id record holds url belongs
    exact (tidy.models url).mpr (.inr ⟨_, walked id record holds, belongs⟩)

/-- The rebuild gives the index back exactly for the databases that can be
rebuilt. -/
theorem Saved.rebuildLossless_iff {bcdb : BCDB} (saved : bcdb.Saved) :
    bcdb.RebuildLossless ↔ bcdb.Rebuildable :=
  ⟨saved.rebuildable, fun rebuildable => rebuildable.lossless saved⟩

/-! ## A record under an old and under the newest version -/

theorem collapse_cons {char : Char} (rest : List Char) (different : char ≠ '_') :
    stripToAsciiDense.collapse (char :: rest) = char :: stripToAsciiDense.collapse rest := by
  rw [stripToAsciiDense.collapse]
  intro more same
  exact absurd same different

/-- The key of a schema starts with the letter that its url starts with. -/
theorem head_key {schema : Schema} {char : Char} {rest : List Char}
    (url : schema.url.toList = char :: rest) (lower : char.toLower = char)
    (letter : char.isLower = true) (blank : char ≠ ' ' ∧ char ≠ '\n' ∧ char ≠ '\t')
    (sign : char ∉ "-/\\= ;!+()".toList) (mark : char ≠ '_' ∧ char ≠ '.') :
    schema.key.toList.head? = some char := by
  have stripped : ∃ others, (stripToAsciiDense schema.url).toList = char :: others := by
    rw [stripToAsciiDense, String.toList_ofList, url, List.map_cons, lower,
      List.filter_cons_of_pos (by simp [blank]), List.map_cons, if_neg sign,
      List.filter_cons_of_pos (by simp [letter]), collapse_cons _ mark.1,
      stripToAsciiDense.stripUnderscores, List.reverse_cons, List.dropWhile_append]
    split
    · exact ⟨[], by simp [mark.1]⟩
    · exact ⟨_, List.reverse_concat⟩
  obtain ⟨others, isDense⟩ := stripped
  rw [Schema.key, isDense, String.toList_ofList, List.map_cons, if_neg mark.2, List.head?_cons]

/-- The system models, and a url with two versions of its schema. -/
def twoVersions : SchemaFactory :=
  .ofList ([nameSchema "test.one" "2", nameSchema "test.one" "1"] ++
    systemUrls.map (fun url => nameSchema url url)) (by decide)

/-- An object with a name was stored under one of the versions. -/
def namedRecord (md5 : Md5) : Record where
  nid := 1
  aclId := some 0
  bdata := { objId := 0, md5 := md5, message := .insert .empty 1 (.str "a") }

def storedUnder (md5 : Md5) : BCDB :=
  { BCDB.init .SDB twoVersions with
    storclient :=
      { type := .SDB
        readonly := false
        kvs := .insert (.insert .empty 0 .init) 1 (.record (namedRecord md5))
        incr := 0 }
    urls := "test.one" :: systemUrls }

theorem storedUnder_get {md5 : Md5} {id : Nat} {data : Stored}
    (present : (storedUnder md5).storclient.get id = some data) :
    id = 0 ∧ data = .init ∨ id = 1 ∧ data = .record (namedRecord md5) := by
  simp only [storedUnder, StorClient.get, OrderedMap.lookup_insert,
    OrderedMap.lookup_empty] at present
  split at present
  · rename_i isOne
    cases present
    exact .inr ⟨isOne, rfl⟩
  · split at present
    · rename_i isZero
      cases present
      exact .inl ⟨isZero, rfl⟩
    · cases present

theorem storedUnder_holds {md5 : Md5} {id : Nat} {record : Record}
    (holds : (storedUnder md5).Holds id record) :
    id = 1 ∧ record = namedRecord md5 := by
  rcases storedUnder_get holds.2 with ⟨first, _⟩ | ⟨isOne, same⟩
  · exact (holds.1 first).elim
  · cases same
    exact ⟨isOne, rfl⟩

theorem storedUnder_saved {md5 : Md5} {schema : Schema}
    (known : twoVersions.schemasMd5 md5 = some schema) : (storedUnder md5).Saved where
  writable := rfl
  indexWritable := rfl
  system := by
    have all : ∀ url ∈ systemUrls, (twoVersions.schemasLoaded url).isSome := by decide
    intro url member
    exact Option.isSome_iff_exists.mp (all url member)
  urls := by
    have all : ∀ url ∈ "test.one" :: systemUrls,
        (twoVersions.schemasLoaded url).isSome := by decide
    intro url member
    exact Option.isSome_iff_exists.mp (all url member)
  first := rfl
  records := by
    intro id data notFirst present
    rcases storedUnder_get present with ⟨first, _⟩ | ⟨_, rfl⟩
    · exact (notFirst first).elim
    · exact ⟨namedRecord md5, schema, rfl, known, .inl rfl⟩

theorem newestVersion_rebuildable : (storedUnder "2").Rebuildable := by
  have isRow : (storedUnder "2").RowOf (namedRecord "2") (nameSchema "test.one" "2")
      { nid := 1, cols := [("name", .text "a")] } := ⟨rfl, rfl⟩
  refine ⟨?_, ?_, ?_, ?_, ?_⟩
  · intro id record _ isRdb
    cases isRdb
  · intro id record holds
    obtain ⟨_, rfl⟩ := storedUnder_holds holds
    exact ⟨_, rfl, rfl, Nat.one_ne_zero, fun _ => ⟨_, List.mem_singleton.mpr rfl, rfl⟩⟩
  · intro id record holds
    obtain ⟨_, rfl⟩ := storedUnder_holds holds
    exact ⟨_, _, isRow, by decide⟩
  · intro id id' record record' schema schema' row row' holds holds' _ _ _ _
    rw [(storedUnder_holds holds).1, (storedUnder_holds holds').1]
  · intro id record schema holds known other newest loaded isModel sameKey
    obtain ⟨_, rfl⟩ := storedUnder_holds holds
    cases (show some (nameSchema "test.one" "2") = some schema from known)
    rcases isModel with system | ⟨_, record', holds', belongs⟩
    · have isUrl := twoVersions.urlNamed loaded
      have starts : ∀ url ∈ systemUrls, url.toList.head? = some 'j' := by decide
      obtain ⟨rest, isOther⟩ := List.head?_eq_some_iff.mp (starts other system)
      have spelled : newest.url.toList = 'j' :: rest := by
        rw [isUrl]
        exact isOther
      have newestHead := head_key spelled (by decide) (by decide) (by decide) (by decide)
        (by decide)
      have rowSpelled : (nameSchema "test.one" "2").url.toList = 't' :: "est.one".toList := rfl
      have rowHead := head_key rowSpelled (by decide) (by decide) (by decide) (by decide)
        (by decide)
      rw [sameKey, rowHead] at newestHead
      cases newestHead
    · obtain ⟨_, rfl⟩ := storedUnder_holds holds'
      exact (Option.some.inj belongs).symm

/-- The record of the newest version gets its row back. -/
theorem newestVersion_lossless : (storedUnder "2").RebuildLossless :=
  (storedUnder_saved rfl).rebuildLossless_iff.mpr
    newestVersion_rebuildable

/-- A rebuild does not come through a record of an earlier version. -/
theorem earlierVersion_not_lossless :
    (storedUnder "1").Saved ∧ ¬ (storedUnder "1").RebuildLossless := by
  have saved : (storedUnder "1").Saved := storedUnder_saved rfl
  refine ⟨saved, fun lossless => ?_⟩
  obtain ⟨schema, known, loaded, _⟩ :=
    (saved.rebuildable lossless).indexable 1 (namedRecord "1") ⟨Nat.one_ne_zero, rfl⟩
  cases (show some (nameSchema "test.one" "1") = some schema from known)
  have newest : twoVersions.schemasLoaded "test.one" =
      some (nameSchema "test.one" "2") := rfl
  have same := Option.some.inj (newest.symm.trans loaded)
  exact absurd (congrArg Schema.md5 same) (by decide)

end BCDB

end JumpscaleX
