import JumpscaleX.AgreementRuns
import JumpscaleX.RebuildSteps

/-!
# The full rebuild of the index

`index_rebuild` throws all tables away and indexes the entries of the store one
after the other.  It gives the index back exactly when every entry can be
indexed and no two of them stand in each other's way.
-/

namespace JumpscaleX

open Fallible Stateful PartitionedIndex

namespace BCDB

/-- A writable database after objects were saved: its schemas are known, and
behind the first entry its store holds records only. -/
structure Saved (bcdb : BCDB) : Prop where
  writable : bcdb.readonly = false
  indexWritable : bcdb.indexReadonly = false
  system : ∀ url ∈ systemUrls, ∃ schema,
    bcdb.schemaFactory.schemasLoaded url = some schema
  urls : ∀ url ∈ bcdb.urls, ∃ schema,
    bcdb.schemaFactory.schemasLoaded url = some schema
  first : bcdb.storclient.get 0 = some .init
  records : bcdb.RecordsOnly

/-- `index_rebuild` returns, leaves the store alone, and brings store and index
into agreement for all models with records. -/
def RebuildLossless (bcdb : BCDB) : Prop :=
  ∃ reached, indexRebuild bcdb = .ok () reached ∧
    reached.storclient = bcdb.storclient ∧ reached.Agreement ∧
    ∀ id record, bcdb.Holds id record → ∀ url,
      bcdb.urlOf (.record record) = some url → reached.HasModel url

/-- The row that an object of the record gets under the version it was stored
under. -/
def RowOf (bcdb : BCDB) (record : Record) (schema : Schema) (row : Row) : Prop :=
  bcdb.schemaFactory.schemasMd5 record.bdata.md5 = some schema ∧
    (record.toObj schema).indexRow schema.propertiesIndexSql = .ok row

/-- The entries can be indexed, all in one go. -/
structure Rebuildable (bcdb : BCDB) : Prop where
  reached : ∀ id record, bcdb.Holds id record → bcdb.storclient.Reaches id
  indexable : ∀ id record, bcdb.Holds id record → bcdb.Indexable record
  complete : ∀ id record, bcdb.Holds id record →
    ∃ schema row, bcdb.RowOf record schema row ∧ row.Complete schema.model.columns
  unique : ∀ id id' record record' schema schema' row row',
    bcdb.Holds id record → bcdb.Holds id' record' → schema.url = schema'.url →
    bcdb.RowOf record schema row → bcdb.RowOf record' schema' row' →
    row.Clash schema.model.columns row' → id = id'
  tables : ∀ id record schema, bcdb.Holds id record →
    bcdb.schemaFactory.schemasMd5 record.bdata.md5 = some schema →
    ∀ other newest, bcdb.schemaFactory.schemasLoaded other = some newest →
      (other ∈ systemUrls ∨ ∃ id' record', bcdb.Holds id' record' ∧
        bcdb.urlOf (.record record') = some other) →
      newest.key = schema.key → other = schema.url

/-! ## Before the walk -/

/-- Every model in memory has its table. -/
def HasTables (start : BCDB) (known : Url → Prop) (bcdb : BCDB) : Prop :=
  SameStore start bcdb ∧ (∀ url, known url → bcdb.HasModel url) ∧
    ∀ url model, bcdb.models.find url = some model →
      ∃ table, bcdb.tables model.key = some table

theorem HasTables.addModel {start bcdb : BCDB} {known : Url → Prop} {url : Url}
    {schema : Schema} (has : HasTables start known bcdb)
    (writable : start.readonly = false)
    (loaded : start.schemaFactory.schemasLoaded url = some schema) :
    HasTables start (fun other => known other ∨ other = url)
      (bcdb.addModel schema.model) := by
  obtain ⟨same, models, tables⟩ := has
  have isMaster : bcdb.readonly = false := same.readonly.trans writable
  have isUrl := SchemaFactory.model_url loaded
  have kept : ∀ key table, bcdb.tables key = some table →
      (bcdb.addModel schema.model).tables key = some table := by
    intro key table present
    rw [addModel_tables]
    split
    · rename_i missing
      by_cases here : key = schema.model.key
      · rw [← here, present] at missing
        simp at missing
      · rw [Function.update_of_ne here]
        exact present
    · exact present
  have own : ∃ table, (bcdb.addModel schema.model).tables schema.model.key = some table := by
    cases present : bcdb.tables schema.model.key with
    | some table => exact ⟨table, kept _ table present⟩
    | none =>
        rw [addModel_tables, isMaster, present]
        exact ⟨Table.create schema.model.columns, by simp⟩
  refine ⟨same.trans (addModel_sameStore _ _), ?_, ?_⟩
  · intro other isKnown
    unfold HasModel
    rw [addModel_models, Models.find_add, isUrl]
    split
    · exact ⟨_, rfl⟩
    · rename_i different
      rcases isKnown with isKnown | same'
      · exact models other isKnown
      · exact (different same').elim
  · intro other model found
    rw [addModel_models, Models.find_add] at found
    split at found
    · cases found
      exact own
    · obtain ⟨table, present⟩ := tables other model found
      exact ⟨table, kept _ table present⟩

/-- All known models can be loaded. -/
theorem Saved.loadModels {bcdb : BCDB} (saved : bcdb.Saved) :
    ∃ loaded, bcdb.urls.forM loadModel bcdb.stop = .ok () loaded ∧
      HasTables bcdb (· ∈ bcdb.urls) loaded := by
  refine forM_total (fun front => HasTables bcdb (· ∈ front)) ?_
    ⟨⟨rfl, rfl, rfl, rfl⟩, by simp, fun url model found => by cases found⟩
  intro front url back state split has
  have isUrl : url ∈ bcdb.urls := by rw [split]; simp
  obtain ⟨schema, isLoaded⟩ := saved.urls url isUrl
  have more : ∀ other, other ∈ front ++ [url] ↔ other ∈ front ∨ other = url := by
    simp
  cases found : state.models.find url with
  | some model =>
      refine ⟨state, by simp [loadModel, Stateful.advance, found], has.1, ?_, has.2.2⟩
      intro other member
      rcases (more other).mp member with member | rfl
      · exact has.2.1 other member
      · exact ⟨model, found⟩
  | none =>
      refine ⟨state.addModel schema.model, ?_, ?_⟩
      · rw [loadModel, advance_eq_ok_iff]
        simp only [found]
        exact modelAdd_eq_ok_iff.mpr
          ⟨schema, by rw [has.1.schemaFactory]; exact isLoaded, rfl⟩
      · obtain ⟨same, models, tables⟩ := has.addModel saved.writable isLoaded
        exact ⟨same, fun other member => models other ((more other).mp member), tables⟩

/-- The rows of the models in memory can be deleted. -/
theorem Saved.destroyIndexes {bcdb loaded : BCDB} (saved : bcdb.Saved)
    (has : HasTables bcdb (· ∈ bcdb.urls) loaded) :
    ∃ destroyed, bcdb.urls.forM
        (fun url => BCDBModel.indexDestroy url (some 1)) loaded =
          .ok () destroyed ∧ SameStore bcdb destroyed := by
  have all : ∃ destroyed, bcdb.urls.forM
      (fun url => BCDBModel.indexDestroy url (some 1)) loaded =
        .ok () destroyed ∧ HasTables bcdb (· ∈ bcdb.urls) destroyed := by
    refine forM_total (fun _ => HasTables bcdb (· ∈ bcdb.urls)) ?_ has
    intro front url back state split has
    have isUrl : url ∈ bcdb.urls := by rw [split]; simp
    obtain ⟨same, models, tables⟩ := has
    obtain ⟨model, found⟩ := models url isUrl
    obtain ⟨table, present⟩ := tables url model found
    have isMaster := same.indexReadonly.trans saved.indexWritable
    refine ⟨state.setTable model.key (table.deleteByNid 1), ?_,
      same.trans (setTable_sameStore _ _ _), ?_, ?_⟩
    · rw [BCDBModel.indexDestroy, advance_eq_ok_iff, bind_eq_ok_iff]
      exact ⟨model, model_eq_ok_iff.mpr found, writeTable_eq_ok_iff.mpr
        ⟨isMaster, table, _, present, rfl, rfl⟩⟩
    · intro other member
      simpa only [HasModel, setTable_models] using models other member
    · intro other model' found'
      rw [setTable_models] at found'
      by_cases here : model'.key = model.key
      · exact ⟨table.deleteByNid 1, by rw [here, setTable_tables_self]⟩
      · rw [setTable_tables_of_ne _ _ _ here]
        exact tables other model' found'
  obtain ⟨destroyed, destroys, has'⟩ := all
  exact ⟨destroyed, destroys, has'.1⟩

theorem Saved.indexReset {bcdb : BCDB} (saved : bcdb.Saved) :
    ∃ between, indexReset bcdb = .ok () between ∧ SameStore bcdb between ∧
      (∀ key, between.tables key = none) := by
  obtain ⟨loaded, loads, has⟩ := saved.loadModels
  obtain ⟨destroyed, destroys, same⟩ := saved.destroyIndexes has
  refine ⟨{ destroyed with tables := fun _ => none }, ?_,
    ⟨same.storclient, same.schemaFactory, same.readonly, same.indexReadonly⟩,
    fun _ => rfl⟩
  have urls : bcdb.stop.urls = bcdb.urls := rfl
  simp only [BCDB.indexReset, modify_seq, get_seq, urls, seq_of_ok loads,
    seq_of_ok destroys]
  rfl

/-- After a start the system models stand over empty tables. -/
theorem Saved.start {bcdb between : BCDB} (saved : bcdb.Saved)
    (same : SameStore bcdb between) (empty : ∀ key, between.tables key = none) :
    ∃ started, start between = .ok () started ∧
      Tidy bcdb (· ∈ systemUrls) [] started ∧ started.urls ≠ [] := by
  have all : ∃ started, systemUrls.forM
      (fun url => Stateful.advance (fun bcdb => bcdb.modelAdd url)) between.stop =
        .ok () started ∧ Tidy bcdb (· ∈ systemUrls) [] started ∧
          (systemUrls ≠ [] → started.urls ≠ []) := by
    refine forM_total (fun front started => Tidy bcdb (· ∈ front) [] started ∧
      (front ≠ [] → started.urls ≠ [])) ?_ ?_
    · rintro front url back state split ⟨tidy, _⟩
      have isUrl : url ∈ systemUrls := by rw [split]; simp
      obtain ⟨schema, isLoaded⟩ := saved.system url isUrl
      refine ⟨state.addModel schema.model, ?_, ?_, ?_⟩
      · rw [advance_eq_ok_iff]
        exact modelAdd_eq_ok_iff.mpr
          ⟨schema, by rw [tidy.same.schemaFactory]; exact isLoaded, rfl⟩
      · exact (tidy.addModel saved.writable isLoaded).congr (by simp)
      · intro _
        simp only [addModel, urlSet]
        split
        · rename_i member
          exact List.ne_nil_of_mem member
        · simp
    · refine ⟨⟨same.trans ⟨rfl, rfl, rfl, rfl⟩, ?_, ?_, ?_, ?_, ?_⟩, by simp⟩
      · intro url
        simp [HasModel, stop, Models.empty]
      · intro url model found
        cases found
      · intro url model found
        cases found
      · intro key table present
        change between.tables key = some table at present
        rw [empty] at present
        cases present
      · intro key table id row present
        change between.tables key = some table at present
        rw [empty] at present
        cases present
  obtain ⟨started, starts, tidy, urls⟩ := all
  refine ⟨started, ?_, tidy, urls (by decide)⟩
  simp only [BCDB.start, modify_seq]
  exact starts

/-- The rebuild is the walk over the entries, from a tidy database. -/
theorem Saved.indexRebuild {bcdb : BCDB} (saved : bcdb.Saved) :
    ∃ started, Tidy bcdb (· ∈ systemUrls) [] started ∧
      indexRebuild bcdb =
        bcdb.storclient.iterate.tail.forM rebuildEntry started := by
  obtain ⟨between, resets, same, empty⟩ := saved.indexReset
  obtain ⟨started, starts, tidy, urls⟩ := saved.start same empty
  refine ⟨started, tidy, ?_⟩
  rw [BCDB.indexRebuild, seq_of_ok resets, seq_of_ok starts, get_seq]
  simp only [runIf_of_not urls, return_seq, tidy.same.storclient]

/-! ## The walk -/

/-- The entries behind the first one. -/
theorem Saved.mem_tail_iff {bcdb : BCDB} (saved : bcdb.Saved) {id : Nat}
    {data : Stored} :
    (id, data) ∈ bcdb.storclient.iterate.tail ↔
      ∃ record, data = .record record ∧ bcdb.Holds id record ∧
        bcdb.storclient.Reaches id := by
  have sorted := bcdb.storclient.iterate_sorted
  have behind : (id, data) ∈ bcdb.storclient.iterate.tail ↔
      id ≠ 0 ∧ (id, data) ∈ bcdb.storclient.iterate := by
    cases entries : bcdb.storclient.iterate with
    | nil => simp
    | cons head rest =>
        rw [entries] at sorted
        obtain ⟨first, _⟩ := List.pairwise_cons.mp sorted
        -- the least key is the one of the first entry
        have headZero : head.1 = 0 := by
          by_contra notZero
          have member : head ∈ bcdb.storclient.iterate := by simp [entries]
          obtain ⟨_, reaches, _⟩ := StorClient.mem_iterate_iff.mp member
          have zero : (0, Stored.init) ∈ bcdb.storclient.iterate :=
            StorClient.mem_iterate_iff.mpr ⟨saved.first,
              fun isRdb => ⟨(reaches isRdb).1, Nat.zero_le _⟩, fun _ => rfl⟩
          rw [entries] at zero
          rcases List.mem_cons.mp zero with same | later
          · exact notZero (by rw [← same])
          · exact Nat.not_lt_zero _ (first _ later)
        rw [List.tail_cons, List.mem_cons]
        constructor
        · intro member
          have above := first _ member
          rw [headZero] at above
          exact ⟨Nat.pos_iff_ne_zero.mp above, .inr member⟩
        · rintro ⟨notZero, same | member⟩
          · exact (notZero (by rw [← headZero, ← same])).elim
          · exact member
  rw [behind, StorClient.mem_iterate_iff]
  constructor
  · rintro ⟨notZero, found, reaches, _⟩
    obtain ⟨record, _, rfl, _⟩ := saved.records id data notZero found
    exact ⟨record, rfl, ⟨notZero, found⟩, reaches⟩
  · rintro ⟨record, rfl, ⟨notZero, found⟩, reaches⟩
    exact ⟨notZero, found, reaches, fun _ => rfl⟩

/-- The urls of the models after some entries were indexed. -/
def KnownAfter (bcdb : BCDB) (front : List (Nat × Stored)) (url : Url) : Prop :=
  url ∈ systemUrls ∨ ∃ entry ∈ front, bcdb.urlOf entry.2 = some url

theorem knownAfter_append {bcdb : BCDB} {front : List (Nat × Stored)}
    (entry : Nat × Stored) (url : Url) :
    (bcdb.KnownAfter front url ∨ bcdb.urlOf entry.2 = some url) ↔
      bcdb.KnownAfter (front ++ [entry]) url := by
  simp only [KnownAfter, List.mem_append, List.mem_singleton, or_assoc]
  constructor
  · rintro (system | ⟨other, member, belongs⟩ | belongs)
    · exact .inl system
    · exact .inr ⟨other, .inl member, belongs⟩
    · exact .inr ⟨entry, .inr rfl, belongs⟩
  · rintro (system | ⟨other, member | rfl, belongs⟩)
    · exact .inl system
    · exact .inr (.inl ⟨other, member, belongs⟩)
    · exact .inr (.inr belongs)

/-- What a walk that returns tells about the entries. -/
theorem Saved.walk_trace {bcdb started reached : BCDB} (saved : bcdb.Saved)
    (tidy : Tidy bcdb (· ∈ systemUrls) [] started)
    (done : bcdb.storclient.iterate.tail.forM rebuildEntry started =
      .ok () reached) :
    Tidy bcdb (bcdb.KnownAfter bcdb.storclient.iterate.tail)
        (bcdb.storclient.iterate.tail.map Prod.fst) reached ∧
      ∀ id record, (id, .record record) ∈ bcdb.storclient.iterate.tail →
        bcdb.Indexable record := by
  refine forM_trace (fun front state =>
    Tidy bcdb (bcdb.KnownAfter front) (front.map Prod.fst) state ∧
      ∀ id record, (id, .record record) ∈ front → bcdb.Indexable record)
    ?_ ⟨tidy.congr (by simp [KnownAfter]), by simp⟩ done
  rintro front ⟨id, data⟩ back state next _ split ⟨tidy, indexable⟩ step
  have member : (id, data) ∈ bcdb.storclient.iterate.tail := by rw [split]; simp
  obtain ⟨record, rfl, holds, _⟩ := saved.mem_tail_iff.mp member
  obtain ⟨_, _, same, _, own⟩ := saved.records id _ holds.1 holds.2
  cases same
  obtain ⟨isIndexable, tidy'⟩ := tidy.rebuildEntry saved.writable saved.indexWritable
    holds.1 own step
  refine ⟨?_, ?_⟩
  · rw [List.map_append]
    exact tidy'.congr (knownAfter_append (id, .record record))
  · intro other record' member'
    rcases List.mem_append.mp member' with earlier | here
    · exact indexable other record' earlier
    · cases List.mem_singleton.mp here
      exact isIndexable

/-! ## A lossless rebuild -/

/-- The row under an id of a model is in its table. -/
theorem rowAt_eq_some_iff {bcdb : BCDB} {url : Url} {id : Nat} {row : Row} :
    bcdb.rowAt url id = some row ↔ ∃ model table,
      bcdb.models.find url = some model ∧ bcdb.tables model.key = some table ∧
      table.lookup id = some row := by
  simp only [rowAt, Option.bind_eq_some_iff, exists_and_left]

/-- A database whose rebuild was lossless could be rebuilt. -/
theorem Saved.rebuildable {bcdb : BCDB} (saved : bcdb.Saved)
    (lossless : bcdb.RebuildLossless) : bcdb.Rebuildable := by
  obtain ⟨reached, done, sameStore, agreement, hasModels⟩ := lossless
  obtain ⟨started, tidyStart, walk⟩ := saved.indexRebuild
  rw [walk] at done
  obtain ⟨tidy, indexable⟩ := saved.walk_trace tidyStart done
  have factory := tidy.same.schemaFactory
  -- every record has its row in the table of its url
  have rowOf : ∀ id record schema, bcdb.Holds id record →
      bcdb.schemaFactory.schemasMd5 record.bdata.md5 = some schema →
      ∃ newest table row, bcdb.schemaFactory.schemasLoaded schema.url = some newest ∧
        reached.models.find schema.url = some newest.model ∧
        reached.tables newest.model.key = some table ∧
        table.lookup id = some row ∧
        (record.toObj schema).indexRow newest.propertiesIndexSql = .ok row := by
    intro id record schema holds known
    have belongs : bcdb.urlOf (.record record) = some schema.url := by
      simp [urlOf, known]
    have hasModel := hasModels id record holds schema.url belongs
    rcases agreement schema.url hasModel id with
      ⟨value, row, stored, _, found, isRow⟩ | ⟨foreign, _⟩
    · obtain ⟨model, record', schema', foundModel, rfl, known', read⟩ := isRow
      rw [sameStore, holds.2, Option.some.injEq, Stored.record.injEq] at stored
      subst stored
      rw [factory, known, Option.some.injEq] at known'
      subst known'
      obtain ⟨newest, loaded, rfl⟩ := tidy.newest _ model foundModel
      obtain ⟨model', table, foundModel', present, lookup⟩ := rowAt_eq_some_iff.mp found
      rw [foundModel, Option.some.injEq] at foundModel'
      subst foundModel'
      exact ⟨newest, table, row, loaded, foundModel, present, lookup, read⟩
    · refine (foreign (.record record) ?_ ?_).elim
      · rw [sameStore]
        exact holds.2
      · simp [urlOf, factory, known]
  have walked : ∀ id record, bcdb.Holds id record →
      (id, .record record) ∈ bcdb.storclient.iterate.tail := by
    intro id record holds
    obtain ⟨_, schema, same, known, _⟩ := saved.records id _ holds.1 holds.2
    cases same
    obtain ⟨newest, table, row, _, _, present, lookup, _⟩ :=
      rowOf id record schema holds known
    obtain ⟨member, _⟩ := tidy.rows _ table id row present lookup
    obtain ⟨⟨id', data⟩, inTail, sameId⟩ := List.mem_map.mp member
    cases sameId
    obtain ⟨record', rfl, holds', reaches⟩ := saved.mem_tail_iff.mp inTail
    have sameRecord := holds.2.symm.trans holds'.2
    rw [Option.some.injEq] at sameRecord
    rw [sameRecord]
    exact inTail
  have isIndexable : ∀ id record, bcdb.Holds id record → bcdb.Indexable record :=
    fun id record holds => indexable id record (walked id record holds)
  -- the newest version is the one of the record
  have rowOf' : ∀ id record schema, bcdb.Holds id record →
      bcdb.schemaFactory.schemasMd5 record.bdata.md5 = some schema →
      ∃ table row, reached.models.find schema.url = some schema.model ∧
        reached.tables schema.model.key = some table ∧
        table.lookup id = some row ∧ bcdb.RowOf record schema row := by
    intro id record schema holds known
    obtain ⟨newest, table, row, loaded, found, present, lookup, read⟩ :=
      rowOf id record schema holds known
    obtain ⟨schema', known', loaded', _⟩ := isIndexable id record holds
    rw [known, Option.some.injEq] at known'
    subst known'
    rw [loaded, Option.some.injEq] at loaded'
    subst loaded'
    exact ⟨table, row, found, present, lookup, known, read⟩
  -- no other model has the table of a url with records
  have tables : ∀ id record schema, bcdb.Holds id record →
      bcdb.schemaFactory.schemasMd5 record.bdata.md5 = some schema →
      ∀ other model, reached.models.find other = some model →
        model.key = schema.model.key → other = schema.url := by
    intro id record schema holds known other model found sameKey
    obtain ⟨table, row, _, present, lookup, _⟩ := rowOf' id record schema holds known
    have atOther : reached.rowAt other id = some row :=
      rowAt_eq_some_iff.mpr ⟨model, table, found, by rw [sameKey]; exact present, lookup⟩
    rcases agreement other ⟨model, found⟩ id with
      ⟨value, _, stored, belongs, _⟩ | ⟨_, absent⟩
    · rw [sameStore, holds.2, Option.some.injEq] at stored
      subst stored
      simpa [urlOf, factory, known, eq_comm] using belongs
    · rw [atOther] at absent
      cases absent
  have columns : ∀ id record schema table, bcdb.Holds id record →
      bcdb.schemaFactory.schemasMd5 record.bdata.md5 = some schema →
      reached.models.find schema.url = some schema.model →
      reached.tables schema.model.key = some table →
      table.columns = schema.model.columns := by
    intro id record schema table holds known found present
    obtain ⟨other, model, foundOther, isKey, columns⟩ := tidy.owned _ table present
    have same := tables id record schema holds known other model foundOther isKey
    subst same
    rw [found, Option.some.injEq] at foundOther
    rw [columns, foundOther]
  refine ⟨?_, isIndexable, ?_, ?_, ?_⟩
  · intro id record holds
    obtain ⟨_, _, _, reaches⟩ := saved.mem_tail_iff.mp (walked id record holds)
    exact reaches
  · intro id record holds
    obtain ⟨schema, known, _⟩ := isIndexable id record holds
    obtain ⟨table, row, found, present, lookup, isRow⟩ :=
      rowOf' id record schema holds known
    have isColumns := columns id record schema table holds known found present
    refine ⟨schema, row, isRow, ?_⟩
    rw [← isColumns]
    exact (tidy.rows _ table id row present lookup).2
  · intro id id' record record' schema schema' row row' holds holds' sameUrl isRow isRow' clash
    obtain ⟨table, found, foundModel, present, lookup, foundRow⟩ :=
      rowOf' id record schema holds isRow.1
    obtain ⟨table', found', foundModel', present', lookup', foundRow'⟩ :=
      rowOf' id' record' schema' holds' isRow'.1
    have sameRow := isRow.2.symm.trans foundRow.2
    have sameRow' := isRow'.2.symm.trans foundRow'.2
    rw [Except.ok.injEq] at sameRow sameRow'
    subst sameRow sameRow'
    have isColumns := columns id record schema table holds isRow.1 foundModel present
    rw [← sameUrl, foundModel, Option.some.injEq] at foundModel'
    rw [← foundModel', present, Option.some.injEq] at present'
    subst present'
    rw [← isColumns] at clash
    exact Table.eq_of_clash lookup lookup' clash
  · intro id record schema holds known other newest loaded isModel sameKey
    have isKnown : reached.HasModel other := by
      rcases isModel with system | ⟨id', record', holds', belongs⟩
      · exact (tidy.models other).mpr (.inl system)
      · exact hasModels id' record' holds' other belongs
    obtain ⟨model, found⟩ := isKnown
    obtain ⟨newest', loaded', rfl⟩ := tidy.newest other model found
    rw [loaded, Option.some.injEq] at loaded'
    subst loaded'
    exact tables id record schema holds known other newest.model found sameKey

end BCDB

end JumpscaleX
