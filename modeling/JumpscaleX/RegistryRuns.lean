import Mathlib.Data.List.Infix
import JumpscaleX.Library.Runs
import JumpscaleX.SchemaRegistry
import JumpscaleX.WireNames

/-!
# Runs of the registry

What holds of the registry of schemas in every state, and what it never forgets as long as
nothing is taken out.
-/

namespace JumpscaleX.SchemaRegistry

open Fallible Stateful
open PropertyNames (Text)
open SchemaTexts

variable {T : Type} {env : Environment T} {md5String : Text → Text}

/-! ## One schema -/

section

variable {factory : Factory T} {url other : Text}

theorem le_foldl_sid {entries : List (Text × UrlData)} (start : Nat) :
    start ≤ entries.foldl
      (fun highest entry => if highest < entry.2.sid then entry.2.sid else highest) start ∧
    ∀ entry ∈ entries, entry.2.sid ≤ entries.foldl
      (fun highest entry => if highest < entry.2.sid then entry.2.sid else highest) start := by
  induction entries generalizing start with
  | nil => exact ⟨le_refl start, fun entry member => by cases member⟩
  | cons first entries induction =>
      rw [List.foldl_cons]
      obtain ⟨least, others⟩ := induction (if start < first.2.sid then first.2.sid else start)
      have both : start ≤ (if start < first.2.sid then first.2.sid else start) ∧
          first.2.sid ≤ (if start < first.2.sid then first.2.sid else start) := by
        split
        · omega
        · omega
      refine ⟨le_trans both.1 least, ?_⟩
      intro entry member
      rcases List.mem_cons.mp member with same | later
      · rw [same]
        exact le_trans both.2 least
      · exact others entry later

theorem sid_lt_findSid {urlData : UrlData} (found : factory.data.url.get url = some urlData) :
    urlData.sid < factory.findSid := by
  have member := Dict.get_eq_some_iff.mp found
  exact Nat.lt_succ_of_le ((le_foldl_sid 0).2 _ member)

/-- The data of a url once it is defined. -/
def Factory.defined (factory : Factory T) (url : Text) : UrlData :=
  (factory.data.url.get url).getD ⟨factory.findSid, []⟩

theorem get_schemaDefine : (factory.schemaDefine url).data.url.get other =
    if other = url then some (factory.defined url) else factory.data.url.get other := by
  rw [Factory.schemaDefine, Factory.defined]
  by_cases there : url ∈ factory.data.url.keys
  · obtain ⟨urlData, found⟩ := Option.ne_none_iff_exists'.mp (Dict.mem_keys_iff.mp there)
    rw [if_pos there, found]
    split
    · rename_i same
      rw [same, found]
      rfl
    · rfl
  · have absent : factory.data.url.get url = none := by
      rw [Dict.mem_keys_iff, not_not] at there
      exact there
    rw [if_neg there, absent]
    exact Dict.get_put

theorem md5_schemaDefine : (factory.schemaDefine url).data.md5 = factory.data.md5 := by
  rw [Factory.schemaDefine]
  split
  · rfl
  · rfl

theorem memory_schemaDefine :
    (factory.schemaDefine url).schemasLoaded = factory.schemasLoaded ∧
      (factory.schemaDefine url).schemasMd5 = factory.schemasMd5 := by
  rw [Factory.schemaDefine]
  split
  · exact ⟨rfl, rfl⟩
  · exact ⟨rfl, rfl⟩

/-- The list of a url when a schema is registered. -/
def Factory.listed (factory : Factory T) (schema : ParsedSchema T) (newest : Bool) : List Text :=
  (Factory.registered (factory.defined schema.url).md5s schema.md5 newest).1

/-- The factory with the md5 of a schema in the list of its url. -/
def Factory.withList (factory : Factory T) (schema : ParsedSchema T) (newest : Bool) : Factory T :=
  (factory.schemaDefine schema.url).putUrl schema.url
    { factory.defined schema.url with md5s := factory.listed schema newest }

theorem get_withList (schema : ParsedSchema T) (newest : Bool) :
    (factory.withList schema newest).data.url.get other =
      if other = schema.url then
        some { factory.defined schema.url with md5s := factory.listed schema newest }
      else factory.data.url.get other := by
  rw [Factory.withList]
  refine Dict.get_put.trans ?_
  split
  · rfl
  · rename_i differ
    rw [get_schemaDefine, if_neg differ]

/-- What `schema_set` comes to: the md5 is in the list, its text is in the table unless it was
there, and all this may be saved. -/
inductive Sets (epoch : Int) (schema : ParsedSchema T) (newest : Bool) (factory : Factory T) :
    Factory T → Prop where
  | known (md5Data : Md5Data) (found : factory.data.md5.get schema.md5 = some md5Data) :
      Sets epoch schema newest factory (factory.withList schema newest)
  | added (new : factory.data.md5.get schema.md5 = none) :
      Sets epoch schema newest factory ((factory.withList schema newest).putMd5 schema.md5
        ⟨schema.text, epoch, schema.url⟩)
  | saved {reached : Factory T} (sets : Sets epoch schema newest factory reached) :
      Sets epoch schema newest factory reached.save

theorem schemaSet_sets (epoch : Int) (schema : ParsedSchema T) (save newest : Bool)
    (factory : Factory T) :
    Sets epoch schema newest factory (final (schemaSet epoch schema save newest) factory) := by
  have urlData : (factory.schemaDefine schema.url).data.url.get schema.url =
      some (factory.defined schema.url) := by
    rw [get_schemaDefine, if_pos rfl]
  rw [schemaSet, final_modify_seq, final_get_seq]
  simp only [urlData]
  rw [final_modify_seq, md5_schemaDefine]
  cases found : factory.data.md5.get schema.md5 with
  | none =>
      simp only
      rw [final_modify_seq]
      cases save with
      | true => exact .saved (.added found)
      | false => exact .added found
  | some md5Data =>
      simp only
      split
      · exact .known md5Data found
      · rw [runIf]
        split
        · exact .saved (.known md5Data found)
        · exact .known md5Data found

theorem Sets.memory {epoch : Int} {schema : ParsedSchema T} {newest : Bool}
    {factory reached : Factory T} (sets : Sets epoch schema newest factory reached) :
    reached.schemasLoaded = factory.schemasLoaded ∧ reached.schemasMd5 = factory.schemasMd5 := by
  induction sets with
  | known _ _ => exact memory_schemaDefine
  | added _ => exact memory_schemaDefine
  | saved _ induction => exact induction

theorem Sets.get_url {epoch : Int} {schema : ParsedSchema T} {newest : Bool}
    {factory reached : Factory T} (sets : Sets epoch schema newest factory reached)
    (other : Text) : reached.data.url.get other =
      if other = schema.url then
        some { factory.defined schema.url with md5s := factory.listed schema newest }
      else factory.data.url.get other := by
  induction sets with
  | known _ _ => exact get_withList schema newest
  | added _ => exact get_withList schema newest
  | saved _ induction => exact induction

/-- The md5 has an entry, and the other entries are as they were. -/
theorem Sets.get_md5 {epoch : Int} {schema : ParsedSchema T} {newest : Bool}
    {factory reached : Factory T} (sets : Sets epoch schema newest factory reached)
    (md5 : Text) : reached.data.md5.get md5 =
      if md5 = schema.md5 then
        some ((factory.data.md5.get md5).getD ⟨schema.text, epoch, schema.url⟩)
      else factory.data.md5.get md5 := by
  have table : (factory.withList schema newest).data.md5 = factory.data.md5 := md5_schemaDefine
  induction sets with
  | known md5Data found =>
      rw [table]
      split
      · rename_i same
        rw [same, found]
        rfl
      · rfl
  | added new =>
      refine Dict.get_put.trans ?_
      split
      · rename_i same
        rw [same, new]
        rfl
      · rw [table]
  | saved _ induction => exact induction

/-! ## Lists of md5s -/

theorem mem_registered {md5s : List Text} {md5 other : Text} {newest : Bool} :
    other ∈ (Factory.registered md5s md5 newest).1 ↔ other = md5 ∨ other ∈ md5s := by
  rw [Factory.registered]
  split
  · rename_i there
    split
    · rw [List.mem_append, List.mem_singleton, or_comm]
      constructor
      · exact Or.imp id List.mem_of_mem_erase
      · rintro (same | member)
        · exact .inl same
        · by_cases same : other = md5
          · exact .inl same
          · exact .inr ((List.mem_erase_of_ne same).mpr member)
    · constructor
      · exact .inr
      · rintro (same | member)
        · rw [same]
          exact there
        · exact member
  · split
    · rw [List.mem_append, List.mem_singleton, or_comm]
    · exact List.mem_cons

theorem nodup_registered {md5s : List Text} {md5 : Text} {newest : Bool} (nodup : md5s.Nodup) :
    (Factory.registered md5s md5 newest).1.Nodup := by
  rw [Factory.registered]
  split
  · split
    · rw [← List.concat_eq_append, List.nodup_concat]
      exact ⟨nodup.not_mem_erase, nodup.erase md5⟩
    · exact nodup
  · rename_i absent
    split
    · rw [← List.concat_eq_append, List.nodup_concat]
      exact ⟨absent, nodup⟩
    · exact List.nodup_cons.mpr ⟨absent, nodup⟩

/-- What is registered as newest is at the end. -/
theorem getLast_registered {md5s : List Text} {md5 : Text} :
    (Factory.registered md5s md5 true).1.getLast? = some md5 := by
  rw [Factory.registered]
  split
  · split
    · exact List.getLast?_concat
    · rename_i last
      rw [not_and, not_not] at last
      exact last rfl
  · exact List.getLast?_concat

/-- What is not registered as newest stands before the others. -/
theorem suffix_registered {md5s : List Text} {md5 : Text} :
    md5s <:+ (Factory.registered md5s md5 false).1 := by
  rw [Factory.registered]
  split
  · rw [if_neg (by simp)]
  · exact List.suffix_cons md5 md5s

end

/-! ## What holds in every state -/

/-- The schema was made of a text. -/
def Made (env : Environment T) (schema : ParsedSchema T) : Prop :=
  ∃ text url md5, schemaInit env text url md5 = .ok schema

/-- Urls have different numbers, and lists without duplicates. -/
structure MetaData.Valid (data : MetaData) : Prop where
  sid_inj : ∀ url other first second, data.url.get url = some first →
    data.url.get other = some second → first.sid = second.sid → url = other
  nodup : ∀ url urlData, data.url.get url = some urlData → urlData.md5s.Nodup

/-- A schema in memory is under its own url, and is registered for it; and the file holds valid
metadata. -/
structure Factory.Valid (env : Environment T) (factory : Factory T) : Prop where
  data : factory.data.Valid
  file : ∀ data, factory.file = some data → data.Valid
  loaded : ∀ url schema, factory.schemasLoaded.get url = some schema → schema.url = url ∧
    ∃ urlData, factory.data.url.get url = some urlData ∧ schema.md5 ∈ urlData.md5s
  loaded_made : ∀ url schema, factory.schemasLoaded.get url = some schema → Made env schema
  made : ∀ md5 schema, factory.schemasMd5.get md5 = some schema → Made env schema

/-- Nothing that the registry has is lost. -/
structure Grows (earlier later : Factory T) : Prop where
  url : ∀ url urlData, earlier.data.url.get url = some urlData →
    ∃ grown, later.data.url.get url = some grown ∧ grown.sid = urlData.sid ∧
      ∀ md5 ∈ urlData.md5s, md5 ∈ grown.md5s
  md5 : ∀ md5 md5Data, earlier.data.md5.get md5 = some md5Data →
    later.data.md5.get md5 = some md5Data

/-- What was last in a list is last in it. -/
def SameNewest (earlier later : Factory T) : Prop :=
  ∀ url urlData, earlier.data.url.get url = some urlData →
    ∃ grown, later.data.url.get url = some grown ∧ urlData.md5s <:+ grown.md5s

namespace Grows

variable {earlier between later : Factory T}

theorem refl (factory : Factory T) : Grows factory factory :=
  ⟨fun _ urlData found => ⟨urlData, found, rfl, fun _ member => member⟩, fun _ _ found => found⟩

theorem trans (first : Grows earlier between) (second : Grows between later) :
    Grows earlier later := by
  refine ⟨?_, fun md5 md5Data found => second.md5 md5 md5Data (first.md5 md5 md5Data found)⟩
  intro url urlData found
  obtain ⟨grown, there, sameSid, kept⟩ := first.url url urlData found
  obtain ⟨further, thereToo, sameSidToo, keptToo⟩ := second.url url grown there
  exact ⟨further, thereToo, sameSidToo.trans sameSid,
    fun md5 member => keptToo md5 (kept md5 member)⟩

end Grows

section

variable {epoch : Int} {schema : ParsedSchema T} {newest : Bool} {factory reached : Factory T}

theorem defined_of_get {url : Text} {urlData : UrlData}
    (found : factory.data.url.get url = some urlData) : factory.defined url = urlData := by
  rw [Factory.defined, found]
  rfl

theorem Sets.grows (sets : Sets epoch schema newest factory reached) : Grows factory reached := by
  constructor
  · intro url urlData found
    rw [sets.get_url]
    by_cases here : url = schema.url
    · rw [if_pos here]
      rw [here] at found
      refine ⟨_, rfl, ?_, ?_⟩
      · rw [defined_of_get found]
      · intro md5 member
        simp only [Factory.listed, defined_of_get found]
        exact mem_registered.mpr (.inr member)
    · rw [if_neg here]
      exact ⟨urlData, found, rfl, fun _ member => member⟩
  · intro md5 md5Data found
    rw [sets.get_md5]
    split
    · rw [found]
      rfl
    · exact found

theorem Sets.sameNewest (sets : Sets epoch schema false factory reached) :
    SameNewest factory reached := by
  intro url urlData found
  rw [sets.get_url]
  by_cases here : url = schema.url
  · rw [if_pos here]
    rw [here] at found
    refine ⟨_, rfl, ?_⟩
    simp only [Factory.listed, defined_of_get found]
    exact suffix_registered
  · rw [if_neg here]
    exact ⟨urlData, found, List.suffix_refl _⟩

/-- The md5 of the schema is in the list of its url. -/
theorem Sets.mem (sets : Sets epoch schema newest factory reached) :
    ∃ urlData, reached.data.url.get schema.url = some urlData ∧ schema.md5 ∈ urlData.md5s := by
  rw [sets.get_url, if_pos rfl]
  exact ⟨_, rfl, mem_registered.mpr (.inl rfl)⟩

theorem defined_sid_ne (valid : factory.data.Valid) {url other : Text} {urlData : UrlData}
    (differ : other ≠ url) (found : factory.data.url.get other = some urlData) :
    urlData.sid ≠ (factory.defined url).sid := by
  cases isDefined : factory.data.url.get url with
  | some there =>
      rw [defined_of_get isDefined]
      intro same
      exact differ (valid.sid_inj other url _ _ found isDefined same)
  | none =>
      rw [Factory.defined, isDefined]
      exact Nat.ne_of_lt (sid_lt_findSid found)

theorem defined_nodup (valid : factory.data.Valid) (url : Text) :
    (factory.defined url).md5s.Nodup := by
  cases isDefined : factory.data.url.get url with
  | some there =>
      rw [defined_of_get isDefined]
      exact valid.nodup url there isDefined
  | none =>
      rw [Factory.defined, isDefined]
      exact List.nodup_nil

theorem Sets.data_valid (sets : Sets epoch schema newest factory reached)
    (valid : factory.data.Valid) : reached.data.Valid := by
  constructor
  · intro url other first second
    rw [sets.get_url, sets.get_url]
    by_cases here : url = schema.url
    · by_cases hereToo : other = schema.url
      · intro _ _ _
        rw [here, hereToo]
      · rw [if_pos here, if_neg hereToo]
        intro isFirst isSecond sameSid
        rw [← Option.some.inj isFirst] at sameSid
        exact absurd sameSid.symm (defined_sid_ne valid hereToo isSecond)
    · by_cases hereToo : other = schema.url
      · rw [if_neg here, if_pos hereToo]
        intro isFirst isSecond sameSid
        rw [← Option.some.inj isSecond] at sameSid
        exact absurd sameSid (defined_sid_ne valid here isFirst)
      · rw [if_neg here, if_neg hereToo]
        exact valid.sid_inj url other first second
  · intro url urlData
    rw [sets.get_url]
    split
    · intro same
      rw [← Option.some.inj same]
      exact nodup_registered (defined_nodup valid schema.url)
    · exact valid.nodup url urlData

theorem schemaDefine_valid (valid : factory.data.Valid) (url : Text) :
    (factory.schemaDefine url).data.Valid := by
  constructor
  · intro first second one two
    rw [get_schemaDefine, get_schemaDefine]
    by_cases here : first = url
    · by_cases hereToo : second = url
      · intro _ _ _
        rw [here, hereToo]
      · rw [if_pos here, if_neg hereToo]
        intro isFirst isSecond sameSid
        rw [← Option.some.inj isFirst] at sameSid
        exact absurd sameSid.symm (defined_sid_ne valid hereToo isSecond)
    · by_cases hereToo : second = url
      · rw [if_neg here, if_pos hereToo]
        intro isFirst isSecond sameSid
        rw [← Option.some.inj isSecond] at sameSid
        exact absurd sameSid (defined_sid_ne valid here isFirst)
      · rw [if_neg here, if_neg hereToo]
        exact valid.sid_inj first second one two
  · intro other urlData
    rw [get_schemaDefine]
    split
    · intro same
      rw [← Option.some.inj same]
      exact defined_nodup valid url
    · exact valid.nodup other urlData

/-- The file after `_schema_define`. -/
theorem schemaDefine_file (valid : factory.data.Valid)
    (file : ∀ data, factory.file = some data → data.Valid) (url : Text) :
    ∀ data, (factory.schemaDefine url).file = some data → data.Valid := by
  have defined := schemaDefine_valid valid url
  rw [Factory.schemaDefine] at defined ⊢
  split
  · exact file
  · rename_i absent
    rw [if_neg absent] at defined
    intro data isData
    rw [← Option.some.inj isData]
    exact defined

theorem Sets.file_valid (sets : Sets epoch schema newest factory reached)
    (valid : factory.data.Valid) (file : ∀ data, factory.file = some data → data.Valid) :
    ∀ data, reached.file = some data → data.Valid := by
  cases sets with
  | known _ _ => exact schemaDefine_file valid file schema.url
  | added _ => exact schemaDefine_file valid file schema.url
  | saved sets =>
      intro data isData
      rw [← Option.some.inj isData]
      exact sets.data_valid valid

theorem Sets.valid (sets : Sets epoch schema newest factory reached)
    (valid : factory.Valid env) : reached.Valid env where
  data := sets.data_valid valid.data
  file := sets.file_valid valid.data valid.file
  loaded := by
    intro url found isLoaded
    rw [sets.memory.1] at isLoaded
    obtain ⟨own, urlData, there, member⟩ := valid.loaded url found isLoaded
    obtain ⟨grown, stillThere, -, kept⟩ := sets.grows.url url urlData there
    exact ⟨own, grown, stillThere, kept _ member⟩
  loaded_made := by
    rw [sets.memory.1]
    exact valid.loaded_made
  made := by
    rw [sets.memory.2]
    exact valid.made

theorem remember_valid (valid : factory.Valid env) (made : Made env schema)
    (there : ∃ urlData, factory.data.url.get schema.url = some urlData ∧
      schema.md5 ∈ urlData.md5s) : (factory.remember schema newest).Valid env where
  data := valid.data
  file := valid.file
  loaded := by
    intro url found
    simp only [Factory.remember]
    split
    · rw [Dict.get_put]
      split
      · rename_i same
        intro isFound
        rw [← Option.some.inj isFound, same]
        exact ⟨rfl, there⟩
      · exact valid.loaded url found
    · exact valid.loaded url found
  loaded_made := by
    intro url found
    simp only [Factory.remember]
    split
    · rw [Dict.get_put]
      split
      · intro isFound
        rw [← Option.some.inj isFound]
        exact made
      · exact valid.loaded_made url found
    · exact valid.loaded_made url found
  made := by
    intro md5 found
    simp only [Factory.remember]
    split
    · rw [Dict.get_put]
      split
      · intro isFound
        rw [← Option.some.inj isFound]
        exact made
      · exact valid.made md5 found
    · exact valid.made md5 found

end

/-! ## Operations -/

/-- A property of factories that holds on while schemas are added to them, as newest ones when
that is allowed. -/
structure Stable (env : Environment T) (property : Factory T → Prop) (newest : Bool → Prop) :
    Prop where
  made : ∀ factory md5 schema, property factory → factory.schemasMd5.get md5 = some schema →
    Made env schema
  set : ∀ epoch schema flag factory reached, property factory → Made env schema → newest flag →
    Sets epoch schema flag factory reached → property reached
  remember : ∀ epoch schema flag factory reached, property factory → Made env schema →
    newest flag → Sets epoch schema flag factory reached → property (reached.remember schema flag)
  putMd5 : ∀ factory md5 schema, property factory → Made env schema →
    property { factory with schemasMd5 := factory.schemasMd5.put md5 schema }

namespace Stable

variable {property : Factory T → Prop} {newest : Bool → Prop}

theorem schemaOf_made (stable : Stable env property newest) {factory : Factory T}
    (holds : property factory) {text url : Text} {schema : ParsedSchema T}
    (found : schemaOf env md5String factory text url = .ok schema) : Made env schema := by
  rw [schemaOf] at found
  obtain ⟨rewritten, _, found⟩ := bind_eq_ok_iff.mp found
  obtain ⟨md5, _, found⟩ := bind_eq_ok_iff.mp found
  cases inMemory : factory.schemasMd5.get md5 with
  | none =>
      rw [inMemory] at found
      exact ⟨rewritten, url, md5, found⟩
  | some there =>
      rw [inMemory] at found
      obtain ⟨_, _, found⟩ := bind_eq_ok_iff.mp found
      rw [← Except.ok.inj found]
      exact stable.made factory md5 there holds inMemory

theorem getFromTextSingle (stable : Stable env property newest) (epoch : Int) (text url : Text)
    {flag : Bool} (allowed : newest flag) (save : Bool) :
    Keeps property (getFromTextSingle env md5String epoch text url flag save) := by
  intro factory holds
  rw [SchemaRegistry.getFromTextSingle]
  apply final_seq
  · intro problem reached failed
    rw [query_eq_error_iff] at failed
    rw [← failed.2]
    exact holds
  · intro schema between found
    rw [query_eq_ok_iff] at found
    obtain ⟨found, same⟩ := found
    rw [← same]
    have made := stable.schemaOf_made holds found
    have sets := schemaSet_sets epoch schema true flag factory
    cases save with
    | false => exact holds
    | true =>
        cases outcome : schemaSet epoch schema true flag factory with
        | ok value reached =>
            rw [final_of_ok outcome] at sets
            have remembered : (runIf (true = true) (do
                schemaSet epoch schema true flag
                modify (fun factory => factory.remember schema flag)) : EStateM Exn _ _) factory =
                  .ok () (reached.remember schema flag) := by
              rw [runIf, if_pos rfl, seq_of_ok outcome]
              rfl
            rw [final_seq_of_ok remembered]
            exact stable.remember epoch schema flag factory reached holds made allowed sets
        | error problem reached =>
            rw [final_of_error outcome] at sets
            have failed : (runIf (true = true) (do
                schemaSet epoch schema true flag
                modify (fun factory => factory.remember schema flag)) : EStateM Exn _ _) factory =
                  .error problem reached := by
              rw [runIf, if_pos rfl, seq_of_error outcome]
            rw [final_seq_of_error failed]
            exact stable.set epoch schema flag factory reached holds made allowed sets

theorem blockSchema_made {url block : Text} {schema : ParsedSchema T}
    (made : blockSchema env md5String url block = .ok schema) : Made env schema := by
  rw [blockSchema] at made
  obtain ⟨rewritten, _, made⟩ := bind_eq_ok_iff.mp made
  obtain ⟨again, _, made⟩ := bind_eq_ok_iff.mp made
  exact ⟨rewritten, url, _, made⟩

theorem registerBlock (stable : Stable env property newest) (epoch : Int) (url block : Text)
    (allowed : newest false) : Keeps property (registerBlock env md5String epoch url block) := by
  rw [SchemaRegistry.registerBlock]
  refine Keeps.bind (Keeps.attempt _) ?_
  intro schemaUrl
  refine Keeps.bind Keeps.get ?_
  intro factory
  apply Keeps.runIf
  intro _ state holds
  apply final_seq
  · intro problem reached failed
    rw [attempt_eq_error_iff] at failed
    rw [← failed.2]
    exact holds
  · intro schema between found
    rw [attempt_eq_ok_iff] at found
    rw [← found.2]
    have sets := schemaSet_sets epoch schema true false state
    exact stable.set epoch schema false state _ holds (blockSchema_made found.1) allowed sets

theorem getFromText (stable : Stable env property newest) (epoch : Int) (text url : Text)
    {flag : Bool} (allowed : newest flag) (plain : newest false) (save : Bool) :
    Keeps property (getFromText env md5String epoch text url flag save) := by
  apply Keeps.bind
  · apply Keeps.mapM
    intro block _
    refine Keeps.bind (stable.getFromTextSingle epoch block.1 block.2 allowed save) ?_
    intro schema
    apply Keeps.bind
    · apply Keeps.forM
      intro other _
      exact stable.registerBlock epoch url other plain
    · intro _
      exact Keeps.pure _
  · intro res
    exact Keeps.pure _

/-- The schemas that are returned were made of texts. -/
theorem getFromTextSingle_made (stable : Stable env property newest) {epoch : Int}
    {text url : Text} {flag save : Bool} {factory reached : Factory T} {schema : ParsedSchema T}
    (holds : property factory)
    (done : SchemaRegistry.getFromTextSingle env md5String epoch text url flag save factory =
      .ok schema reached) : Made env schema := by
  rw [SchemaRegistry.getFromTextSingle, seq_eq_ok_iff] at done
  obtain ⟨found, between, read, done⟩ := done
  rw [seq_eq_ok_iff] at done
  obtain ⟨_, after, _, done⟩ := done
  rw [return_eq_ok_iff] at done
  rw [query_eq_ok_iff] at read
  rw [← done.1]
  exact stable.schemaOf_made holds read.1

theorem getFromText_made (stable : Stable env property newest) {epoch : Int} {text url : Text}
    {flag save : Bool} {factory reached : Factory T}
    {schema : ParsedSchema T} (holds : property factory)
    (done : SchemaRegistry.getFromText env md5String epoch text url flag save factory =
      .ok (some schema) reached) : Made env schema := by
  rw [SchemaRegistry.getFromText, seq_eq_ok_iff] at done
  obtain ⟨res, between, ran, done⟩ := done
  rw [return_eq_ok_iff] at done
  -- the first schema is that of the first block
  cases blocks : withUrls url (schemaBlocksGet env text) with
  | nil =>
      rw [blocks] at ran
      cases ran
      cases done.1
  | cons first others =>
      obtain ⟨block, blockUrl⟩ := first
      rw [blocks, List.mapM_cons, seq_eq_ok_iff] at ran
      obtain ⟨one, after, single, ran⟩ := ran
      rw [seq_eq_ok_iff] at ran
      obtain ⟨rest, last, _, ran⟩ := ran
      rw [return_eq_ok_iff] at ran
      rw [← ran.1, List.head?_cons, Option.some.injEq] at done
      rw [readBlock, seq_eq_ok_iff] at single
      obtain ⟨found, middle, made, single⟩ := single
      rw [seq_eq_ok_iff] at single
      obtain ⟨_, end_, _, single⟩ := single
      rw [return_eq_ok_iff] at single
      rw [← done.1, ← single.1]
      exact stable.getFromTextSingle_made holds made

theorem getFromMd5 (stable : Stable env property newest) (epoch : Int) (md5 : Text)
    (plain : newest false) : Keeps property (getFromMd5 env md5String epoch md5) := by
  intro factory holds
  rw [SchemaRegistry.getFromMd5, final_get_seq]
  cases factory.schemasMd5.get md5 with
  | some schema => exact holds
  | none =>
      apply final_seq
      · intro problem reached failed
        rw [query_eq_error_iff] at failed
        rw [← failed.2]
        exact holds
      · intro data between read
        rw [query_eq_ok_iff] at read
        rw [← read.2]
        apply final_seq
        · intro problem reached failed
          exact (stable.getFromText epoch data.text [] plain plain true).of_error failed holds
        · intro found reached done
          have later := (stable.getFromText epoch data.text [] plain plain true).of_ok done holds
          cases found with
          | none => exact later
          | some schema =>
              have made := stable.getFromText_made holds done
              simp only
              rw [final_get_seq]
              cases reached.schemasMd5.get md5 with
              | some other => exact later
              | none => exact stable.putMd5 reached md5 schema later made

theorem getFromUrl (stable : Stable env property newest) (epoch : Int) (url : Text) (die : Bool)
    (allowed : newest true) (plain : newest false) :
    Keeps property (getFromUrl env md5String epoch url die) := by
  rw [SchemaRegistry.getFromUrl]
  refine Keeps.bind Keeps.get ?_
  intro factory
  cases factory.schemasLoaded.get url with
  | some schema => exact Keeps.pure _
  | none =>
      simp only
      split
      · exact Keeps.pure _
      · apply Keeps.bind
        · apply Keeps.runIf
          intro _
          refine Keeps.bind (Keeps.query _) ?_
          intro data
          refine Keeps.bind (stable.getFromText epoch data.text data.url allowed plain true) ?_
          intro _
          exact Keeps.pure _
        · intro _
          refine Keeps.bind Keeps.get ?_
          intro factory
          split
          · exact Keeps.throw _
          · exact Keeps.pure _

end Stable

/-! ## Every state -/

theorem valid_stable : Stable env (Factory.Valid env) (fun _ => True) where
  made := fun _ md5 schema valid found => valid.made md5 schema found
  set := fun _ _ _ _ _ valid _ _ sets => sets.valid valid
  remember := fun _ _ _ _ _ valid made _ sets => remember_valid (sets.valid valid) made sets.mem
  putMd5 := by
    intro factory md5 schema valid made
    refine ⟨valid.data, valid.file, valid.loaded, valid.loaded_made, ?_⟩
    intro other found
    simp only [Dict.get_put]
    split
    · intro isFound
      rw [← Option.some.inj isFound]
      exact made
    · exact valid.made other found

section

variable {factory : Factory T}

theorem schemaCacheRemove_valid (valid : factory.Valid env) (url : Text) :
    (factory.schemaCacheRemove url).Valid env := by
  rw [Factory.schemaCacheRemove]
  cases loaded : factory.schemasLoaded.get url with
  | none => exact valid
  | some schema =>
      refine ⟨⟨?_, ?_⟩, valid.file, ?_, ?_, ?_⟩
      · intro first second one two
        simp only [Dict.get_erase]
        split
        · intro isOne
          cases isOne
        · split
          · intro _ isTwo
            cases isTwo
          · exact valid.data.sid_inj first second one two
      · intro other urlData
        simp only [Dict.get_erase]
        split
        · intro isData
          cases isData
        · exact valid.data.nodup other urlData
      · intro other found
        simp only [Dict.get_erase]
        split
        · intro isFound
          cases isFound
        · exact valid.loaded other found
      · intro other found
        simp only [Dict.get_erase]
        split
        · intro isFound
          cases isFound
        · exact valid.loaded_made other found
      · intro other found
        simp only [Dict.get_erase]
        split
        · intro isFound
          cases isFound
        · exact valid.made other found

theorem save_valid (valid : factory.Valid env) : factory.save.Valid env := by
  refine ⟨valid.data, ?_, valid.loaded, valid.loaded_made, valid.made⟩
  intro data isData
  rw [← Option.some.inj isData]
  exact valid.data

theorem empty_valid : MetaData.empty.Valid := by
  constructor
  · intro url other first second isFirst
    cases isFirst
  · intro url urlData isData
    cases isData

theorem load_valid (file : ∀ data, factory.file = some data → data.Valid) :
    factory.load.Valid env := by
  apply save_valid
  refine ⟨?_, file, ?_, ?_, ?_⟩
  · cases isFile : factory.file with
    | none => exact empty_valid
    | some data => exact file data isFile
  · intro url schema found
    cases found
  · intro url schema found
    cases found
  · intro md5 schema found
    cases found

theorem initial_valid : (Factory.initial : Factory T).Valid env :=
  load_valid (fun _ isData => by cases isData)

theorem step_valid (valid : factory.Valid env) (action : Int × Action) :
    (step env md5String factory action).Valid env := by
  obtain ⟨epoch, action⟩ := action
  cases action with
  | getFromText text url newest save =>
      exact valid_stable.getFromText epoch text url trivial trivial save factory valid
  | getFromMd5 md5 => exact valid_stable.getFromMd5 epoch md5 trivial factory valid
  | getFromUrl url die =>
      exact valid_stable.getFromUrl epoch url die trivial trivial factory valid
  | schemaCacheRemove url => exact schemaCacheRemove_valid valid url
  | delete url => exact save_valid (schemaCacheRemove_valid valid url)
  | reset => exact load_valid (fun _ isData => by cases isData)
  | restart => exact load_valid valid.file

end

/-- The schema of a text is the one that `SchemaTexts` makes of it with the schemas in memory. -/
theorem schemaOf_eq {factory : Factory T} (valid : factory.Valid env) (text url : Text) :
    schemaOf env md5String factory text url =
      SchemaTexts.getFromTextSingle env ⟨factory.schemasMd5.get, valid.made⟩ md5String text url :=
  rfl

/-- The action asks for a schema. -/
def Action.Gets : Action → Prop
  | getFromText _ _ _ _ => True
  | getFromMd5 _ => True
  | getFromUrl _ _ => True
  | _ => False

/-- The action asks for a schema that is not to be the newest. -/
def Action.Passive : Action → Prop
  | getFromText _ _ newest _ => newest = false
  | getFromMd5 _ => True
  | _ => False

/-- Only the registry decides whether it has grown. -/
theorem Grows.of_data {earlier later other : Factory T} (grows : Grows earlier later)
    (same : other.data = later.data) : Grows earlier other := by
  refine ⟨?_, ?_⟩
  · rw [same]
    exact grows.url
  · rw [same]
    exact grows.md5

theorem grows_stable (start : Factory T) :
    Stable env (fun factory => factory.Valid env ∧ Grows start factory) (fun _ => True) where
  made := fun _ md5 schema holds found => holds.1.made md5 schema found
  set := fun epoch schema flag factory reached holds made allowed sets =>
    ⟨valid_stable.set epoch schema flag factory reached holds.1 made allowed sets,
      holds.2.trans sets.grows⟩
  remember := fun epoch schema flag factory reached holds made allowed sets =>
    ⟨valid_stable.remember epoch schema flag factory reached holds.1 made allowed sets,
      (holds.2.trans sets.grows).of_data rfl⟩
  putMd5 := fun factory md5 schema holds made =>
    ⟨valid_stable.putMd5 factory md5 schema holds.1 made, holds.2.of_data rfl⟩

theorem Stable.step_gets {property : Factory T → Prop}
    (stable : Stable env property (fun _ => True)) {factory : Factory T}
    (holds : property factory) (action : Int × Action) (gets : action.2.Gets) :
    property (step env md5String factory action) := by
  obtain ⟨epoch, action⟩ := action
  cases action with
  | getFromText text url newest save =>
      exact stable.getFromText epoch text url trivial trivial save factory holds
  | getFromMd5 md5 => exact stable.getFromMd5 epoch md5 trivial factory holds
  | getFromUrl url die => exact stable.getFromUrl epoch url die trivial trivial factory holds
  | schemaCacheRemove url => exact gets.elim
  | delete url => exact gets.elim
  | reset => exact gets.elim
  | restart => exact gets.elim

theorem Stable.step_passive {property : Factory T → Prop}
    (stable : Stable env property (fun newest => newest = false)) {factory : Factory T}
    (holds : property factory) (action : Int × Action) (passive : action.2.Passive) :
    property (step env md5String factory action) := by
  obtain ⟨epoch, action⟩ := action
  cases action with
  | getFromText text url newest save =>
      exact stable.getFromText epoch text url passive rfl save factory holds
  | getFromMd5 md5 => exact stable.getFromMd5 epoch md5 rfl factory holds
  | getFromUrl url die => exact passive.elim
  | schemaCacheRemove url => exact passive.elim
  | delete url => exact passive.elim
  | reset => exact passive.elim
  | restart => exact passive.elim

theorem Stable.run_gets {property : Factory T → Prop}
    (stable : Stable env property (fun _ => True)) {factory : Factory T}
    (holds : property factory) {actions : List (Int × Action)}
    (gets : ∀ action ∈ actions, action.2.Gets) :
    property (Runs.run (step env md5String) factory actions) :=
  @Runs.run_keeps _ _ (step env md5String) (fun _ action => action.2.Gets) property
    (fun _ action holds fits => stable.step_gets holds action fits) _ _ holds
    (Runs.along_forall_iff.mpr gets)

theorem Stable.run_passive {property : Factory T → Prop}
    (stable : Stable env property (fun newest => newest = false)) {factory : Factory T}
    (holds : property factory) {actions : List (Int × Action)}
    (passive : ∀ action ∈ actions, action.2.Passive) :
    property (Runs.run (step env md5String) factory actions) :=
  @Runs.run_keeps _ _ (step env md5String) (fun _ action => action.2.Passive) property
    (fun _ action holds fits => stable.step_passive holds action fits) _ _ holds
    (Runs.along_forall_iff.mpr passive)

/-- A text with a single block is registered as the newest one of its url. -/
structure Registration (env : Environment T) (md5String : Text → Text) where
  factory : Factory T
  epoch : Int
  text : Text
  url : Text
  block : Text
  schema : ParsedSchema T
  reached : Factory T
  valid : factory.Valid env
  single : schemaBlocksGet env text = [block]
  done : getFromText env md5String epoch text url true true factory =
    .ok (some schema) reached

/-- The schema is the newest one of its url, in the registry and in memory. -/
structure Newest (schema : ParsedSchema T) (factory : Factory T) : Prop where
  last : ∃ urlData, factory.data.url.get schema.url = some urlData ∧
    urlData.md5s.getLast? = some schema.md5
  loaded : factory.schemasLoaded.get schema.url = some schema

theorem Newest.of_sets {schema other : ParsedSchema T} {epoch : Int} {flag : Bool}
    {factory reached : Factory T} (newest : Newest schema factory) (passive : flag = false)
    (sets : Sets epoch other flag factory reached) : Newest schema reached := by
  rw [passive] at sets
  obtain ⟨urlData, there, last⟩ := newest.last
  obtain ⟨grown, stillThere, front, split⟩ := sets.sameNewest schema.url urlData there
  have filled : urlData.md5s ≠ [] := by
    intro empty
    rw [empty] at last
    cases last
  refine ⟨⟨grown, stillThere, ?_⟩, ?_⟩
  · rw [← split, List.getLast?_append_of_ne_nil _ filled, last]
  · rw [sets.memory.1]
    exact newest.loaded

/-- A schema that is in memory is not replaced by one that is not to be the newest. -/
theorem Newest.remember {schema other : ParsedSchema T} {flag : Bool} {factory : Factory T}
    (newest : Newest schema factory) (passive : flag = false) :
    Newest schema (factory.remember other flag) := by
  refine ⟨newest.last, ?_⟩
  rw [passive]
  simp only [Factory.remember, Bool.false_eq_true, false_or]
  split
  · rename_i absent
    rw [Dict.get_put, if_neg]
    · exact newest.loaded
    · intro same
      rw [← same, Dict.mem_keys_iff, newest.loaded] at absent
      exact absent (Option.some_ne_none schema)
  · exact newest.loaded

theorem newest_stable (schema : ParsedSchema T) :
    Stable env (fun factory => factory.Valid env ∧ Newest schema factory)
      (fun newest => newest = false) where
  made := fun _ md5 schema holds found => holds.1.made md5 schema found
  set := fun epoch other flag factory reached holds made allowed sets =>
    ⟨valid_stable.set epoch other flag factory reached holds.1 made trivial sets,
      holds.2.of_sets allowed sets⟩
  remember := fun epoch other flag factory reached holds made allowed sets =>
    ⟨valid_stable.remember epoch other flag factory reached holds.1 made trivial sets,
      (holds.2.of_sets allowed sets).remember allowed⟩
  putMd5 := fun factory md5 other holds made =>
    ⟨valid_stable.putMd5 factory md5 other holds.1 made, ⟨holds.2.last, holds.2.loaded⟩⟩

theorem Newest.of_single {epoch : Int} {text url : Text} {schema : ParsedSchema T}
    {factory reached : Factory T}
    (done : getFromTextSingle env md5String epoch text url true true factory =
      .ok schema reached) : Newest schema reached := by
  rw [getFromTextSingle, seq_eq_ok_iff] at done
  obtain ⟨found, between, read, done⟩ := done
  rw [query_eq_ok_iff] at read
  rw [← read.2, seq_eq_ok_iff] at done
  obtain ⟨_, after, ran, done⟩ := done
  rw [return_eq_ok_iff] at done
  rw [runIf, if_pos rfl, seq_eq_ok_iff] at ran
  obtain ⟨_, registered, setting, remembering⟩ := ran
  rw [modify_eq_ok_iff] at remembering
  have sets := schemaSet_sets epoch found true true factory
  rw [final_of_ok setting] at sets
  rw [← done.1, ← done.2, ← remembering]
  constructor
  · refine ⟨_, (sets.get_url found.url).trans (if_pos rfl), ?_⟩
    exact getLast_registered
  · simp only [Factory.remember, true_or, if_true, Dict.get_put]

/-- The schema that is registered is the newest one. -/
theorem Registration.newest (registration : Registration env md5String) :
    registration.reached.Valid env ∧ Newest registration.schema registration.reached := by
  obtain ⟨factory, epoch, text, url, block, schema, reached, valid, single, done⟩ := registration
  simp only
  rw [getFromText, single, withUrls, List.map_nil, List.mapM_cons, seq_eq_ok_iff] at done
  obtain ⟨res, between, ran, done⟩ := done
  rw [seq_eq_ok_iff] at ran
  obtain ⟨one, after, ran, rest⟩ := ran
  rw [seq_eq_ok_iff] at rest
  obtain ⟨others, last, nothing, rest⟩ := rest
  rw [List.mapM_nil, return_eq_ok_iff] at nothing
  rw [return_eq_ok_iff] at rest done
  rw [← rest.1, List.head?_cons, Option.some.injEq] at done
  rw [readBlock, seq_eq_ok_iff] at ran
  obtain ⟨found, middle, made, ran⟩ := ran
  rw [seq_eq_ok_iff] at ran
  obtain ⟨_, end_, registering, ran⟩ := ran
  rw [return_eq_ok_iff] at ran
  have validMiddle : middle.Valid env :=
    (valid_stable.getFromTextSingle epoch block url trivial true).of_ok made valid
  have kept : Keeps (fun factory => factory.Valid env ∧ Newest found factory)
      ([block].forM (registerBlock env md5String epoch url)) := by
    apply Keeps.forM
    intro other _
    exact (newest_stable found).registerBlock epoch url other rfl
  have whole := kept.of_ok registering ⟨validMiddle, Newest.of_single made⟩
  rw [← done.1, ← done.2, ← rest.2, ← nothing.2, ← ran.1, ← ran.2]
  exact whole

/-- The newest schema of a url stays the newest one, and the one in memory, while others are
registered that are not to be the newest. -/
theorem newest_stays (registration : Registration env md5String) (later : List (Int × Action))
    (passive : ∀ action ∈ later, action.2.Passive) :
    Newest registration.schema
      (Runs.run (step env md5String) registration.reached later) :=
  ((newest_stable registration.schema).run_passive registration.newest passive).2

/-- A text with a single block whose schema is new is registered. -/
theorem exists_registered {factory : Factory T} {epoch : Int} {text block : Text}
    {schema : ParsedSchema T} (single : schemaBlocksGet env text = [block])
    (made : schemaOf env md5String factory block [] = .ok schema)
    (new : factory.data.md5.get schema.md5 = none) (named : schema.url ≠ [])
    (same : blockUrl [] block = .ok schema.url) : ∃ reached,
      getFromText env md5String epoch text [] true true factory = .ok (some schema) reached := by
  have urlData : (factory.schemaDefine schema.url).data.url.get schema.url =
      some (factory.defined schema.url) := by
    rw [get_schemaDefine, if_pos rfl]
  obtain ⟨after, set⟩ : ∃ after, schemaSet epoch schema true true factory = .ok () after := by
    rw [schemaSet, modify_seq, get_seq]
    simp only [urlData]
    rw [modify_seq, md5_schemaDefine, new]
    exact ⟨_, rfl⟩
  have read : query (fun factory => schemaOf env md5String factory block []) factory =
      .ok schema factory := query_eq_ok_iff.mpr ⟨made, rfl⟩
  have alone : getFromTextSingle env md5String epoch block [] true true factory =
      .ok schema (after.remember schema true) := by
    have remembered : (runIf (true = true) (do
        schemaSet epoch schema true true
        modify (fun factory => factory.remember schema true)) : EStateM Exn _ _) factory =
          .ok () (after.remember schema true) := by
      rw [runIf, if_pos rfl, seq_of_ok set]
      rfl
    rw [getFromTextSingle, seq_of_ok read, seq_of_ok remembered]
    rfl
  -- its url is there, so that the block is not registered again
  have there : (after.remember schema true).existsUrl schema.url = true := by
    have loaded : schema.url ∈ (after.remember schema true).schemasLoaded.keys := by
      rw [Dict.mem_keys_iff]
      simp only [Factory.remember, true_or, if_true, Dict.get_put]
      exact Option.some_ne_none schema
    simp [Factory.existsUrl, named, loaded]
  have skipped : registerBlock env md5String epoch [] block (after.remember schema true) =
      .ok () (after.remember schema true) := by
    rw [registerBlock, attempt_seq_of_ok same, get_seq, runIf, if_neg (by rw [there]; simp)]
    rfl
  have loop : [block].forM (registerBlock env md5String epoch []) (after.remember schema true) =
      .ok () (after.remember schema true) := by
    change (registerBlock env md5String epoch [] block >>= fun _ =>
      [].forM (registerBlock env md5String epoch [])) (after.remember schema true) = _
    rw [seq_of_ok skipped]
    rfl
  have turn : readBlock env md5String epoch [block] [] true true (block, []) factory =
      .ok schema (after.remember schema true) := by
    rw [readBlock, seq_of_ok alone, seq_of_ok loop]
    rfl
  refine ⟨after.remember schema true, ?_⟩
  rw [getFromText, single, withUrls, List.map_nil, List.mapM_cons]
  have whole : (do
      let first ← readBlock env md5String epoch [block] [] true true (block, [])
      let rest ← [].mapM (readBlock env md5String epoch [block] [] true true)
      return first :: rest : EStateM Exn (Factory T) (List (ParsedSchema T))) factory =
        .ok [schema] (after.remember schema true) := by
    rw [seq_of_ok turn]
    rfl
  rw [seq_of_ok whole]
  rfl

/-- An earlier version of the text that is registered, asked for by its text. -/
theorem newest_stays_names : ∃ registration : Registration plainTypes id,
    registration.text = namesText ∧ Newest registration.schema
      (Runs.run (step plainTypes id) registration.reached
        [(1, .getFromText "@url = test.names\nuserName = (S)".toList [] false true)]) := by
  have blocks : schemaBlocksGet plainTypes namesText = [namesText ++ ['\n']] := by rfl
  have parsed : (schemaOf plainTypes id Factory.initial (namesText ++ ['\n']) []).toOption.map
      ParsedSchema.url = some "test.names".toList := by rfl
  cases made : schemaOf plainTypes id Factory.initial (namesText ++ ['\n']) [] with
  | error problem =>
      rw [made] at parsed
      cases parsed
  | ok schema =>
      rw [made] at parsed
      have named : schema.url = "test.names".toList := Option.some.inj parsed
      have first : blockUrl [] (namesText ++ ['\n']) = .ok schema.url := by
        rw [named]
        rfl
      obtain ⟨reached, done⟩ := @exists_registered _ _ _ Factory.initial 0 _ _ _ blocks made rfl
        (by rw [named]; decide) first
      refine ⟨⟨Factory.initial, 0, namesText, [], _, schema, reached, initial_valid, blocks, done⟩,
        rfl, ?_⟩
      apply newest_stays
      intro action member
      rw [List.mem_singleton.mp member]
      rfl

end JumpscaleX.SchemaRegistry
