import Mathlib.Algebra.GroupWithZero.Nat
import Mathlib.Algebra.Order.BigOperators.Group.List
import Mathlib.Algebra.Order.Group.Nat
import JumpscaleX.Value

/-!
# Loading a directory of models

`BCDB.models_add` takes the schema files of a directory from the end of a
queue and puts a file that failed at the other end.  A file fails when a schema
that its properties point to is not known yet; its own schemas are known from
then on.
-/

namespace JumpscaleX

/-- A schema as its text declares it, with the urls that its properties of
objects and of lists of objects point to, in order. -/
structure DeclaredSchema where
  url : Url
  md5 : Md5
  references : List Url
  deriving DecidableEq

/-- A schema file: its path, the name without the extension, and the schemas in
it.  The model is made for the first one. -/
structure SchemaFile where
  path : String
  bname : String
  schema : DeclaredSchema
  others : List DeclaredSchema
  deriving DecidableEq

/-- What loading reads and changes: the schemas known to `j.data.schema`, the
newest first, the schema that the type object of a reference has resolved to,
the default list of `_schema_property_add_if_needed`, and the schemas of the
models. -/
structure Loader where
  schemas : List DeclaredSchema
  resolved : Url → Option Md5
  done : List Md5
  models : Url → Option DeclaredSchema

namespace SchemaFile

def schemas (file : SchemaFile) : List DeclaredSchema :=
  file.schema :: file.others

/-- `bname.startswith("_")` -/
def skipped (file : SchemaFile) : Bool :=
  file.bname.startsWith "_"

end SchemaFile

namespace Loader

/-- `j.data.schema.get_from_url` -/
def getFromUrl (loader : Loader) (url : Url) : Option DeclaredSchema :=
  loader.schemas.find? (fun schema => schema.url = url)

/-- `j.data.schema.get_from_md5` -/
def getFromMd5 (loader : Loader) (md5 : Md5) : Option DeclaredSchema :=
  loader.schemas.find? (fun schema => schema.md5 = md5)

/-- `j.data.schema.get_from_text` makes each schema of the text the newest of
its url, from the first to the last. -/
def getFromText (loader : Loader) (schemas : List DeclaredSchema) : Loader :=
  { loader with schemas := schemas.reverse ++ loader.schemas }

/-- `_schema` of a type object, which keeps what it has resolved to. -/
def schemaOf (loader : Loader) (url : Url) : Option DeclaredSchema :=
  match loader.resolved url with
  | some md5 => loader.getFromMd5 md5
  | none => loader.getFromUrl url

theorem mem_of_schemaOf {loader : Loader} {url : Url} {schema : DeclaredSchema}
    (found : loader.schemaOf url = some schema) : schema ∈ loader.schemas := by
  unfold schemaOf at found
  split at found
  · exact List.mem_of_find?_eq_some found
  · exact List.mem_of_find?_eq_some found

/-- The type object has resolved to the schema. -/
def resolve (loader : Loader) (url : Url) (schema : DeclaredSchema) : Loader :=
  { loader with resolved := Function.update loader.resolved url (some schema.md5) }

def visit (loader : Loader) (schema : DeclaredSchema) : Loader :=
  { loader with done := schema.md5 :: loader.done }

/-- The schemas that the walk has not been to. -/
def unvisited (loader : Loader) : List DeclaredSchema :=
  loader.schemas.filter (fun schema => schema.md5 ∉ loader.done)

theorem unvisited_visit_lt {loader : Loader} {schema : DeclaredSchema}
    (member : schema ∈ loader.schemas) (new : schema.md5 ∉ loader.done) :
    (loader.visit schema).unvisited.length < loader.unvisited.length := by
  have fewer : (loader.visit schema).unvisited =
      loader.unvisited.filter (fun other => other.md5 ≠ schema.md5) := by
    rw [unvisited, unvisited, List.filter_filter]
    apply List.filter_congr
    intro other _
    simp [visit]
  rw [fewer]
  apply List.length_filter_lt_length_iff_exists.mpr
  exact ⟨schema, List.mem_filter.mpr ⟨member, by simpa using new⟩, by simp⟩

/-- `_schema_property_add_if_needed` on the properties that point to these
urls.  The recursion goes into a schema before the rest of the list, and a
problem in it ends the whole walk. -/
def schemaPropertyAddIfNeeded (loader : Loader) :
    List Url → EStateM.Result Exn Loader Unit
  | [] => .ok () loader
  | url :: rest =>
      match _found : loader.schemaOf url with
      | none => .error (.input (.other ("Could not find schema with url:" ++ url))) loader
      | some schema =>
          if _visited : schema.md5 ∈ loader.done then
            schemaPropertyAddIfNeeded (loader.resolve url schema) rest
          else
            schemaPropertyAddIfNeeded ((loader.resolve url schema).visit schema)
              (schema.references ++ rest)
  termination_by urls => (loader.unvisited.length, urls.length)
  decreasing_by
    · apply Prod.Lex.right
      exact Nat.lt_succ_self _
    · apply Prod.Lex.left
      have member : schema ∈ loader.schemas := mem_of_schemaOf _found
      exact @unvisited_visit_lt (loader.resolve url schema) schema member _visited

/-- `model_get` of a schema.  A model that exists takes over the schema; a new
one is kept only when `model_add` has walked over its properties. -/
def modelGet (loader : Loader) (schema : DeclaredSchema) :
    EStateM.Result Exn Loader Url :=
  match loader.models schema.url with
  | some present =>
      .ok schema.url (if schema.md5 ≠ present.md5 then
        { loader with models := Function.update loader.models schema.url (some schema) }
        else loader)
  | none =>
      match loader.getFromUrl schema.url with
      | none =>
          .error (.input (.other ("Could not find schema with url:" ++ schema.url))) loader
      | some newest =>
          match loader.schemaPropertyAddIfNeeded newest.references with
          | .error problem loader => .error problem loader
          | .ok _ loader =>
              .ok schema.url
                { loader with
                  models := Function.update loader.models schema.url (some newest) }

/-- `model_get` of the text of a file. -/
def modelGetFromText (loader : Loader) (file : SchemaFile) :
    EStateM.Result Exn Loader Url :=
  (loader.getFromText file.schemas).modelGet file.schema

/-- The files that are still to be tried, and how often each has failed. -/
def waiting (tocheck : List SchemaFile) (errored : String → Nat) : Nat :=
  (tocheck.map (fun file => 6 - errored file.path)).sum

theorem waiting_append_lt {file : SchemaFile} {rest : List SchemaFile}
    {errored : String → Nat} (few : ¬ 4 < errored file.path + 1) :
    waiting (rest ++ [file])
        (Function.update errored file.path (errored file.path + 1)) <
      waiting (file :: rest) errored := by
  have later : (rest.map (fun other =>
      6 - Function.update errored file.path (errored file.path + 1) other.path)).sum ≤
      (rest.map (fun other => 6 - errored other.path)).sum := by
    apply List.sum_le_sum
    intro other _
    by_cases same : other.path = file.path
    · rw [same, Function.update_self]
      omega
    · rw [Function.update_of_ne same]
  simp only [waiting, List.map_append, List.map_cons, List.map_nil, List.sum_append,
    List.sum_cons, List.sum_nil, Function.update_self]
  omega

/-- The loop of `models_add`.  The queue stands from its last element on: `pop`
takes the head, and `insert(0, path)` adds at the end. -/
def load (loader : Loader) (errored : String → Nat) (modelsUrls : List Url) :
    List SchemaFile → EStateM.Result Exn Loader (List Url)
  | [] => .ok modelsUrls loader
  | file :: tocheck =>
      if file.skipped then
        load loader errored modelsUrls tocheck
      else
        match loader.modelGetFromText file with
        | .ok url loader =>
            load loader errored (if url ∈ modelsUrls then modelsUrls else modelsUrls ++ [url])
              tocheck
        | .error problem loader =>
            if 4 < errored file.path + 1 then .error problem loader
            else
              load loader (Function.update errored file.path (errored file.path + 1))
                modelsUrls (tocheck ++ [file])
  termination_by tocheck => waiting tocheck errored + tocheck.length
  decreasing_by
    · simp only [waiting, List.map_cons, List.sum_cons, List.length_cons]
      omega
    · simp only [waiting, List.map_cons, List.sum_cons, List.length_cons]
      omega
    · rename_i few
      have fewer := @waiting_append_lt file tocheck errored few
      simp only [List.length_append, List.length_cons, List.length_nil]
      omega

/-- `models_add` for a directory of schema files, as it is listed. -/
def modelsAdd (loader : Loader) (listing : List SchemaFile) :
    EStateM.Result Exn Loader (List Url) :=
  loader.load (fun _ => 0) [] listing.reverse

/-! ## What one file does -/

/-- What the type objects have resolved to is still known. -/
def Sound (loader : Loader) : Prop :=
  ∀ url md5, loader.resolved url = some md5 →
    ∃ schema ∈ loader.schemas, schema.md5 = md5

def Known (loader : Loader) (url : Url) : Prop :=
  ∃ schema ∈ loader.schemas, schema.url = url

/-- Every schema points to known ones. -/
def Complete (loader : Loader) : Prop :=
  ∀ schema ∈ loader.schemas, ∀ url ∈ schema.references, loader.Known url

theorem getFromUrl_isSome_iff {loader : Loader} {url : Url} :
    (loader.getFromUrl url).isSome = true ↔ loader.Known url := by
  rw [getFromUrl, List.find?_isSome]
  simp [Known]

theorem Sound.schemaOf_isSome {loader : Loader} {url : Url} (sound : loader.Sound)
    (known : loader.Known url) : (loader.schemaOf url).isSome = true := by
  unfold schemaOf
  split
  · rename_i md5 resolved
    obtain ⟨schema, member, same⟩ := sound url md5 resolved
    rw [getFromMd5, List.find?_isSome]
    exact ⟨schema, member, by simpa using same⟩
  · exact getFromUrl_isSome_iff.mpr known

/-- A walk over properties changes what the types have resolved to and where
the walk has been. -/
structure Walked (loader reached : Loader) : Prop where
  schemas : reached.schemas = loader.schemas
  models : reached.models = loader.models
  sound : loader.Sound → reached.Sound

theorem Walked.refl (loader : Loader) : Walked loader loader :=
  ⟨rfl, rfl, id⟩

theorem Walked.trans {first second third : Loader} (here : Walked first second)
    (later : Walked second third) : Walked first third :=
  ⟨later.schemas.trans here.schemas, later.models.trans here.models,
    fun sound => later.sound (here.sound sound)⟩

theorem walked_resolve {loader : Loader} {url : Url} {schema : DeclaredSchema}
    (found : loader.schemaOf url = some schema) :
    Walked loader (loader.resolve url schema) := by
  refine ⟨rfl, rfl, ?_⟩
  intro sound other md5 resolved
  change Function.update loader.resolved url (some schema.md5) other = some md5 at resolved
  by_cases same : other = url
  · rw [same, Function.update_self, Option.some.injEq] at resolved
    have member : schema ∈ loader.schemas := mem_of_schemaOf found
    exact ⟨schema, member, resolved⟩
  · rw [Function.update_of_ne same] at resolved
    exact sound other md5 resolved

theorem walked_visit (loader : Loader) (schema : DeclaredSchema) :
    Walked loader (loader.visit schema) :=
  ⟨rfl, rfl, id⟩

theorem walked_of_ok {loader reached : Loader} {urls : List Url}
    (done : loader.schemaPropertyAddIfNeeded urls = .ok () reached) :
    Walked loader reached := by
  fun_induction schemaPropertyAddIfNeeded loader urls with
  | case1 loader =>
      cases done
      exact .refl _
  | case2 loader url rest missing => cases done
  | case3 loader url rest schema found visited induction =>
      exact (walked_resolve found).trans (induction done)
  | case4 loader url rest schema found new induction =>
      exact ((walked_resolve found).trans (walked_visit _ schema)).trans (induction done)

theorem walked_of_error {loader reached : Loader} {urls : List Url} {problem : Exn}
    (failed : loader.schemaPropertyAddIfNeeded urls = .error problem reached) :
    Walked loader reached := by
  fun_induction schemaPropertyAddIfNeeded loader urls with
  | case1 loader => cases failed
  | case2 loader url rest missing =>
      cases failed
      exact .refl _
  | case3 loader url rest schema found visited induction =>
      exact (walked_resolve found).trans (induction failed)
  | case4 loader url rest schema found new induction =>
      exact ((walked_resolve found).trans (walked_visit _ schema)).trans (induction failed)

theorem Complete.of_walked {loader reached : Loader} (complete : loader.Complete)
    (walked : Walked loader reached) : reached.Complete := by
  unfold Complete Known
  rw [walked.schemas]
  exact complete

/-- When every schema points to known ones the walk has no problem. -/
theorem schemaPropertyAddIfNeeded_ok {loader : Loader} {urls : List Url}
    (complete : loader.Complete) (sound : loader.Sound)
    (known : ∀ url ∈ urls, loader.Known url) :
    ∃ reached, loader.schemaPropertyAddIfNeeded urls = .ok () reached := by
  fun_induction schemaPropertyAddIfNeeded loader urls with
  | case1 loader => exact ⟨loader, rfl⟩
  | case2 loader url rest missing =>
      have some := sound.schemaOf_isSome (known url List.mem_cons_self)
      rw [missing] at some
      cases some
  | case3 loader url rest schema found visited induction =>
      have walked := walked_resolve found
      apply induction (complete.of_walked walked) (walked.sound sound)
      intro other member
      exact known other (List.mem_cons_of_mem _ member)
  | case4 loader url rest schema found new induction =>
      have walked := (walked_resolve found).trans (walked_visit _ schema)
      apply induction (complete.of_walked walked) (walked.sound sound)
      intro other member
      rcases List.mem_append.mp member with below | later
      · exact complete schema (mem_of_schemaOf found) other below
      · exact known other (List.mem_cons_of_mem _ later)

/-- What the attempt at a file leaves, whether it succeeds or not. -/
structure Attempted (file : SchemaFile) (loader reached : Loader) : Prop where
  schemas : reached.schemas = file.schemas.reverse ++ loader.schemas
  sound : loader.Sound → reached.Sound

theorem attempted_of_walked {file : SchemaFile} {loader reached : Loader}
    (walked : Walked (loader.getFromText file.schemas) reached) :
    Attempted file loader reached := by
  refine ⟨walked.schemas, ?_⟩
  intro sound
  apply walked.sound
  intro url md5 resolved
  obtain ⟨schema, member, same⟩ := sound url md5 resolved
  exact ⟨schema, List.mem_append_right _ member, same⟩

theorem getFromUrl_schema (loader : Loader) (file : SchemaFile) :
    ∃ schema, (loader.getFromText file.schemas).getFromUrl file.schema.url = some schema := by
  apply Option.isSome_iff_exists.mp
  apply getFromUrl_isSome_iff.mpr
  refine ⟨file.schema, ?_, rfl⟩
  apply List.mem_append_left
  exact List.mem_reverse.mpr List.mem_cons_self

/-- A file that succeeds has its model: with the schema of the file, with one of
the same md5 that it had before, or with the newest of the url. -/
theorem modelGetFromText_eq_ok {loader reached : Loader} {file : SchemaFile} {url : Url}
    (done : loader.modelGetFromText file = .ok url reached) :
    url = file.schema.url ∧ Attempted file loader reached ∧
      ∃ schema, reached.models = Function.update loader.models url (some schema) ∧
        (schema = file.schema ∨ reached.getFromUrl url = some schema ∨
          loader.models url = some schema ∧ schema.md5 = file.schema.md5) := by
  unfold modelGetFromText modelGet at done
  split at done
  · rename_i present found
    change loader.models file.schema.url = some present at found
    cases done
    by_cases same : file.schema.md5 = present.md5
    · rw [if_neg (not_not.mpr same)]
      refine ⟨rfl, attempted_of_walked (.refl _), present, ?_,
        .inr (.inr ⟨found, same.symm⟩)⟩
      rw [← found, Function.update_eq_self]
      rfl
    · rw [if_pos same]
      have attempted : Attempted file loader (loader.getFromText file.schemas) :=
        attempted_of_walked (.refl _)
      exact ⟨rfl, ⟨attempted.schemas, attempted.sound⟩, file.schema, rfl, .inl rfl⟩
  · split at done
    · cases done
    · rename_i newest found
      split at done
      · cases done
      · rename_i between walk
        cases done
        have walked := walked_of_ok walk
        have attempted := attempted_of_walked walked
        refine ⟨rfl, ⟨attempted.schemas, attempted.sound⟩, newest, ?_, .inr (.inl ?_)⟩
        · exact congrArg (fun models => Function.update models _ _) walked.models
        · rw [← found, getFromUrl, getFromUrl, ← walked.schemas]

theorem modelGetFromText_eq_error {loader reached : Loader} {file : SchemaFile}
    {problem : Exn} (failed : loader.modelGetFromText file = .error problem reached) :
    Attempted file loader reached ∧ reached.models = loader.models := by
  unfold modelGetFromText modelGet at failed
  split at failed
  · cases failed
  · split at failed
    · rename_i absent
      obtain ⟨schema, found⟩ := getFromUrl_schema loader file
      rw [found] at absent
      cases absent
    · split at failed
      · rename_i walk
        cases failed
        have walked := walked_of_error walk
        exact ⟨attempted_of_walked walked, walked.models⟩
      · cases failed

/-- A file succeeds when its schemas and the ones before point to known ones. -/
theorem modelGetFromText_ok {loader : Loader} {file : SchemaFile} (sound : loader.Sound)
    (complete : (loader.getFromText file.schemas).Complete) :
    ∃ url reached, loader.modelGetFromText file = .ok url reached := by
  unfold modelGetFromText modelGet
  split
  · exact ⟨_, _, rfl⟩
  · obtain ⟨schema, found⟩ := getFromUrl_schema loader file
    rw [found]
    have member := List.mem_of_find?_eq_some found
    have soundAfter : (loader.getFromText file.schemas).Sound :=
      (attempted_of_walked (.refl (loader.getFromText file.schemas))).sound sound
    obtain ⟨reached, walk⟩ :=
      schemaPropertyAddIfNeeded_ok complete soundAfter (complete schema member)
    simp only [walk]
    exact ⟨_, _, rfl⟩

end Loader

/-! ## Directories -/

/-- A directory of schema files for a database.  Its schemas point to each other
or to schemas that were known before, and those point to known ones too.  Files
whose names start with an underscore are not loaded.  The md5 identifies a
schema. -/
structure ModelDirectory where
  start : Loader
  files : List SchemaFile
  paths : (files.map SchemaFile.path).Nodup
  sound : start.Sound
  completeBefore : start.Complete
  complete : ∀ file ∈ files, file.skipped = false →
    ∀ schema ∈ file.schemas, ∀ url ∈ schema.references, start.Known url ∨
      ∃ other ∈ files, other.skipped = false ∧ ∃ target ∈ other.schemas, target.url = url
  identified : ∀ file ∈ files, ∀ model, start.models file.schema.url = some model →
    model.md5 = file.schema.md5 → model = file.schema

namespace ModelDirectory

variable (directory : ModelDirectory)

/-- An order in which the directory lists its files. -/
abbrev Listing : Type :=
  { listing : List SchemaFile // listing.Perm directory.files }

/-- The files that `models_add` loads. -/
def Loads (file : SchemaFile) : Prop :=
  file ∈ directory.files ∧ file.skipped = false

/-- A schema stands in one of the files. -/
def Declares (schema : DeclaredSchema) : Prop :=
  ∃ file, directory.Loads file ∧ schema ∈ file.schemas

/-- Two versions of the url stand in the files, so that the later one is the
newest. -/
def Ambiguous (url : Url) : Prop :=
  ∃ first second, directory.Declares first ∧ directory.Declares second ∧
    first.url = url ∧ second.url = url ∧ first ≠ second

/-- What is registered after the directory was loaded, in whatever order. -/
structure Registered (modelsUrls : List Url) (reached : Loader) : Prop where
  schemas : ∀ schema, schema ∈ reached.schemas ↔
    schema ∈ directory.start.schemas ∨ directory.Declares schema
  models : ∀ url, (reached.models url).isSome = true ↔
    (directory.start.models url).isSome = true ∨
      ∃ file, directory.Loads file ∧ file.schema.url = url
  modelsUrls : ∀ url, url ∈ modelsUrls ↔
    ∃ file, directory.Loads file ∧ file.schema.url = url

/-- Two loaders know the same schemas and have the same models.  Which version
of a url is the newest, and the one of its model, depends on the order only
when the directory has several versions. -/
structure SameRegistered (first second : Loader) : Prop where
  schemas : ∀ schema, schema ∈ first.schemas ↔ schema ∈ second.schemas
  models : ∀ url, (first.models url).isSome = (second.models url).isSome
  newest : ∀ url, ¬ directory.Ambiguous url →
    first.getFromUrl url = second.getFromUrl url ∧ first.models url = second.models url

/-- How far the loop has come: the files that may not have been tried, and those
that may not have succeeded. -/
structure Progress (fresh queued : SchemaFile → Prop) (modelsUrls : List Url)
    (loader : Loader) : Prop where
  sound : loader.Sound
  added : ∃ added, loader.schemas = added ++ directory.start.schemas ∧
    (∀ schema ∈ added, directory.Declares schema) ∧
      ∀ file, directory.Loads file → ¬ fresh file →
        ∀ schema ∈ file.schemas, schema ∈ added
  modelKept : ∀ url, (directory.start.models url).isSome = true →
    (loader.models url).isSome = true
  modelled : ∀ file, directory.Loads file → ¬ queued file →
    (loader.models file.schema.url).isSome = true ∧ file.schema.url ∈ modelsUrls
  otherModels : ∀ url, (∀ file, directory.Loads file → file.schema.url ≠ url) →
    loader.models url = directory.start.models url
  urlOrigin : ∀ url ∈ modelsUrls, ∃ file, directory.Loads file ∧ file.schema.url = url
  version : ∀ file, directory.Loads file → ¬ directory.Ambiguous file.schema.url →
    (¬ queued file → loader.models file.schema.url = some file.schema) ∧
      ∀ model, loader.models file.schema.url = some model →
        model = file.schema ∨ directory.start.models file.schema.url = some model

variable {directory} {fresh queued : SchemaFile → Prop} {modelsUrls : List Url}
  {loader reached : Loader} {file : SchemaFile}

theorem Progress.mono {fresh' queued' : SchemaFile → Prop}
    (progress : directory.Progress fresh queued modelsUrls loader)
    (tried : ∀ file, directory.Loads file → fresh file → fresh' file)
    (succeeded : ∀ file, directory.Loads file → queued file → queued' file) :
    directory.Progress fresh' queued' modelsUrls loader := by
  obtain ⟨added, schemas, declared, complete⟩ := progress.added
  constructor
  · exact progress.sound
  · refine ⟨added, schemas, declared, ?_⟩
    intro file loads notFresh
    exact complete file loads (fun isFresh => notFresh (tried file loads isFresh))
  · exact progress.modelKept
  · intro file loads notQueued
    exact progress.modelled file loads
      (fun isQueued => notQueued (succeeded file loads isQueued))
  · exact progress.otherModels
  · exact progress.urlOrigin
  · intro file loads single
    obtain ⟨now, before⟩ := progress.version file loads single
    exact ⟨fun notQueued => now (fun isQueued => notQueued (succeeded file loads isQueued)),
      before⟩

theorem mem_or_mem_of_added {added : List DeclaredSchema} {schema : DeclaredSchema}
    (schemas : loader.schemas = added ++ directory.start.schemas) :
    schema ∈ loader.schemas ↔ schema ∈ added ∨ schema ∈ directory.start.schemas := by
  rw [schemas, List.mem_append]

/-- The schemas of a file that was tried are among those that were added. -/
theorem Progress.added_of_attempted (loads : directory.Loads file)
    (progress : directory.Progress fresh queued modelsUrls loader)
    (attempted : Loader.Attempted file loader reached) :
    ∃ added, reached.schemas = added ++ directory.start.schemas ∧
      (∀ schema ∈ added, directory.Declares schema) ∧
        ∀ other, directory.Loads other → ¬ (fresh other ∧ other ≠ file) →
          ∀ schema ∈ other.schemas, schema ∈ added := by
  obtain ⟨added, schemas, declared, complete⟩ := progress.added
  refine ⟨file.schemas.reverse ++ added, ?_, ?_, ?_⟩
  · rw [attempted.schemas, schemas, List.append_assoc]
  · intro schema member
    rcases List.mem_append.mp member with new | before
    · exact ⟨file, loads, List.mem_reverse.mp new⟩
    · exact declared schema before
  · intro other otherLoads tried schema member
    by_cases same : other = file
    · apply List.mem_append_left
      rw [List.mem_reverse, ← same]
      exact member
    · apply List.mem_append_right
      exact complete other otherLoads (fun isFresh => tried ⟨isFresh, same⟩) schema member

/-- A file that failed leaves its schemas. -/
theorem Progress.failed {problem : Exn} (loads : directory.Loads file)
    (progress : directory.Progress fresh queued modelsUrls loader)
    (failed : loader.modelGetFromText file = .error problem reached) :
    directory.Progress (fun other => fresh other ∧ other ≠ file) queued modelsUrls reached := by
  obtain ⟨attempted, models⟩ := Loader.modelGetFromText_eq_error failed
  constructor
  · exact attempted.sound progress.sound
  · exact progress.added_of_attempted loads attempted
  · rw [models]
    exact progress.modelKept
  · rw [models]
    exact progress.modelled
  · rw [models]
    exact progress.otherModels
  · exact progress.urlOrigin
  · rw [models]
    exact progress.version

/-- The newest schema of a url that one file declares. -/
theorem newest_of_added {added : List DeclaredSchema} {schema : DeclaredSchema}
    (schemas : loader.schemas = added ++ directory.start.schemas)
    (declared : ∀ schema ∈ added, directory.Declares schema) (member : schema ∈ added)
    (single : ¬ directory.Ambiguous schema.url) :
    loader.getFromUrl schema.url = some schema := by
  have found : (added.find? (fun other => other.url = schema.url)).isSome = true := by
    rw [List.find?_isSome]
    exact ⟨schema, member, by simp⟩
  obtain ⟨newest, first⟩ := Option.isSome_iff_exists.mp found
  have named : newest.url = schema.url := by simpa using List.find?_some first
  have same : newest = schema := by
    by_contra different
    exact single ⟨newest, schema, declared newest (List.mem_of_find?_eq_some first),
      declared schema member, named, rfl, different⟩
  rw [Loader.getFromUrl, schemas, List.find?_append, first, same]
  rfl

theorem declares_schema (loads : directory.Loads file) : directory.Declares file.schema :=
  ⟨file, loads, List.mem_cons_self⟩

/-- Two files of one version of a url have the same schema. -/
theorem schema_eq {other : SchemaFile} (loads : directory.Loads file)
    (otherLoads : directory.Loads other) (same : other.schema.url = file.schema.url)
    (single : ¬ directory.Ambiguous file.schema.url) : other.schema = file.schema := by
  by_contra different
  exact single ⟨other.schema, file.schema, declares_schema otherLoads, declares_schema loads,
    same, rfl, different⟩

/-- The model of a file that succeeded has the schema of the file, unless there
are two versions. -/
theorem Progress.schema_of_ok {schema : DeclaredSchema} (loads : directory.Loads file)
    (progress : directory.Progress fresh queued modelsUrls loader)
    (attempted : Loader.Attempted file loader reached)
    (single : ¬ directory.Ambiguous file.schema.url)
    (origin : schema = file.schema ∨ reached.getFromUrl file.schema.url = some schema ∨
      loader.models file.schema.url = some schema ∧ schema.md5 = file.schema.md5) :
    schema = file.schema := by
  obtain ⟨added, schemas, declared, complete⟩ := progress.added_of_attempted loads attempted
  have member : file.schema ∈ added :=
    complete file loads (fun both => both.2 rfl) file.schema List.mem_cons_self
  rcases origin with same | newest | ⟨present, md5⟩
  · exact same
  · rw [newest_of_added schemas declared member single, Option.some.injEq] at newest
    exact newest.symm
  · rcases (progress.version file loads single).2 schema present with same | before
    · exact same
    · exact directory.identified file loads.1 schema before md5

theorem mem_addUrl {url other : Url} :
    other ∈ (if url ∈ modelsUrls then modelsUrls else modelsUrls ++ [url]) ↔
      other ∈ modelsUrls ∨ other = url := by
  split
  · rename_i present
    constructor
    · exact .inl
    · rintro (member | rfl)
      · exact member
      · exact present
  · simp

/-- A file that succeeded has its model. -/
theorem Progress.succeeded {url : Url} (loads : directory.Loads file)
    (progress : directory.Progress fresh queued modelsUrls loader)
    (done : loader.modelGetFromText file = .ok url reached) :
    directory.Progress (fun other => fresh other ∧ other ≠ file)
      (fun other => queued other ∧ other ≠ file)
      (if url ∈ modelsUrls then modelsUrls else modelsUrls ++ [url]) reached := by
  obtain ⟨rfl, attempted, schema, models, origin⟩ := Loader.modelGetFromText_eq_ok done
  have ownModel : reached.models file.schema.url = some schema := by
    rw [models, Function.update_self]
  have otherModel : ∀ url, url ≠ file.schema.url →
      reached.models url = loader.models url := by
    intro url different
    rw [models, Function.update_of_ne different]
  constructor
  · exact attempted.sound progress.sound
  · exact progress.added_of_attempted loads attempted
  · intro url before
    by_cases same : url = file.schema.url
    · rw [same, ownModel]
      rfl
    · rw [otherModel url same]
      exact progress.modelKept url before
  · intro other otherLoads notQueued
    rw [mem_addUrl]
    by_cases same : other.schema.url = file.schema.url
    · rw [same, ownModel]
      exact ⟨rfl, .inr rfl⟩
    · have before : ¬ queued other := by
        intro isQueued
        exact notQueued ⟨isQueued, fun equality => same (by rw [equality])⟩
      obtain ⟨model, listed⟩ := progress.modelled other otherLoads before
      rw [otherModel _ same]
      exact ⟨model, .inl listed⟩
  · intro url noFile
    rw [otherModel url (fun same => noFile file loads same.symm)]
    exact progress.otherModels url noFile
  · intro url member
    rcases mem_addUrl.mp member with before | new
    · exact progress.urlOrigin url before
    · exact ⟨file, loads, new.symm⟩
  · intro other otherLoads single
    by_cases same : other.schema.url = file.schema.url
    · have singleFile : ¬ directory.Ambiguous file.schema.url := by
        rw [← same]
        exact single
      have equality : schema = other.schema := by
        rw [progress.schema_of_ok loads attempted singleFile origin,
          schema_eq loads otherLoads same singleFile]
      rw [same, ownModel, equality]
      refine ⟨fun _ => rfl, ?_⟩
      intro model found
      exact .inl (Option.some.inj found).symm
    · obtain ⟨now, before⟩ := progress.version other otherLoads single
      rw [otherModel _ same]
      refine ⟨?_, before⟩
      intro notQueued
      apply now
      intro isQueued
      exact notQueued ⟨isQueued, fun equality => same (by rw [equality])⟩

/-- Once every file was tried, all schemas point to known ones. -/
theorem Progress.complete (progress : directory.Progress fresh queued modelsUrls loader)
    (allTried : ∀ file, directory.Loads file → ¬ fresh file) : loader.Complete := by
  obtain ⟨added, schemas, declared, complete⟩ := progress.added
  have fromStart : ∀ url, directory.start.Known url → loader.Known url := by
    intro url ⟨schema, member, named⟩
    exact ⟨schema, by rw [schemas]; exact List.mem_append_right _ member, named⟩
  intro schema member url reference
  rw [schemas, List.mem_append] at member
  rcases member with new | before
  · obtain ⟨file, loads, inFile⟩ := declared schema new
    rcases directory.complete file loads.1 loads.2 schema inFile url reference with
      known | ⟨other, otherMember, notSkipped, target, inOther, named⟩
    · exact fromStart url known
    · have otherLoads : directory.Loads other := ⟨otherMember, notSkipped⟩
      refine ⟨target, ?_, named⟩
      rw [schemas]
      exact List.mem_append_left _ (complete other otherLoads (allTried other otherLoads)
        target inOther)
  · exact fromStart url (directory.completeBefore schema before url reference)

theorem Progress.complete_getFromText
    (progress : directory.Progress fresh queued modelsUrls loader)
    (allTried : ∀ file, directory.Loads file → ¬ fresh file)
    (known : ∀ schema ∈ file.schemas, schema ∈ loader.schemas) :
    (loader.getFromText file.schemas).Complete := by
  have complete := progress.complete allTried
  intro schema member url reference
  have before : schema ∈ loader.schemas := by
    rcases List.mem_append.mp member with new | present
    · exact known schema (List.mem_reverse.mp new)
    · exact present
  obtain ⟨target, targetMember, named⟩ := complete schema before url reference
  exact ⟨target, List.mem_append_right _ targetMember, named⟩

/-! ## The loop -/

/-- Once every file was tried, each one that is left succeeds. -/
theorem load_retries {queue : List SchemaFile} {errored : String → Nat}
    (members : ∀ file ∈ queue, file ∈ directory.files)
    (progress : directory.Progress (fun _ => False) (· ∈ queue) modelsUrls loader) :
    ∃ urls reached, loader.load errored modelsUrls queue = .ok urls reached ∧
      directory.Progress (fun _ => False) (fun _ => False) urls reached := by
  induction queue generalizing modelsUrls loader with
  | nil =>
      refine ⟨modelsUrls, loader, by rw [Loader.load], ?_⟩
      exact progress.mono (fun _ _ => id) (fun _ _ member => List.not_mem_nil member)
  | cons file queue induction =>
      have later : ∀ other ∈ queue, other ∈ directory.files :=
        fun other member => members other (List.mem_cons_of_mem _ member)
      rw [Loader.load]
      by_cases skipped : file.skipped = true
      · rw [if_pos skipped]
        apply induction later
        apply progress.mono (fun _ _ => id)
        intro other otherLoads member
        rcases List.mem_cons.mp member with same | inQueue
        · rw [same] at otherLoads
          exact absurd skipped (by simp [otherLoads.2])
        · exact inQueue
      · have loads : directory.Loads file :=
          ⟨members file List.mem_cons_self, Bool.eq_false_iff.mpr skipped⟩
        rw [if_neg skipped]
        have complete : (loader.getFromText file.schemas).Complete := by
          obtain ⟨added, schemas, _, tried⟩ := progress.added
          apply progress.complete_getFromText (fun _ _ => id)
          intro schema member
          rw [schemas]
          exact List.mem_append_left _ (tried file loads id schema member)
        obtain ⟨url, reached, done⟩ := Loader.modelGetFromText_ok progress.sound complete
        rw [done]
        apply induction later
        apply (progress.succeeded loads done).mono
        · intro _ _ both
          exact both.1
        · intro other _ both
          exact (List.mem_cons.mp both.1).resolve_left both.2

/-- The first round tries every file. -/
theorem load_fresh {untried retries : List SchemaFile} {errored : String → Nat}
    (members : ∀ file ∈ untried ++ retries, file ∈ directory.files)
    (distinct : (untried.map SchemaFile.path).Nodup)
    (notFailed : ∀ file ∈ untried, errored file.path = 0)
    (progress : directory.Progress (· ∈ untried) (· ∈ untried ++ retries) modelsUrls loader) :
    ∃ urls reached, loader.load errored modelsUrls (untried ++ retries) = .ok urls reached ∧
      directory.Progress (fun _ => False) (fun _ => False) urls reached := by
  induction untried generalizing retries errored modelsUrls loader with
  | nil =>
      apply load_retries members
      exact progress.mono (fun _ _ => List.not_mem_nil) (fun _ _ => id)
  | cons file untried induction =>
      have later : ∀ other ∈ untried ++ retries, other ∈ directory.files :=
        fun other member => members other (List.mem_cons_of_mem _ member)
      rw [List.map_cons, List.nodup_cons] at distinct
      have rest : ∀ other ∈ untried, errored other.path = 0 :=
        fun other member => notFailed other (List.mem_cons_of_mem _ member)
      rw [List.cons_append, Loader.load]
      by_cases skipped : file.skipped = true
      · rw [if_pos skipped]
        have others : ∀ other, directory.Loads other → ∀ files : List SchemaFile,
            other ∈ file :: files → other ∈ files := by
          intro other otherLoads files member
          rcases List.mem_cons.mp member with same | inFiles
          · rw [same] at otherLoads
            exact absurd skipped (by simp [otherLoads.2])
          · exact inFiles
        apply induction later distinct.2 rest
        exact progress.mono (fun other loads => others other loads untried)
          (fun other loads => others other loads (untried ++ retries))
      · have loads : directory.Loads file :=
          ⟨members file List.mem_cons_self, Bool.eq_false_iff.mpr skipped⟩
        rw [if_neg skipped]
        cases attempt : loader.modelGetFromText file with
        | ok url reached =>
            apply induction later distinct.2 rest
            apply (progress.succeeded loads attempt).mono
            · intro other _ both
              exact (List.mem_cons.mp both.1).resolve_left both.2
            · intro other _ both
              exact (List.mem_cons.mp both.1).resolve_left both.2
        | error problem reached =>
            have first : ¬ 4 < errored file.path + 1 := by
              rw [notFailed file List.mem_cons_self]
              omega
            simp only [first, if_false]
            rw [List.append_assoc]
            apply induction
            · intro other member
              rw [← List.append_assoc, List.mem_append, List.mem_singleton] at member
              rcases member with before | same
              · exact later other before
              · rw [same]
                exact loads.1
            · exact distinct.2
            · intro other member
              have different : other.path ≠ file.path := by
                intro same
                exact distinct.1 (same ▸ List.mem_map_of_mem member)
              rw [Function.update_of_ne different]
              exact rest other member
            · apply (progress.failed loads attempt).mono
              · intro other _ both
                exact (List.mem_cons.mp both.1).resolve_left both.2
              · intro other _ member
                simp only [List.mem_append, List.mem_cons, List.not_mem_nil, or_false] at member ⊢
                tauto

/-- Nothing was tried before the loop starts. -/
theorem progress_start (directory : ModelDirectory) :
    directory.Progress (· ∈ directory.files) (· ∈ directory.files) [] directory.start := by
  constructor
  · exact directory.sound
  · refine ⟨[], rfl, ?_, ?_⟩
    · intro schema member
      cases member
    · intro file loads notFresh
      exact (notFresh loads.1).elim
  · intro url before
    exact before
  · intro file loads notQueued
    exact (notQueued loads.1).elim
  · intro url _
    rfl
  · intro url member
    cases member
  · intro file loads _
    exact ⟨fun notQueued => (notQueued loads.1).elim, fun model found => .inr found⟩

theorem modelsAdd_progress (listing : directory.Listing) :
    ∃ urls reached, directory.start.modelsAdd listing = .ok urls reached ∧
      directory.Progress (fun _ => False) (fun _ => False) urls reached := by
  obtain ⟨listing, order⟩ := listing
  have member : ∀ file, file ∈ listing.reverse ++ [] ↔ file ∈ directory.files := by
    intro file
    rw [List.append_nil, List.mem_reverse, order.mem_iff]
  have loaded := @load_fresh directory [] directory.start listing.reverse [] (fun _ => 0)
    (fun file inListing => (member file).mp inListing)
    (by
      rw [List.map_reverse, (List.reverse_perm _).nodup_iff]
      exact (order.map SchemaFile.path).nodup_iff.mpr directory.paths)
    (fun _ _ => rfl)
    (directory.progress_start.mono
      (fun file _ inFiles => List.mem_reverse.mpr (order.mem_iff.mpr inFiles))
      (fun file _ inFiles => (member file).mpr inFiles))
  rw [List.append_nil] at loaded
  exact loaded

variable {urls : List Url}

/-- What is registered when nothing is left to be tried. -/
theorem Progress.registered
    (progress : directory.Progress (fun _ => False) (fun _ => False) urls reached) :
    directory.Registered urls reached := by
  obtain ⟨added, schemas, declared, complete⟩ := progress.added
  have ofFile : ∀ url, (∃ file, directory.Loads file ∧ file.schema.url = url) →
      (reached.models url).isSome = true ∧ url ∈ urls := by
    intro url ⟨file, loads, named⟩
    rw [← named]
    exact progress.modelled file loads id
  constructor
  · intro schema
    rw [mem_or_mem_of_added schemas]
    constructor
    · rintro (new | before)
      · exact .inr (declared schema new)
      · exact .inl before
    · rintro (before | ⟨file, loads, member⟩)
      · exact .inr before
      · exact .inl (complete file loads id schema member)
  · intro url
    constructor
    · intro model
      by_cases fromFile : ∃ file, directory.Loads file ∧ file.schema.url = url
      · exact .inr fromFile
      · left
        rw [← progress.otherModels url
          (fun file loads named => fromFile ⟨file, loads, named⟩)]
        exact model
    · rintro (before | fromFile)
      · exact progress.modelKept url before
      · exact (ofFile url fromFile).1
  · intro url
    exact ⟨progress.urlOrigin url, fun fromFile => (ofFile url fromFile).2⟩

/-- The newest schema of a url of which there are no two versions, and the one
of its model. -/
theorem Progress.newest {urls' : List Url} {other : Loader} {url : Url}
    (progress : directory.Progress (fun _ => False) (fun _ => False) urls reached)
    (otherProgress : directory.Progress (fun _ => False) (fun _ => False) urls' other)
    (single : ¬ directory.Ambiguous url) :
    reached.getFromUrl url = other.getFromUrl url ∧ reached.models url = other.models url := by
  obtain ⟨added, schemas, declared, complete⟩ := progress.added
  obtain ⟨added', schemas', declared', complete'⟩ := otherProgress.added
  constructor
  · by_cases inFiles : ∃ schema, directory.Declares schema ∧ schema.url = url
    · obtain ⟨schema, ⟨file, loads, member⟩, rfl⟩ := inFiles
      rw [newest_of_added schemas declared (complete file loads id schema member) single,
        newest_of_added schemas' declared' (complete' file loads id schema member) single]
    · have none : ∀ {added : List DeclaredSchema},
          (∀ schema ∈ added, directory.Declares schema) →
          added.find? (fun schema => schema.url = url) = none := by
        intro added declared
        rw [List.find?_eq_none]
        intro schema member named
        exact inFiles ⟨schema, declared schema member, by simpa using named⟩
      rw [Loader.getFromUrl, Loader.getFromUrl, schemas, schemas', List.find?_append,
        List.find?_append, none declared, none declared']
  · by_cases fromFile : ∃ file, directory.Loads file ∧ file.schema.url = url
    · obtain ⟨file, loads, rfl⟩ := fromFile
      rw [(progress.version file loads single).1 id,
        (otherProgress.version file loads single).1 id]
    · have noFile : ∀ file, directory.Loads file → file.schema.url ≠ url :=
        fun file loads named => fromFile ⟨file, loads, named⟩
      rw [progress.otherModels url noFile, otherProgress.otherModels url noFile]

end ModelDirectory

end JumpscaleX
