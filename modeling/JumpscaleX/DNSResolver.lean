import Mathlib.Data.List.Nodup
import JumpscaleX.Library.Runs
import JumpscaleX.Library.Separated
import JumpscaleX.RedisServer

/-!
# The resolver of the name server

Records are kept in zone objects, one for the last two labels of a domain, under names
made of the domain and the record type.
-/

namespace JumpscaleX.DNS

open Fallible Stateful Runs

/-! ## Records and zones -/

/-- The record types of the schema. -/
inductive RecordType where
  | A | AAAA | CNAME | TXT | NS | MX | SRV | SOA
  deriving DecidableEq

def RecordType.text : RecordType → String
  | A => "A"
  | AAAA => "AAAA"
  | CNAME => "CNAME"
  | TXT => "TXT"
  | NS => "NS"
  | MX => "MX"
  | SRV => "SRV"
  | SOA => "SOA"

/-- `jumpscale.resolver.domain.record.1` -/
structure Record where
  name : String
  recordType : RecordType
  value : String
  ttl : Int
  priority : Int
  deriving DecidableEq

/-- `jumpscale.resolver.domain.1` -/
structure Domain where
  name : String
  domains : List Record
  deriving DecidableEq

/-- `jumpscale.resolver.1`, with the id that it is stored under. -/
structure Zone where
  id : Nat
  name : String
  zone : String
  domains : List Domain
  deriving DecidableEq

/-- The objects of the model, and how often a call stopped in a shell. -/
structure Store where
  objects : List Zone
  shells : Nat
  deriving DecidableEq

/-- The schemas that can be found, by their urls.  None of the sources has the one that a
new record is made with. -/
structure Schemas where
  known : String → Bool
  undeclared : known "jumpscale.resolver.record.1" = false

/-- A domain name of two labels or more. -/
structure DomainName where
  text : String
  labels : 2 ≤ (PyText.split '.' text).length
  deriving DecidableEq

def DomainName.zone (domain : DomainName) : String :=
  let parts := PyText.split '.' domain.text
  ".".intercalate (parts.drop (parts.length - 2))

/-- What a record is called in its zone object. -/
def recordName (domain : DomainName) (recordType : RecordType) : String :=
  domain.text ++ "_" ++ recordType.text

/-- The other arguments of `create_record`. -/
structure Given where
  value : String
  ttl : Int
  priority : Int
  deriving DecidableEq

namespace Store

/-- `self._model.find(zone=zone)` -/
def find (store : Store) (zone : String) : List Zone :=
  store.objects.filter (fun obj => obj.zone = zone)

/-- `obj.save()`, of an object that is stored or of a new one. -/
def save (store : Store) (obj : Zone) : Store :=
  if obj.id ∈ store.objects.map (·.id) then
    { store with
      objects := store.objects.map (fun other => if other.id = obj.id then obj else other) }
  else { store with objects := store.objects ++ [obj] }

/-- `obj.delete()` -/
def delete (store : Store) (obj : Zone) : Store :=
  { store with objects := store.objects.filter (fun other => other.id ≠ obj.id) }

/-- An id that no object has. -/
def nextId (store : Store) : Nat :=
  (store.objects.map (·.id)).foldr max 0 + 1

end Store

/-- `j.data.schema.get_from_url(url).new()` -/
def newFromUrl (schemas : Schemas) (url : String) : Except Exn Domain :=
  if schemas.known url then .ok ⟨"", []⟩
  else .error (.input (.other ("Could not find schema with url:" ++ url)))

/-- `update_domain`.  The schema of a domain object has no `domain`, `record_type`, `value`,
`ttl` or `priority`: these become attributes of the Python object, which no save writes. -/
def updateDomain (domainObj : Domain) (name : String) : Domain :=
  { domainObj with name := name }

/-- `add_domain` -/
def addDomain (schemas : Schemas) (obj : Zone) (name : String) : Except Exn Domain := do
  let domainObj ←
    match obj.domains.find? (fun d => d.name = name) with
    | some d => pure d
    | none => newFromUrl schemas "jumpscale.resolver.record.1"
  return updateDomain domainObj name

/-- `create_record`.  The object that `add_domain` finds is in the list already, and appended
once more. -/
def createRecord (schemas : Schemas) (domain : DomainName) (recordType : RecordType)
    (_given : Given) : EStateM Exn Store Unit := do
  let store ← getThe Store
  let obj : Zone :=
    match store.find domain.zone with
    | obj :: _ => obj
    | [] => ⟨store.nextId, "", "", []⟩
  let obj := { obj with name := domain.zone, zone := domain.zone }
  let domainObj ← attempt (addDomain schemas obj (recordName domain recordType))
  modify (fun store => store.save { obj with domains := obj.domains ++ [domainObj] })

/-- `get_record`.  A zone that is found opens a shell first. -/
def getRecord (domain : DomainName) (recordType : RecordType) :
    EStateM Exn Store (Option Domain) := do
  let store ← getThe Store
  match store.find domain.zone with
  | obj :: _ =>
      modify (fun store => { store with shells := store.shells + 1 })
      return obj.domains.find? (fun d => d.name = recordName domain recordType)
  | [] => return none

/-- The loop of `delete_record`.  A record is popped from the list that the loop goes
through, so that the one behind it is passed. -/
def popNamed (name : String) : List Domain → List Domain
  | [] => []
  | d :: domains =>
      if d.name = name then
        match domains with
        | [] => []
        | passed :: domains => passed :: popNamed name domains
      else d :: popNamed name domains

/-- `delete_record` -/
def deleteRecord (domain : DomainName) (recordType : RecordType) : EStateM Exn Store Unit := do
  let store ← getThe Store
  match store.find domain.zone with
  | obj :: _ =>
      let obj := { obj with domains := popNamed (recordName domain recordType) obj.domains }
      if obj.domains = [] then modify (fun store => store.delete obj)
      else modify (fun store => store.save obj)
  | [] => return ()

/-! ## Histories of calls -/

/-- The store, and the record that each domain and type should have. -/
structure World where
  store : Store
  ledger : DomainName → RecordType → Option Domain

inductive Action where
  | createRecord (domain : DomainName) (recordType : RecordType) (given : Given)
  | getRecord (domain : DomainName) (recordType : RecordType)
  | deleteRecord (domain : DomainName) (recordType : RecordType)

/-- The record that a call of `create_record` asks for. -/
def asked (domain : DomainName) (recordType : RecordType) (given : Given) : Domain :=
  ⟨recordName domain recordType,
    [⟨domain.text, recordType, given.value, given.ttl, given.priority⟩]⟩

/-- The ledger with one entry put in place. -/
def enter (ledger : DomainName → RecordType → Option Domain) (domain : DomainName)
    (recordType : RecordType) (entry : Option Domain) :
    DomainName → RecordType → Option Domain :=
  fun other otherType =>
    if other = domain ∧ otherType = recordType then entry else ledger other otherType

variable (schemas : Schemas)

def step (world : World) : Action → World
  | .createRecord domain recordType given =>
      { store := final (createRecord schemas domain recordType given) world.store
        ledger := enter world.ledger domain recordType (some (asked domain recordType given)) }
  | .getRecord domain recordType =>
      { world with store := final (getRecord domain recordType) world.store }
  | .deleteRecord domain recordType =>
      { store := final (deleteRecord domain recordType) world.store
        ledger := enter world.ledger domain recordType none }

/-- The stored records of a domain and a type. -/
def held (store : Store) (domain : DomainName) (recordType : RecordType) : List Domain :=
  (store.find domain.zone).flatMap
    (fun obj => obj.domains.filter (fun d => d.name = recordName domain recordType))

/-- The store holds the ledger: one zone object at most for each zone, none without records,
and for each domain and type the record of the ledger and no other one. -/
structure Represents (world : World) : Prop where
  single : ∀ zone, zone ≠ "" → (world.store.find zone).length ≤ 1
  filled : ∀ obj ∈ world.store.objects, obj.zone ≠ "" → obj.domains ≠ []
  holds : ∀ domain recordType,
    held world.store domain recordType = (world.ledger domain recordType).toList

/-- The call returns, a record that is looked up is the one of the ledger, and the store holds
the ledger behind the call. -/
def AsClaimed (world : World) (action : Action) : Prop :=
  (match action with
    | .createRecord domain recordType given =>
        ∃ after, createRecord schemas domain recordType given world.store = .ok () after
    | .getRecord domain recordType =>
        ∃ after, getRecord domain recordType world.store =
          .ok (world.ledger domain recordType) after ∧ after.objects = world.store.objects
    | .deleteRecord domain recordType =>
        ∃ after, deleteRecord domain recordType world.store = .ok () after) ∧
  Represents (step schemas world action)

/-- The call is no `create_record`. -/
def Action.CreatesNone : Action → Prop
  | .createRecord .. => False
  | .getRecord .. | .deleteRecord .. => True

/-- What the store holds, under ids of their own. -/
structure Kept (world : World) : Prop extends Represents world where
  ids : (world.store.objects.map (·.id)).Nodup

/-! ## Names -/

theorem RecordType.underscore_not_mem (recordType : RecordType) :
    '_' ∉ recordType.text.toList := by
  cases recordType <;> decide

theorem RecordType.text_injective {left right : RecordType} (same : left.text = right.text) :
    left = right := by
  revert same
  cases left <;> cases right <;> decide

/-- Records of different domains or types have different names. -/
theorem recordName_injective {left right : DomainName} {leftType rightType : RecordType}
    (same : recordName left leftType = recordName right rightType) :
    left = right ∧ leftType = rightType := by
  have chars := congrArg (List.reverse ∘ String.toList) same
  simp only [recordName, Function.comp, String.toList_append, List.reverse_append,
    List.append_assoc] at chars
  have leftAbsent : '_' ∉ leftType.text.toList.reverse := by
    rw [List.mem_reverse]
    exact leftType.underscore_not_mem
  have rightAbsent : '_' ∉ rightType.text.toList.reverse := by
    rw [List.mem_reverse]
    exact rightType.underscore_not_mem
  have spelled : "_".toList.reverse = ['_'] := rfl
  rw [spelled, List.singleton_append, List.singleton_append,
    Separated.append_separator_inj leftAbsent rightAbsent] at chars
  constructor
  · have texts := String.toList_inj.mp (List.reverse_inj.mp chars.2)
    cases left
    cases right
    cases texts
    rfl
  · exact RecordType.text_injective (String.toList_inj.mp (List.reverse_inj.mp chars.1))

/-- The zone of a domain is no empty text: it has a dot. -/
theorem DomainName.zone_ne_empty (domain : DomainName) : domain.zone ≠ "" := by
  have two := domain.labels
  have length : ((PyText.split '.' domain.text).drop
      ((PyText.split '.' domain.text).length - 2)).length = 2 := by
    rw [List.length_drop]
    omega
  obtain ⟨first, second, labels⟩ := List.length_eq_two.mp length
  rw [zone, labels]
  intro empty
  have joined : first ++ "." ++ second = "" := empty
  have chars := congrArg String.length joined
  simp at chars

/-! ## Zone objects -/

section

variable {store : Store} {obj changed : Zone} {zone : String}

theorem Store.mem_find : obj ∈ store.find zone ↔ obj ∈ store.objects ∧ obj.zone = zone := by
  rw [Store.find, List.mem_filter, decide_eq_true_iff]

/-- An object that is found first is the only one found. -/
theorem Store.find_eq_singleton {rest : List Zone} (single : (store.find zone).length ≤ 1)
    (found : store.find zone = obj :: rest) : store.find zone = [obj] := by
  rw [found, List.length_cons] at single
  have empty : rest = [] := List.length_eq_zero_iff.mp (by omega)
  rw [found, empty]

theorem eq_of_id (ids : (store.objects.map (·.id)).Nodup) {left right : Zone}
    (leftStored : left ∈ store.objects) (rightStored : right ∈ store.objects)
    (same : left.id = right.id) : left = right :=
  List.inj_on_of_nodup_map ids leftStored rightStored same

/-- Saving a stored object replaces it. -/
theorem Store.save_stored (stored : obj ∈ store.objects) (same : changed.id = obj.id) :
    (store.save changed).objects =
      store.objects.map (fun other => if other.id = obj.id then changed else other) := by
  have known : changed.id ∈ store.objects.map (·.id) := by
    rw [same]
    exact List.mem_map_of_mem stored
  rw [Store.save, if_pos known, same]

theorem Store.ids_save (stored : obj ∈ store.objects) (same : changed.id = obj.id) :
    (store.save changed).objects.map (·.id) = store.objects.map (·.id) := by
  rw [Store.save_stored stored same, List.map_map]
  apply List.map_congr_left
  intro other member
  simp only [Function.comp]
  split
  case isTrue sameId => rw [same, sameId]
  case isFalse => rfl

/-- Saving changes what is found for the zone of the object only. -/
theorem Store.find_save (ids : (store.objects.map (·.id)).Nodup)
    (found : store.find obj.zone = [obj]) (same : changed.id = obj.id)
    (stays : changed.zone = obj.zone) :
    (store.save changed).find zone = if zone = obj.zone then [changed] else store.find zone := by
  have stored : obj ∈ store.objects := by
    apply (Store.mem_find.mp _).1
    · exact obj.zone
    · rw [found]
      exact List.mem_singleton_self obj
  have others : (store.save changed).find zone =
      (store.find zone).map (fun other => if other.id = obj.id then changed else other) := by
    rw [Store.find, Store.save_stored stored same, List.filter_map, Store.find]
    congr 1
    apply List.filter_congr
    intro other member
    simp only [Function.comp]
    split
    case isTrue sameId =>
      rw [eq_of_id ids member stored sameId, stays]
    case isFalse => rfl
  rw [others]
  split
  case isTrue here =>
    rw [here, found, List.map_singleton, if_pos rfl]
  case isFalse elsewhere =>
    have differ : ∀ other ∈ store.find zone, other.id ≠ obj.id := by
      intro other member sameId
      obtain ⟨isStored, there⟩ := Store.mem_find.mp member
      apply elsewhere
      rw [← there, eq_of_id ids isStored stored sameId]
    calc
      (store.find zone).map (fun other => if other.id = obj.id then changed else other) =
          (store.find zone).map id := by
        apply List.map_congr_left
        intro other member
        exact if_neg (differ other member)
      _ = store.find zone := List.map_id _

theorem Store.find_delete (ids : (store.objects.map (·.id)).Nodup)
    (found : store.find obj.zone = [obj]) (same : changed.id = obj.id) :
    (store.delete changed).find zone = if zone = obj.zone then [] else store.find zone := by
  have stored : obj ∈ store.objects := by
    apply (Store.mem_find.mp _).1
    · exact obj.zone
    · rw [found]
      exact List.mem_singleton_self obj
  have others : (store.delete changed).find zone =
      (store.find zone).filter (fun other => other.id ≠ obj.id) := by
    rw [Store.find, Store.delete, Store.find, same, List.filter_filter, List.filter_filter]
    apply List.filter_congr
    intro other member
    exact Bool.and_comm _ _
  rw [others]
  split
  case isTrue here =>
    rw [here, found]
    simp
  case isFalse elsewhere =>
    apply List.filter_eq_self.mpr
    intro other member
    obtain ⟨isStored, there⟩ := Store.mem_find.mp member
    apply decide_eq_true
    intro sameId
    apply elsewhere
    rw [← there, eq_of_id ids isStored stored sameId]

end

/-! ## Records that are popped -/

/-- Of distinct records, those with another name stay. -/
theorem popNamed_eq_filter {name : String} {domains : List Domain}
    (once : (domains.filter (fun d => d.name = name)).length ≤ 1) :
    popNamed name domains = domains.filter (fun d => d.name ≠ name) := by
  induction domains with
  | nil => rfl
  | cons d domains induction =>
      by_cases named : d.name = name
      · have none : domains.filter (fun d => d.name = name) = [] := by
          rw [List.filter_cons_of_pos (by simpa using named), List.length_cons] at once
          exact List.length_eq_zero_iff.mp (by omega)
        rw [none] at induction
        have rest := induction (by simp)
        rw [List.filter_cons_of_neg (by simpa using named)]
        cases domains with
        | nil => rw [popNamed, if_pos named, List.filter_nil]
        | cons passed domains =>
            have other : passed.name ≠ name := by
              intro same
              have member : passed ∈ (passed :: domains).filter (fun d => d.name = name) := by
                rw [List.mem_filter]
                exact ⟨List.mem_cons_self, decide_eq_true same⟩
              rw [none] at member
              cases member
            unfold popNamed at rest ⊢
            rw [if_neg other] at rest
            rw [if_pos named]
            exact rest
      · rw [List.filter_cons_of_neg (by simpa using named)] at once
        rw [List.filter_cons_of_pos (by simpa using named)]
        unfold popNamed
        rw [if_neg named, induction once]


/-! ## One call -/

section

variable {schemas : Schemas} {store : Store} {domain : DomainName} {recordType : RecordType}
  {obj : Zone} {rest : List Zone}

theorem deleteRecord_unknown (absent : store.find domain.zone = []) :
    deleteRecord domain recordType store = .ok () store := by
  simp only [deleteRecord, get_seq, absent]
  rfl

def Zone.popped (obj : Zone) (name : String) : Zone :=
  { obj with domains := popNamed name obj.domains }

/-- The store without a record of a zone that is found. -/
def Store.without (store : Store) (obj : Zone) (name : String) : Store :=
  if popNamed name obj.domains = [] then store.delete (obj.popped name)
  else store.save (obj.popped name)

theorem deleteRecord_found (found : store.find domain.zone = obj :: rest) :
    deleteRecord domain recordType store =
      .ok () (store.without obj (recordName domain recordType)) := by
  simp only [deleteRecord, get_seq, found, Store.without]
  split
  case isTrue => rfl
  case isFalse => rfl

theorem getRecord_unknown (absent : store.find domain.zone = []) :
    getRecord domain recordType store = .ok none store := by
  simp only [getRecord, get_seq, absent]
  rfl

theorem getRecord_found (found : store.find domain.zone = obj :: rest) :
    getRecord domain recordType store =
      .ok (obj.domains.find? (fun d => d.name = recordName domain recordType))
        { store with shells := store.shells + 1 } := by
  simp only [getRecord, get_seq, found, modify_seq]
  rfl

/-- The zone object that `create_record` saves. -/
def Zone.added (obj : Zone) (zone : String) (d : Domain) : Zone :=
  { obj with
    name := zone
    zone := zone
    domains := obj.domains ++ [d] }

/-- A record is added for a zone that has one of its name. -/
theorem createRecord_again {given : Given} {d : Domain}
    (found : store.find domain.zone = obj :: rest)
    (listed : obj.domains.find? (fun d => d.name = recordName domain recordType) = some d) :
    createRecord schemas domain recordType given store =
      .ok () (store.save
        (obj.added domain.zone (updateDomain d (recordName domain recordType)))) := by
  simp only [createRecord, get_seq, found, addDomain, listed]
  rfl

/-- No other record is added: the schema of a new one is not found. -/
theorem createRecord_new {given : Given}
    (absent : ∀ obj ∈ store.find domain.zone,
      obj.domains.find? (fun d => d.name = recordName domain recordType) = none) :
    ∃ problem, createRecord schemas domain recordType given store = .error problem store := by
  have unknown : newFromUrl schemas "jumpscale.resolver.record.1" =
      .error (.input (.other ("Could not find schema with url:" ++
        "jumpscale.resolver.record.1"))) := by
    rw [newFromUrl, schemas.undeclared]
    rfl
  cases found : store.find domain.zone with
  | nil =>
      simp only [createRecord, get_seq, found, addDomain, List.find?_nil, unknown]
      exact ⟨_, rfl⟩
  | cons obj rest =>
      have none : obj.domains.find? (fun d => d.name = recordName domain recordType) = none := by
        apply absent
        rw [found]
        exact List.mem_cons_self
      simp only [createRecord, get_seq, found, addDomain, none, unknown]
      exact ⟨_, rfl⟩

/-! ## What the store holds -/

theorem held_unknown (absent : store.find domain.zone = []) :
    held store domain recordType = [] := by
  rw [held, absent, List.flatMap_nil]

theorem held_found (found : store.find domain.zone = [obj]) :
    held store domain recordType =
      obj.domains.filter (fun d => d.name = recordName domain recordType) := by
  rw [held, found, List.flatMap_singleton]

/-- A name that several records have is no record of the ledger. -/
theorem Represents.length_held {world : World} (represents : Represents world) :
    (held world.store domain recordType).length ≤ 1 := by
  rw [represents.holds]
  cases world.ledger domain recordType with
  | none => simp
  | some record => simp

theorem Represents.find_eq {world : World} (represents : Represents world)
    (found : world.store.find domain.zone = obj :: rest) :
    world.store.find domain.zone = [obj] :=
  Store.find_eq_singleton (represents.single domain.zone domain.zone_ne_empty) found

theorem zone_of_found (found : store.find domain.zone = [obj]) :
    obj ∈ store.objects ∧ obj.zone = domain.zone := by
  apply Store.mem_find.mp
  rw [found]
  exact List.mem_singleton_self obj

/-- What is held and stored depends on the objects only. -/
theorem Kept.of_objects {ledger : DomainName → RecordType → Option Domain} {after : Store}
    (kept : Kept ⟨store, ledger⟩) (same : after.objects = store.objects) :
    Kept ⟨after, ledger⟩ := by
  obtain ⟨objects, shells⟩ := store
  obtain ⟨others, later⟩ := after
  cases same
  exact {
    single := kept.single
    filled := kept.filled
    holds := kept.holds
    ids := kept.ids }

/-! ## A record that is created -/

/-- No record is created: a new one fails, and one that is there is stored twice. -/
theorem not_asClaimed_create {world : World} {given : Given} (kept : Kept world) :
    ¬ AsClaimed schemas world (.createRecord domain recordType given) := by
  intro claimed
  obtain ⟨⟨after, created⟩, represents⟩ := claimed
  rw [step, final_of_ok created] at represents
  by_cases absent : ∀ obj ∈ world.store.find domain.zone,
      obj.domains.find? (fun d => d.name = recordName domain recordType) = none
  case pos =>
    obtain ⟨problem, failed⟩ :=
      @createRecord_new schemas world.store domain recordType given absent
    rw [failed] at created
    cases created
  case neg =>
    cases found : world.store.find domain.zone with
    | nil =>
        rw [found] at absent
        exact absent (List.forall_mem_nil _)
    | cons obj rest =>
        have only := kept.find_eq found
        obtain ⟨stored, here⟩ := zone_of_found only
        rw [only, List.forall_mem_singleton] at absent
        obtain ⟨d, listed⟩ := Option.ne_none_iff_exists'.mp absent
        rw [createRecord_again only listed] at created
        cases created
        have named : d.name = recordName domain recordType := by
          have test := List.find?_some listed
          simpa using test
        have saved : (world.store.save
              (obj.added domain.zone (updateDomain d (recordName domain recordType)))).find
            domain.zone =
              [obj.added domain.zone (updateDomain d (recordName domain recordType))] := by
          have alone := only
          rw [← here] at alone
          have replaced := @Store.find_save world.store obj
            (obj.added domain.zone (updateDomain d (recordName domain recordType))) domain.zone
            kept.ids alone rfl here.symm
          rwa [if_pos here.symm] at replaced
        have length := @Represents.length_held domain recordType _ represents
        have twice :
            obj.domains.filter (fun d => d.name = recordName domain recordType) ≠ [] := by
          intro empty
          have member : d ∈ obj.domains.filter
              (fun d => d.name = recordName domain recordType) := by
            rw [List.mem_filter]
            exact ⟨List.mem_of_find?_eq_some listed, decide_eq_true named⟩
          rw [empty] at member
          cases member
        rw [held_found saved] at length
        have added : (obj.added domain.zone
            (updateDomain d (recordName domain recordType))).domains =
              obj.domains ++ [updateDomain d (recordName domain recordType)] := rfl
        have again : (updateDomain d (recordName domain recordType)).name =
            recordName domain recordType := rfl
        rw [added, List.filter_append, List.length_append,
          List.filter_cons_of_pos (by simpa using again), List.filter_nil] at length
        have filled := List.length_pos_iff.mpr twice
        simp only [List.length_singleton] at length
        omega

/-! ## Records that are read and deleted -/

theorem getRecord_kept {world : World} (kept : Kept world) :
    ∃ after, getRecord domain recordType world.store =
      .ok (world.ledger domain recordType) after ∧ after.objects = world.store.objects := by
  have holds := kept.holds domain recordType
  cases found : world.store.find domain.zone with
  | nil =>
      rw [held_unknown found] at holds
      have none : world.ledger domain recordType = none :=
        Option.toList_eq_nil_iff.mp holds.symm
      rw [none]
      exact ⟨world.store, getRecord_unknown found, rfl⟩
  | cons obj rest =>
      have only := kept.find_eq found
      rw [held_found only] at holds
      have first : obj.domains.find? (fun d => d.name = recordName domain recordType) =
          world.ledger domain recordType := by
        rw [← List.head?_filter, holds, Option.head?_toList]
      rw [← first]
      exact ⟨_, getRecord_found found, rfl⟩

/-- Deleting changes what is found for one zone. -/
theorem Store.find_without {name zone : String} (ids : (store.objects.map (·.id)).Nodup)
    (found : store.find obj.zone = [obj]) :
    (store.without obj name).find zone =
      if zone = obj.zone then
        if popNamed name obj.domains = [] then [] else [obj.popped name]
      else store.find zone := by
  rw [Store.without]
  by_cases empty : popNamed name obj.domains = []
  case pos =>
    rw [if_pos empty, @Store.find_delete store obj (obj.popped name) zone ids found rfl,
      if_pos empty]
  case neg =>
    rw [if_neg empty, @Store.find_save store obj (obj.popped name) zone ids found rfl rfl,
      if_neg empty]

theorem held_without {world : World} (kept : Kept world)
    (found : world.store.find domain.zone = [obj]) (other : DomainName) (otherType : RecordType) :
    held (world.store.without obj (recordName domain recordType)) other otherType =
      if other = domain ∧ otherType = recordType then []
      else held world.store other otherType := by
  obtain ⟨stored, here⟩ := zone_of_found found
  have alone := found
  rw [← here] at alone
  have after := @Store.find_without world.store obj (recordName domain recordType) other.zone
    kept.ids alone
  by_cases inZone : other.zone = obj.zone
  case neg =>
    have differ : ¬ (other = domain ∧ otherType = recordType) := by
      rintro ⟨rfl, -⟩
      exact inZone here.symm
    rw [if_neg inZone] at after
    rw [if_neg differ, held, after, held]
  case pos =>
    have once := @Represents.length_held domain recordType _ kept.toRepresents
    rw [held_found found] at once
    have left : held (world.store.without obj (recordName domain recordType)) other otherType =
        (obj.domains.filter (fun d => d.name ≠ recordName domain recordType)).filter
          (fun d => d.name = recordName other otherType) := by
      rw [if_pos inZone] at after
      rw [← popNamed_eq_filter once]
      split at after
      case isTrue empty => rw [held_unknown after, empty, List.filter_nil]
      case isFalse =>
        rw [held_found after]
        rfl
    have before : held world.store other otherType =
        obj.domains.filter (fun d => d.name = recordName other otherType) := by
      apply held_found
      rw [inZone, alone]
    rw [left, before, List.filter_filter]
    split
    case isTrue same =>
      obtain ⟨rfl, rfl⟩ := same
      apply List.filter_eq_nil_iff.mpr
      intro d member
      simp
    case isFalse differ =>
      apply List.filter_congr
      intro d member
      by_cases named : d.name = recordName other otherType
      case neg => simp [named]
      case pos =>
        have others : recordName other otherType ≠ recordName domain recordType := by
          intro same
          exact differ (recordName_injective same)
        simp [named, others]

theorem holds_enter {world : World} {after : Store}
    (others : ∀ other otherType, held after other otherType =
      if other = domain ∧ otherType = recordType then []
      else held world.store other otherType) (kept : Kept world) :
    ∀ other otherType, held after other otherType =
      (enter world.ledger domain recordType none other otherType).toList := by
  intro other otherType
  rw [others, enter]
  split
  case isTrue => rfl
  case isFalse => exact kept.holds other otherType

theorem kept_delete {world : World} (kept : Kept world) :
    Kept (step schemas world (.deleteRecord domain recordType)) := by
  cases found : world.store.find domain.zone with
  | nil =>
      rw [step, final_of_ok (deleteRecord_unknown found)]
      refine { single := kept.single, filled := kept.filled, ids := kept.ids, holds := ?_ }
      apply holds_enter _ kept
      intro other otherType
      split
      case isTrue same =>
        obtain ⟨rfl, rfl⟩ := same
        exact held_unknown found
      case isFalse => rfl
  | cons obj rest =>
      have only := kept.find_eq found
      obtain ⟨stored, here⟩ := zone_of_found only
      have alone := only
      rw [← here] at alone
      have after := fun zone => @Store.find_without world.store obj
        (recordName domain recordType) zone kept.ids alone
      rw [step, final_of_ok (deleteRecord_found only)]
      constructor
      case toRepresents =>
        constructor
        case single =>
          intro zone some
          rw [after]
          split
          case isTrue =>
            split
            case isTrue => simp
            case isFalse => simp
          case isFalse => exact kept.single zone some
        case filled =>
          intro other member some
          have isFound := Store.mem_find.mpr ⟨member, rfl⟩
          rw [after] at isFound
          split at isFound
          case isTrue =>
            split at isFound
            case isTrue => cases isFound
            case isFalse filled =>
              rw [List.mem_singleton.mp isFound]
              exact filled
          case isFalse => exact kept.filled other (Store.mem_find.mp isFound).1 some
        case holds => exact holds_enter (held_without kept only) kept
      case ids =>
        show ((world.store.without obj (recordName domain recordType)).objects.map (·.id)).Nodup
        rw [Store.without]
        split
        case isTrue => exact kept.ids.sublist (List.filter_sublist.map _)
        case isFalse =>
          have ids := @Store.ids_save world.store obj
            (obj.popped (recordName domain recordType)) stored rfl
          rw [ids]
          exact kept.ids

end

/-! ## Every history -/

variable {schemas : Schemas}

theorem kept_step {world : World} {action : Action} (kept : Kept world)
    (none : action.CreatesNone) : Kept (step schemas world action) := by
  cases action with
  | createRecord => exact none.elim
  | getRecord domain recordType =>
      obtain ⟨after, read, same⟩ := @getRecord_kept domain recordType world kept
      rw [step, final_of_ok read]
      exact kept.of_objects same
  | deleteRecord domain recordType => exact kept_delete kept

theorem asClaimed_iff_createsNone {world : World} {action : Action} (kept : Kept world) :
    AsClaimed schemas world action ↔ action.CreatesNone := by
  constructor
  · intro claimed
    cases action with
    | createRecord => exact not_asClaimed_create kept claimed
    | getRecord => trivial
    | deleteRecord => trivial
  · intro none
    constructor
    · cases action with
      | createRecord => exact none.elim
      | getRecord domain recordType => exact getRecord_kept kept
      | deleteRecord domain recordType =>
          cases found : world.store.find domain.zone with
          | nil => exact ⟨_, deleteRecord_unknown found⟩
          | cons obj rest => exact ⟨_, deleteRecord_found found⟩
    · exact (kept_step kept none).toRepresents

/-- From a store that holds its records once, they form a map along a history of calls when
none of these creates a record, and in no other history. -/
theorem records_map_iff (schemas : Schemas) (world : World) (kept : Kept world)
    (actions : List Action) :
    Along (AsClaimed schemas) (step schemas) world actions ↔
      ∀ action ∈ actions, action.CreatesNone := by
  rw [← @along_forall_iff _ _ (step schemas) Action.CreatesNone actions world]
  apply along_iff Kept kept
  · intro world action kept
    exact asClaimed_iff_createsNone kept
  · intro world action kept none
    exact kept_step kept none

/-- A resolver without records. -/
def fresh : World where
  store := ⟨[], 0⟩
  ledger _ _ := none

theorem kept_fresh : Kept fresh where
  single _ _ := by simp [fresh, Store.find]
  filled _ member := nomatch member
  holds _ _ := rfl
  ids := List.nodup_nil

def oneDomain : DomainName := ⟨"one.test.com", by decide⟩

/-- The schemas of the resolver. -/
def resolverSchemas : Schemas where
  known url := ["jumpscale.resolver.1", "jumpscale.resolver.domain.1",
    "jumpscale.resolver.domain.record.1"].contains url
  undeclared := by decide

theorem records_map_read : Along (AsClaimed resolverSchemas) (step resolverSchemas) fresh
    [.getRecord oneDomain .A, .deleteRecord oneDomain .A] :=
  (records_map_iff resolverSchemas fresh kept_fresh _).mpr (by simp [Action.CreatesNone])

/-- The first record of a resolver is not created. -/
theorem first_record_fails : ¬ Along (AsClaimed resolverSchemas) (step resolverSchemas) fresh
    [.createRecord oneDomain .A ⟨"127.0.0.1", 100, 10⟩] := by
  intro claimed
  obtain ⟨⟨⟨after, created⟩, -⟩, -⟩ := claimed
  obtain ⟨problem, failed⟩ := @createRecord_new resolverSchemas fresh.store oneDomain .A
    ⟨"127.0.0.1", 100, 10⟩ (List.forall_mem_nil _)
  rw [failed] at created
  cases created

end JumpscaleX.DNS
