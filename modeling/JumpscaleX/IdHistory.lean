import JumpscaleX.Iteration
import JumpscaleX.UniqueSave

/-!
# The ids of new objects over a history

Every id that an object or its ACL gets in a save lies behind the ids that the
store had handed out before.  Over a history of saves and deletes the ids are
distinct as long as no deletion takes the greatest id out of a sqlite store,
which then hands it out again.
-/

namespace JumpscaleX

open Fallible Stateful

/-- The id of the object that is attached as ACL. -/
def JSXObjectRoot.attachedId (root : JSXObjectRoot) : Option Nat :=
  match root.acl with
  | .obj acl => acl.id
  | _ => none

/-- The next id of the store. -/
def Session.nextId (session : Session) : Nat :=
  session.bcdb.storclient.nextId

/-- The ids of the object and its ACL are those they had, or new ones of which
each was handed out once. -/
structure IdsGrow (session reached : Session) : Prop where
  next : session.nextId ≤ reached.nextId
  obj : ∀ id, reached.obj.id = some id →
    session.obj.id = some id ∨ session.nextId ≤ id ∧ id < reached.nextId
  acl : ∀ id, reached.attachedId = some id →
    session.attachedId = some id ∨ session.nextId ≤ id ∧ id < reached.nextId
  apart : ∀ id, reached.obj.id = some id → reached.attachedId = some id →
    session.obj.id = some id ∨ session.attachedId = some id

namespace IdsGrow

theorem refl (session : Session) : IdsGrow session session where
  next := Nat.le_refl _
  obj := fun _ named => .inl named
  acl := fun _ named => .inl named
  apart := fun _ named _ => .inl named

theorem trans {session between reached : Session} (first : IdsGrow session between)
    (second : IdsGrow between reached) : IdsGrow session reached where
  next := Nat.le_trans first.next second.next
  obj := by
    intro id named
    rcases second.obj id named with before | ⟨above, below⟩
    · rcases first.obj id before with start | ⟨above, below⟩
      · exact .inl start
      · exact .inr ⟨above, Nat.lt_of_lt_of_le below second.next⟩
    · exact .inr ⟨Nat.le_trans first.next above, below⟩
  acl := by
    intro id named
    rcases second.acl id named with before | ⟨above, below⟩
    · rcases first.acl id before with start | ⟨above, below⟩
      · exact .inl start
      · exact .inr ⟨above, Nat.lt_of_lt_of_le below second.next⟩
    · exact .inr ⟨Nat.le_trans first.next above, below⟩
  apart := by
    intro id named attached
    rcases second.apart id named attached with before | before
    · rcases first.obj id before with start | ⟨above, below⟩
      · exact .inl start
      · rcases second.acl id attached with before' | ⟨above', _⟩
        · exact first.apart id before before'
        · omega
    · rcases first.acl id before with start | ⟨above, below⟩
      · exact .inr start
      · rcases second.obj id named with before' | ⟨above', _⟩
        · exact first.apart id before' before
        · omega

/-- The same ids over a store that may have handed out more. -/
theorem of_same {session reached : Session} (next : session.nextId ≤ reached.nextId)
    (obj : reached.obj.id = session.obj.id)
    (acl : reached.attachedId = session.attachedId) : IdsGrow session reached where
  next := next
  obj := fun _ named => .inl (obj ▸ named)
  acl := fun _ named => .inl (acl ▸ named)
  apart := fun _ named _ => .inl (obj ▸ named)

section rules

variable {α β : Type} {session : Session}

theorem seq {first : SessionM α} {next : α → SessionM β}
    (before : IdsGrow session (final first session))
    (after : ∀ value between, first session = .ok value between →
      IdsGrow between (final (next value) between)) :
    IdsGrow session (final (first >>= next) session) := by
  apply final_seq
  · intro problem reached failed
    rw [final_of_error failed] at before
    exact before
  · intro value between done
    rw [final_of_ok done] at before
    exact before.trans (after value between done)

theorem get_seq {next : Session → SessionM β}
    (after : IdsGrow session (final (next session) session)) :
    IdsGrow session (final ((getThe Session : SessionM Session) >>= next) session) := by
  rw [final_get_seq]
  exact after

theorem attempt (outcome : Except Exn α) :
    IdsGrow session (final (attempt outcome : SessionM α) session) := by
  cases outcome <;> exact .refl session

theorem attempt_seq {outcome : Except Exn α} {next : α → SessionM β}
    (after : ∀ value, outcome = .ok value →
      IdsGrow session (final (next value) session)) :
    IdsGrow session (final (Stateful.attempt outcome >>= next) session) := by
  apply seq (attempt outcome)
  intro value between done
  rw [attempt_eq_ok_iff] at done
  rw [← done.2]
  exact after value done.1

theorem runIf {condition : Prop} [Decidable condition] {computation : SessionM PUnit}
    (grows : condition → IdsGrow session (final computation session)) :
    IdsGrow session (final (Stateful.runIf condition computation) session) := by
  by_cases holds : condition
  · rw [Stateful.runIf, if_pos holds]
    exact grows holds
  · rw [runIf_of_not holds]
    exact .refl session

theorem setObj {obj : JSXObject} (named : obj.id = session.obj.id) :
    IdsGrow session (final (Session.setObj obj) session) :=
  of_same (Nat.le_refl _) named rfl

theorem modifyObj {change : JSXObjectRoot → JSXObject}
    (named : ∀ root, (change root).id = root.obj.id) :
    IdsGrow session (final (modify (fun session =>
      { session with obj := change session.toJSXObjectRoot }) : SessionM PUnit) session) :=
  of_same (Nat.le_refl _) (named session.toJSXObjectRoot) rfl

theorem rename {translate : Exn → Exn} {computation : SessionM α}
    (grows : IdsGrow session (final computation session)) :
    IdsGrow session (final (Stateful.rename translate computation) session) := by
  unfold final Stateful.rename at *
  cases outcome : computation session <;> simpa [outcome] using grows

/-- Work on the database alone gives no ids. -/
theorem onBcdb {computation : BCDBM α}
    (keeps : ∀ bound, Keeps (fun bcdb => bound ≤ bcdb.storclient.nextId) computation) :
    IdsGrow session (final (Session.onBcdb computation) session) := by
  rw [Session.onBcdb, final_onPart]
  exact of_same (keeps session.nextId session.bcdb (Nat.le_refl _)) rfl rfl

/-- Work on the ACL gives ids to the ACL. -/
theorem onAcl {acl : JSXObject} {computation : SessionM α}
    (named : ∀ id, acl.id = some id → session.attachedId = some id)
    (grows : ∀ inner : Session,
      IdsGrow inner (final computation inner)) :
    IdsGrow session (final (Session.onAcl acl computation) session) := by
  have inner := grows { session with obj := acl, acl := .none }
  rw [Session.onAcl, final_onPart]
  constructor
  · exact inner.next
  · exact fun id same => .inl same
  · intro id attached
    rcases inner.obj id attached with before | new
    · exact .inl (named id before)
    · exact .inr new
  · exact fun id same _ => .inl same

end rules

end IdsGrow

namespace BCDBModel

/-! ## Storing -/

theorem data_grows (session : Session) : IdsGrow session (final data session) := by
  apply IdsGrow.get_seq
  apply IdsGrow.attempt_seq
  intro message _
  apply IdsGrow.seq
  · exact IdsGrow.setObj rfl
  · intro _ between _
    apply IdsGrow.get_seq
    exact IdsGrow.attempt _

/-- A new record is put under the next id. -/
theorem storAppend_grows (record : Record) (session : Session) :
    IdsGrow session (final (storAppend record) session) := by
  apply IdsGrow.get_seq
  apply IdsGrow.attempt_seq
  intro added done
  have next := StorClient.nextId_append done
  have key : added.1 = session.nextId := (StorClient.append_eq_ok done).1
  constructor
  · change session.nextId ≤ added.2.nextId
    rw [next]
    exact Nat.le_succ _
  · intro id named
    change some added.1 = some id at named
    cases named
    right
    refine ⟨Nat.le_of_eq key.symm, ?_⟩
    change added.1 < added.2.nextId
    rw [key, next]
    exact Nat.lt_succ_self _
  · exact fun _ attached => .inl attached
  · exact fun _ _ attached => .inr attached

theorem storSet_grows (record : Record) (session : Session) :
    IdsGrow session (final (storSet record) session) := by
  apply IdsGrow.get_seq
  cases named : session.obj.id with
  | none =>
      apply IdsGrow.seq (storAppend_grows record session)
      intro _ between _
      apply IdsGrow.get_seq
      apply IdsGrow.seq
      · exact IdsGrow.runIf (fun _ => storAppend_grows record between)
      · intro _ last _
        apply IdsGrow.get_seq
        exact IdsGrow.attempt _
  | some id =>
      apply IdsGrow.onBcdb
      intro bound
      apply Keeps.advance
      intro bcdb reached done holds
      simp only [Fallible.bind_eq_ok_iff, Fallible.pure_eq_ok_iff] at done
      obtain ⟨client, stored, rfl⟩ := done
      exact (nextId_closed bound).set bcdb _ _ client stored holds

theorem setRecord_grows (session : Session) :
    IdsGrow session (final setRecord session) := by
  apply IdsGrow.seq (data_grows session)
  intro bdata between _
  apply IdsGrow.get_seq
  apply IdsGrow.attempt_seq
  intro _ _
  exact storSet_grows _ between

/-! ## Indexing -/

theorem indexDelete_grows (url : Url) (session : Session) :
    IdsGrow session (final (indexDelete url) session) := by
  apply IdsGrow.get_seq
  cases session.obj.id with
  | none => exact .refl session
  | some id =>
      apply IdsGrow.seq
      · apply IdsGrow.onBcdb
        intro bound
        exact indexDeleteById_keeps (nextId_closed bound).toClosedRead url id
      intro _ between _
      apply IdsGrow.runIf
      intro _
      apply IdsGrow.onBcdb
      intro bound
      exact .bind (.query _) (fun model => .bind (.attempt _) (fun _ =>
        .advance (fun bcdb reached done =>
          (nextId_closed bound).writeTable bcdb reached model _ done)))

theorem indexSet_grows (url : Url) (session : Session) :
    IdsGrow session (final (indexSet url) session) := by
  apply IdsGrow.get_seq
  apply IdsGrow.attempt_seq
  intro _ _
  apply IdsGrow.attempt_seq
  intro _ _
  apply IdsGrow.seq
  · exact IdsGrow.onBcdb (fun _ => .query _)
  intro model found _
  apply IdsGrow.attempt_seq
  intro row _
  apply IdsGrow.onBcdb
  intro bound
  exact .advance (fun bcdb reached done =>
    (nextId_closed bound).writeTable bcdb reached model _ done)

theorem setIndex_grows (url : Url) (store : Bool) (session : Session) :
    IdsGrow session (final (setIndex url store) session) := by
  apply IdsGrow.seq
  · exact IdsGrow.runIf (fun _ => indexDelete_grows url session)
  · intro _ between _
    exact IdsGrow.rename (indexSet_grows url between)

/-! ## Saving -/

section

variable {attachAcl : SessionM Unit}
  (attachGrows : ∀ session, IdsGrow session (final attachAcl session))

include attachGrows

theorem setWith_grows (url : Url) (index store : Bool) (session : Session) :
    IdsGrow session (final (setWith attachAcl url index store) session) := by
  apply IdsGrow.get_seq
  apply IdsGrow.attempt_seq
  intro _ _
  apply IdsGrow.seq
  · apply IdsGrow.runIf
    intro _
    apply IdsGrow.get_seq
    apply IdsGrow.seq
    · exact IdsGrow.setObj rfl
    · intro _ between _
      apply IdsGrow.seq (attachGrows between)
      intro _ attached _
      exact setRecord_grows attached
  · intro _ stored _
    exact IdsGrow.runIf (fun _ => setIndex_grows url store stored)

theorem saveWith_grows {saveAcl : SessionM Unit}
    (saveGrows : ∀ session, IdsGrow session (final saveAcl session))
    (session : Session) :
    IdsGrow session (final (saveWith saveAcl attachAcl) session) := by
  apply IdsGrow.get_seq
  apply IdsGrow.runIf
  intro _
  apply IdsGrow.get_seq
  apply IdsGrow.attempt_seq
  intro message _
  apply IdsGrow.seq
  · exact IdsGrow.setObj rfl
  intro _ between done
  have same : between.obj.id = session.obj.id := by
    rw [Session.setObj, modify_eq_ok_iff] at done
    rw [← done]
  cases isModel : session.obj.model with
  | none => exact IdsGrow.setObj same.symm
  | some url =>
      apply IdsGrow.seq
      · exact IdsGrow.onBcdb (fun _ => .query _)
      intro model found _
      apply IdsGrow.runIf
      intro _
      apply IdsGrow.get_seq
      apply IdsGrow.attempt_seq
      intro _ _
      apply IdsGrow.seq
      · exact IdsGrow.runIf (fun _ => saveGrows found)
      intro _ saved _
      apply IdsGrow.get_seq
      apply IdsGrow.seq
      · apply IdsGrow.onBcdb
        intro bound
        apply Keeps.forM
        intro prop _
        exact checkUnique_keeps (nextId_closed bound).toClosedOpen url saved.obj prop
      intro _ checked _
      apply IdsGrow.seq (setWith_grows attachGrows url true true checked)
      intro _ stored _
      apply IdsGrow.get_seq
      exact IdsGrow.attempt _

end

/-! ## The attached ACL -/

theorem aclSave_grows {acl : JSXObject} {session : Session}
    (named : ∀ id, acl.id = some id → session.attachedId = some id) :
    IdsGrow session (final (aclSave acl) session) := by
  apply IdsGrow.onAcl named
  intro inner
  have nothing : ∀ session, IdsGrow session (final (pure () : SessionM Unit) session) :=
    IdsGrow.refl
  exact saveWith_grows nothing nothing inner

theorem markAcl_id (root : JSXObjectRoot) : (markAcl root).id = root.obj.id := by
  unfold markAcl
  split
  · split <;> rfl
  · rfl

theorem saveAcl_grows (session : Session) :
    IdsGrow session (final saveAcl session) := by
  apply IdsGrow.get_seq
  cases session.acl with
  | none => exact .refl session
  | model => exact .refl session
  | obj acl =>
      apply IdsGrow.seq
      · apply IdsGrow.runIf
        intro isNew
        apply aclSave_grows
        intro id named
        rw [isNew] at named
        cases named
      · intro _ between _
        exact IdsGrow.modifyObj markAcl_id

theorem takeAclId_id (root : JSXObjectRoot) : (takeAclId root).id = root.obj.id := by
  unfold takeAclId
  split <;> rfl

theorem aclStore_grows (acl : JSXObject) (session : Session) :
    IdsGrow session (final (aclStore acl) session) := by
  unfold aclStore
  cases named : acl.id with
  | none =>
      apply aclSave_grows
      intro id impossible
      rw [named] at impossible
      cases impossible
  | some id =>
      apply IdsGrow.get_seq
      apply IdsGrow.attempt_seq
      intro _ _
      apply IdsGrow.seq
      · apply IdsGrow.onBcdb
        intro bound
        exact get_keeps (nextId_closed bound).toClosedOpen aclUrl (some id)
      intro stored between _
      apply IdsGrow.attempt_seq
      intro differs _
      apply IdsGrow.runIf
      intro _
      apply aclSave_grows
      intro id impossible
      cases impossible

theorem attachAcl_grows (session : Session) :
    IdsGrow session (final attachAcl session) := by
  apply IdsGrow.get_seq
  cases session.acl with
  | none => exact .refl session
  | model => exact .refl session
  | obj acl =>
      apply IdsGrow.seq (aclStore_grows acl session)
      intro _ between _
      exact IdsGrow.modifyObj takeAclId_id

/-- `set` gives ids behind those that were handed out. -/
theorem set_grows (url : Url) (index store : Bool) (session : Session) :
    IdsGrow session (final (set url index store) session) :=
  setWith_grows attachAcl_grows url index store session

/-- `save` gives ids behind those that were handed out. -/
theorem save_grows (session : Session) : IdsGrow session (final save session) :=
  saveWith_grows attachAcl_grows saveAcl_grows session

end BCDBModel

/-! ## Deleting -/

/-- A store hands out no lower ids after a deletion, unless it was the greatest
id of a sqlite store. -/
theorem StorClient.nextId_le_delete {client reached : StorClient} {key : Nat}
    (done : client.delete key = .ok reached)
    (notGreatest : client.type = .SDB → client.kvs.maxKey? ≠ some key) :
    client.nextId ≤ reached.nextId := by
  rw [delete_eq_ok done]
  cases kind : client.type with
  | RDB => simp [nextId, kind]
  | SDB =>
      unfold nextId
      simp only [kind]
      cases greatest : client.kvs.maxKey? with
      | none => exact Nat.zero_le _
      | some top =>
          have different : top ≠ key := by
            intro same
            exact notGreatest kind (by rw [greatest, same])
          obtain ⟨present, found⟩ := OrderedMap.lookup_of_maxKey greatest
          have still : (client.kvs.erase key).lookup top = some present := by
            rw [OrderedMap.lookup_erase_of_ne _ different]
            exact found
          cases greatest' : (client.kvs.erase key).maxKey? with
          | none =>
              rw [OrderedMap.lookup_eq_none_of_maxKey_eq_none _ greatest'] at still
              cases still
          | some top' => exact Nat.succ_le_succ (OrderedMap.le_maxKey greatest' still)

/-- The greatest id of a sqlite store is another one. -/
def BCDB.NotGreatest (bcdb : BCDB) (id : Nat) : Prop :=
  bcdb.storclient.type = .SDB → bcdb.storclient.kvs.maxKey? ≠ some id

theorem BCDBModel.deleteStored_nextId {bcdb : BCDB} (url : Url) {id : Nat}
    (notGreatest : bcdb.NotGreatest id) :
    bcdb.storclient.nextId ≤ (final (deleteStored url id) bcdb).storclient.nextId := by
  rw [deleteStored]
  cases outcome : storDelete id bcdb with
  | error problem reached =>
      rw [final_seq_of_error outcome]
      rw [storDelete, advance_eq_error_iff] at outcome
      rw [← outcome.2]
  | ok value between =>
      rw [final_seq_of_ok outcome]
      rw [storDelete, advance_eq_ok_iff] at outcome
      simp only [Fallible.bind_eq_ok_iff, Fallible.pure_eq_ok_iff] at outcome
      obtain ⟨client, deleted, rfl⟩ := outcome
      apply indexDeleteById_keeps (nextId_closed bcdb.storclient.nextId).toClosedRead
      exact StorClient.nextId_le_delete deleted notGreatest

theorem BCDBModel.deleteId_nextId {bcdb : BCDB} (url : Url) {id : Nat}
    (notGreatest : bcdb.NotGreatest id) :
    bcdb.storclient.nextId ≤ (final (deleteId url id) bcdb).storclient.nextId := by
  rw [deleteId, final_get_seq]
  by_cases positive : 0 < id
  · rw [final_seq_of_ok (attempt_eq_ok_iff.mpr ⟨ensure_of positive, rfl⟩)]
    exact deleteStored_nextId url notGreatest
  · rw [final_seq_of_error (attempt_eq_error_iff.mpr ⟨ensure_of_not positive, rfl⟩)]

theorem BCDBModel.deleteObj_nextId {bcdb : BCDB} (url : Url) {root : JSXObjectRoot}
    (notGreatest : ∀ id, root.obj.id = some id → bcdb.NotGreatest id) :
    bcdb.storclient.nextId ≤
      (final (root.on (deleteObj url)) bcdb).storclient.nextId := by
  rw [JSXObjectRoot.on, final_onPart, deleteObj, final_get_seq]
  by_cases given : root.obj.nid ≠ 0
  · rw [final_seq_of_ok (attempt_eq_ok_iff.mpr ⟨ensure_of given, rfl⟩)]
    cases named : root.obj.id with
    | none => exact Nat.le_refl _
    | some id =>
        simp only [Session.onBcdb, final_onPart]
        exact deleteStored_nextId url (notGreatest id named)
  · rw [final_seq_of_error (attempt_eq_error_iff.mpr ⟨ensure_of_not given, rfl⟩)]

/-- Making the object of `set_dynamic` hands out no ids. -/
theorem BCDBModel.dynamicObj_nextId (url : Url) (data : DynamicData)
    (objId nid : Option Nat) (bound : Nat) :
    Keeps (fun bcdb => bound ≤ bcdb.storclient.nextId)
      (dynamicObj url data objId nid) := by
  apply Keeps.bind
  · exact .query _
  intro model
  cases data with
  | json data => exact .attempt _
  | obj data => exact .attempt _
  | dict data => exact .attempt _
  | bytes data =>
      exact .bind (.query _) (fun obj => .bind (.runIf (fun _ => .modify
        (fun bcdb => (nextId_closed bound).schemaChange bcdb obj.schema)))
        (fun _ => .bind (.attempt _) (fun _ => .pure _)))

/-! ## Histories -/

/-- A save of an object, or a call on one of the models. -/
inductive Change where
  | save (root : JSXObjectRoot)
  | call (call : Call)

/-- The ids that an object and its ACL got. -/
def JSXObjectRoot.newIds (root reached : JSXObjectRoot) : List Nat :=
  (if root.obj.id = none then reached.obj.id.toList else []) ++
    if reached.attachedId = root.attachedId then [] else reached.attachedId.toList

/-- The ids that an object and its ACL get from a computation. -/
def JSXObjectRoot.idsFrom (root : JSXObjectRoot) (computation : SessionM Unit)
    (bcdb : BCDB) : List Nat :=
  root.newIds (final computation { root with bcdb := bcdb }).toJSXObjectRoot

namespace Change

def run : Change → BCDBM Unit
  | .save root => root.on BCDBModel.save
  | .call request => request.run

/-- The ids that a change gives to new objects, whether it returns or fails. -/
def newIds : Change → BCDB → List Nat
  | .save root, bcdb => root.idsFrom BCDBModel.save bcdb
  | .call (.set url root index store), bcdb =>
      root.idsFrom (BCDBModel.set url index store) bcdb
  | .call (.setDynamic url data objId nid), bcdb =>
      match BCDBModel.dynamicObj url data objId nid bcdb with
      | .ok root between => root.idsFrom (BCDBModel.set url true true) between
      | .error _ _ => []
  | .call (.deleteId _ _), _ => []
  | .call (.deleteObj _ _), _ => []

/-- A deletion leaves the greatest id of a sqlite store where it is. -/
def KeepsGreatest (bcdb : BCDB) : Change → Prop
  | .call (.deleteId _ id) => bcdb.NotGreatest id
  | .call (.deleteObj _ root) => ∀ id, root.obj.id = some id → bcdb.NotGreatest id
  | _ => True

def after (bcdb : BCDB) (change : Change) : BCDB :=
  final change.run bcdb

end Change

/-- The ids that a history gives to new objects, in their order. -/
def givenIds : List Change → BCDB → List Nat
  | [], _ => []
  | change :: changes, bcdb =>
      change.newIds bcdb ++ givenIds changes (change.after bcdb)

/-- Some ids were handed out between two states of the store, each once. -/
structure HandedOut (ids : List Nat) (bcdb reached : BCDB) : Prop where
  next : bcdb.storclient.nextId ≤ reached.storclient.nextId
  between : ∀ id ∈ ids, bcdb.storclient.nextId ≤ id ∧ id < reached.storclient.nextId
  once : ids.Nodup

theorem HandedOut.none {bcdb reached : BCDB}
    (next : bcdb.storclient.nextId ≤ reached.storclient.nextId) :
    HandedOut [] bcdb reached where
  next := next
  between := fun _ member => by cases member
  once := .nil

/-- The new ids of an object and its ACL were handed out on the way. -/
theorem IdsGrow.handedOut {session reached : Session} (grows : IdsGrow session reached) :
    HandedOut (session.newIds reached.toJSXObjectRoot) session.bcdb reached.bcdb := by
  have own : ∀ id ∈ (if session.obj.id = none then reached.obj.id.toList else []),
      reached.obj.id = some id ∧ session.obj.id = none := by
    intro id member
    split at member
    · rename_i isNew
      exact ⟨Option.mem_toList.mp member, isNew⟩
    · cases member
  have attached : ∀ id ∈ (if reached.attachedId = session.attachedId then []
      else reached.attachedId.toList),
      reached.attachedId = some id ∧ session.attachedId ≠ some id := by
    intro id member
    split at member
    · cases member
    · rename_i changed
      have isId := Option.mem_toList.mp member
      exact ⟨isId, fun same => changed (by rw [isId, same])⟩
  constructor
  · exact grows.next
  · intro id member
    rcases List.mem_append.mp member with first | second
    · obtain ⟨named, isNew⟩ := own id first
      rcases grows.obj id named with before | new
      · rw [isNew] at before
        cases before
      · exact new
    · obtain ⟨named, changed⟩ := attached id second
      rcases grows.acl id named with before | new
      · exact (changed before).elim
      · exact new
  · apply List.nodup_append.mpr
    refine ⟨?_, ?_, ?_⟩
    · split
      · cases reached.obj.id <;> simp
      · exact .nil
    · split
      · exact .nil
      · cases reached.attachedId <;> simp
    · intro id first other second same
      subst same
      obtain ⟨named, isNew⟩ := own id first
      obtain ⟨named', changed⟩ := attached id second
      rcases grows.apart id named named' with before | before
      · rw [isNew] at before
        cases before
      · exact changed before

theorem JSXObjectRoot.idsFrom_handedOut (root : JSXObjectRoot)
    {computation : SessionM Unit}
    (grows : ∀ session, IdsGrow session (final computation session)) (bcdb : BCDB) :
    HandedOut (root.idsFrom computation bcdb) bcdb (final (root.on computation) bcdb) := by
  have handedOut := (grows { root with bcdb := bcdb }).handedOut
  rw [JSXObjectRoot.on, final_onPart]
  exact handedOut

theorem setDynamic_handedOut (url : Url) (data : BCDBModel.DynamicData)
    (objId nid : Option Nat) (bcdb : BCDB) :
    HandedOut ((Change.call (.setDynamic url data objId nid)).newIds bcdb) bcdb
      ((Change.call (.setDynamic url data objId nid)).after bcdb) := by
  have keeps := BCDBModel.dynamicObj_nextId url data objId nid
    bcdb.storclient.nextId bcdb (Nat.le_refl _)
  change HandedOut (match BCDBModel.dynamicObj url data objId nid bcdb with
      | .ok root between => root.idsFrom (BCDBModel.set url true true) between
      | .error _ _ => []) bcdb
    (final (BCDBModel.setDynamic url data objId nid) bcdb)
  rw [BCDBModel.setDynamic, final_get_seq]
  cases outcome : BCDBModel.dynamicObj url data objId nid bcdb with
  | error problem reached =>
      rw [final_of_error outcome] at keeps
      rw [final_seq_of_error outcome]
      exact .none keeps
  | ok root between =>
      rw [final_of_ok outcome] at keeps
      rw [final_seq_of_ok outcome]
      have handedOut :=
        root.idsFrom_handedOut (BCDBModel.set_grows url true true) between
      constructor
      · exact Nat.le_trans keeps handedOut.next
      · intro id member
        obtain ⟨above, below⟩ := handedOut.between id member
        exact ⟨Nat.le_trans keeps above, below⟩
      · exact handedOut.once

/-- One change hands out its new ids, each once, and a deletion that keeps the
greatest id takes none back. -/
theorem Change.handedOut {change : Change} {bcdb : BCDB}
    (keeps : change.KeepsGreatest bcdb) :
    HandedOut (change.newIds bcdb) bcdb (change.after bcdb) := by
  cases change with
  | save root => exact root.idsFrom_handedOut BCDBModel.save_grows bcdb
  | call request =>
      cases request with
      | set url root index store =>
          exact root.idsFrom_handedOut (BCDBModel.set_grows url index store) bcdb
      | setDynamic url data objId nid => exact setDynamic_handedOut url data objId nid bcdb
      | deleteId url id => exact .none (BCDBModel.deleteId_nextId url keeps)
      | deleteObj url root => exact .none (BCDBModel.deleteObj_nextId url keeps)

/-- The ids of a history lie behind those handed out before it, each once. -/
theorem givenIds_handedOut {changes : List Change} {bcdb : BCDB}
    (keeps : Along Change.KeepsGreatest Change.after bcdb changes) :
    (∀ id ∈ givenIds changes bcdb, bcdb.storclient.nextId ≤ id) ∧
      (givenIds changes bcdb).Nodup := by
  induction changes generalizing bcdb with
  | nil =>
      refine ⟨?_, .nil⟩
      intro id member
      cases member
  | cons change changes induction =>
      obtain ⟨first, rest⟩ := keeps
      have handedOut := Change.handedOut first
      obtain ⟨above, once⟩ := induction rest
      constructor
      · intro id member
        rcases List.mem_append.mp member with new | later
        · exact (handedOut.between id new).1
        · exact Nat.le_trans handedOut.next (above id later)
      · apply List.nodup_append.mpr
        refine ⟨handedOut.once, once, ?_⟩
        intro id new other later same
        have below := (handedOut.between id new).2
        have beyond := above other later
        omega

/-- No id is given twice in a history whose deletions keep the greatest id of a
sqlite store. -/
theorem givenIds_nodup {changes : List Change} {bcdb : BCDB}
    (keeps : Along Change.KeepsGreatest Change.after bcdb changes) :
    (givenIds changes bcdb).Nodup :=
  (givenIds_handedOut keeps).2

/-- A new object of the first model with a name is set. -/
def setNamed (name : String) : Change :=
  .call (.set "test.one" ⟨(nameSchema "test.one" "1").named name none, .none⟩ true true)

/-- Behind the deletion of an id that is not the greatest one, the next object
gets an id of its own. -/
theorem givenIds_nodup_twoModels :
    (givenIds [setNamed "a", setNamed "b", .call (.deleteId "test.one" 1), setNamed "c"]
      twoModels).Nodup := by
  apply givenIds_nodup
  refine ⟨trivial, trivial, ?_, trivial, trivial⟩
  intro _
  have greatest : ((setNamed "b").after ((setNamed "a").after twoModels)
    ).storclient.kvs.maxKey? = some 2 := rfl
  rw [greatest]
  decide

/-- Sqlite gives the id of a deleted object to the next one. -/
theorem deleted_id_given_again :
    ¬ (givenIds [setNamed "a", .call (.deleteId "test.one" 1), setNamed "b"]
      twoModels).Nodup := by
  have ids : givenIds [setNamed "a", .call (.deleteId "test.one" 1), setNamed "b"]
      twoModels = [1, 1] := rfl
  rw [ids]
  decide

end JumpscaleX
