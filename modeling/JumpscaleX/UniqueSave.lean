import JumpscaleX.AgreementRuns
import JumpscaleX.Conflicts
import JumpscaleX.Frames

/-!
# Saves that fail on a unique value

What a failed `save` or `set` leaves behind when it reports a value that is not
unique.
-/

namespace JumpscaleX

open Fallible Stateful

theorem Exn.Plain.elim {problem : Exn} (plain : problem.Plain)
    (conflict : problem.reportsConflict = true) {goal : Prop} : goal :=
  (Bool.eq_false_iff.mp plain conflict).elim

namespace BCDBModel

/-! ## The check of `save` -/

/-- The query of `save` for a unique property finds another object. -/
def FindsOther (bcdb : BCDB) (url : Url) (obj : JSXObject)
    (prop : SchemaProperty) : Prop :=
  ∃ value found, obj.getattr prop.name = .ok value ∧
    find url none [(prop.name, value)] bcdb = .ok found bcdb ∧
    ¬ uniqueAmong obj found

theorem checkUnique_conflict {url : Url} {obj : JSXObject} {prop : SchemaProperty}
    {bcdb reached : BCDB} {problem : Exn}
    (failed : checkUnique url obj prop bcdb = .error problem reached)
    (conflict : problem.reportsConflict = true) :
    reached = bcdb ∧ FindsOther bcdb url obj prop := by
  simp only [checkUnique, seq_eq_error_iff, attempt_eq_error_iff,
    attempt_eq_ok_iff, ensure_eq_error_iff] at failed
  rcases failed with ⟨unread, _⟩ | ⟨value, _, ⟨read, rfl⟩, failed⟩
  · exact (JSXObject.getattr_quiet obj _ _ unread).elim conflict
  rcases failed with unsearched | ⟨found, between, searched, ⟨other, _⟩, rfl⟩
  · exact (find_quiet url none _ _ _ _ unsearched).elim conflict
  · have same := find_reads url none _ _ _ _ searched
    subst same
    exact ⟨rfl, value, found, read, searched, other⟩

theorem not_findsOther_of_ok {url : Url} {obj : JSXObject} {prop : SchemaProperty}
    {bcdb : BCDB} {value : PUnit}
    (done : checkUnique url obj prop bcdb = .ok value bcdb) :
    ¬ FindsOther bcdb url obj prop := by
  rintro ⟨value, found, read, searched, other⟩
  simp only [checkUnique, seq_eq_ok_iff, attempt_eq_ok_iff, ensure_eq_ok_iff,
    read, Except.ok.injEq] at done
  obtain ⟨_, _, ⟨rfl, rfl⟩, found', _, searched', unique, _⟩ := done
  rw [searched, EStateM.Result.ok.injEq] at searched'
  rw [← searched'.1] at unique
  exact other unique

/-! ## The store and the index -/

/-- An index that refuses a row leaves everything as it was. -/
theorem indexSet_eq_error {url : Url} {session reached : Session} {problem : Exn}
    (failed : indexSet url session = .error problem reached) :
    reached = session := by
  simp only [indexSet, get_seq, seq_eq_error_iff, attempt_eq_error_iff,
    attempt_eq_ok_iff, Session.onBcdb, onPart_eq_error_iff, onPart_eq_ok_iff,
    query_eq_error_iff, query_eq_ok_iff, advance_eq_error_iff] at failed
  rcases failed with ⟨_, rfl⟩ | ⟨_, _, ⟨_, rfl⟩, failed⟩
  · rfl
  rcases failed with ⟨_, rfl⟩ | ⟨_, _, ⟨_, rfl⟩, failed⟩
  · rfl
  rcases failed with ⟨_, ⟨_, rfl⟩, rfl⟩ | ⟨_, _, ⟨_, ⟨_, rfl⟩, rfl⟩, failed⟩
  · rfl
  rcases failed with ⟨_, rfl⟩ | ⟨_, _, ⟨_, rfl⟩, _, ⟨_, rfl⟩, rfl⟩
  · rfl
  · rfl

theorem setIndex_eq_error {url : Url} {session reached : Session} {problem : Exn}
    (failed : setIndex url true session = .error problem reached) :
    reached = session := by
  simp only [setIndex, seq_eq_error_iff, runIf_eq_error_iff, runIf_eq_ok_iff,
    rename_eq_error_iff] at failed
  rcases failed with ⟨impossible, _⟩ | ⟨_, _, skipped, _, failed, _⟩
  · cases impossible
  · rcases skipped with ⟨impossible, _⟩ | ⟨_, rfl⟩
    · cases impossible
    · exact indexSet_eq_error failed

/-- A conflict that `set` reports is one of the ACL, or comes from the index
after the record was stored. -/
theorem setWith_conflict {attachAcl : SessionM Unit} {url : Url}
    {session reached : Session} {problem : Exn}
    (failed : setWith attachAcl url true true session = .error problem reached)
    (conflict : problem.reportsConflict = true) :
    attachAcl { session with
        obj := { session.obj with aclId := some (session.obj.aclId.getD 0) } } =
          .error problem reached ∨
      ∃ between, attachAcl { session with
        obj := { session.obj with aclId := some (session.obj.aclId.getD 0) } } =
          .ok () between ∧ StoresRecord between reached := by
  simp only [setWith, setStore, get_seq, seq_eq_error_iff, attempt_eq_error_iff,
    attempt_eq_ok_iff, ensure_eq_error_iff, runIf_eq_error_iff, runIf_eq_ok_iff,
    Session.setObj, modify_seq, seq_eq_ok_iff] at failed
  rcases failed with ⟨⟨_, rfl⟩, _⟩ | ⟨_, _, ⟨_, rfl⟩, failed⟩
  · cases conflict
  rcases failed with ⟨_, failed⟩ | ⟨_, _, stored, _, failed⟩
  · rcases failed with failed | ⟨_, between, _, failed⟩
    · exact .inl failed
    · exact (setRecord_quiet _ _ _ failed).elim conflict
  · rcases stored with ⟨_, _, between, attached, stored⟩ | ⟨impossible, _⟩
    · rw [setIndex_eq_error failed]
      exact .inr ⟨between, attached, setRecord_eq_ok stored⟩
    · exact (impossible trivial).elim

/-! ## The ACL -/

/-- Saving the attached ACL reports a conflict of its own. -/
def AclConflicts (bcdb : BCDB) (root : JSXObjectRoot) : Prop :=
  ∃ acl problem reached, root.acl = .obj acl ∧
    saveWith (pure ()) (pure ())
      { obj := { acl with id := none }, acl := .none, bcdb := bcdb } =
        .error problem reached ∧
    problem.reportsConflict = true

/-- Only the save of an object that is written reports a conflict. -/
theorem saveWith_conflict {saveAcl attachAcl : SessionM Unit}
    {session reached : Session} {problem : Exn}
    (failed : saveWith saveAcl attachAcl session = .error problem reached)
    (conflict : problem.reportsConflict = true) :
    ∃ url model message, session.obj.changed = true ∧
      session.obj.model = some url ∧ session.bcdb.models.find url = some model ∧
      model.nosave = false ∧ session.obj.toCapnp = .ok message ∧
      saveInModel saveAcl attachAcl url model
        { session with obj := { session.obj with capnpObj := message } } =
          .error problem reached := by
  simp only [saveWith, saveChanged, get_seq, runIf_eq_error_iff, seq_eq_error_iff,
    attempt_eq_error_iff, attempt_eq_ok_iff, Session.setObj, modify_seq] at failed
  obtain ⟨changed, ⟨unwritten, _⟩ | ⟨message, _, ⟨written, rfl⟩, failed⟩⟩ := failed
  · exact (JSXObject.toCapnp_quiet _ _ unwritten).elim conflict
  cases attached : session.obj.model with
  | none =>
      rw [attached] at failed
      simp at failed
  | some url =>
      rw [attached] at failed
      simp only [seq_eq_error_iff, Session.onBcdb, onPart_eq_error_iff,
        onPart_eq_ok_iff, query_eq_error_iff, query_eq_ok_iff,
        runIf_eq_error_iff] at failed
      rcases failed with ⟨_, ⟨unknown, _⟩, _⟩ |
        ⟨model, _, ⟨_, ⟨found, rfl⟩, rfl⟩, keeps, failed⟩
      · exact (BCDB.model_quiet _ _ _ unknown).elim conflict
      · rw [BCDB.model_eq_ok_iff] at found
        rw [← attached] at failed
        exact ⟨url, model, message, changed, rfl, found, keeps, written, failed⟩

theorem savable_of_conflict {saveAcl attachAcl : SessionM Unit}
    {session reached : Session} {problem : Exn}
    (failed : saveWith saveAcl attachAcl session = .error problem reached)
    (conflict : problem.reportsConflict = true) :
    Savable session.bcdb session.obj := by
  obtain ⟨url, model, _, changed, attached, found, keeps, _⟩ :=
    saveWith_conflict failed conflict
  exact ⟨changed, url, model, attached, found, keeps⟩

theorem aclSave_conflict {acl : JSXObject} {session reached : Session}
    {problem : Exn} (failed : aclSave { acl with id := none } session =
      .error problem reached)
    (conflict : problem.reportsConflict = true) (attached : session.acl = .obj acl) :
    AclConflicts session.bcdb session.toJSXObjectRoot := by
  simp only [aclSave, Session.onAcl, onPart_eq_error_iff] at failed
  obtain ⟨part, failed, _⟩ := failed
  exact ⟨acl, problem, part, attached, failed, conflict⟩

/-- A conflict that comes up while the ACL is brought into the store is one of
the ACL. -/
theorem attachAcl_conflict {session reached : Session} {problem : Exn}
    (failed : attachAcl session = .error problem reached)
    (conflict : problem.reportsConflict = true) :
    AclConflicts session.bcdb session.toJSXObjectRoot := by
  simp only [attachAcl, get_seq] at failed
  cases attached : session.acl with
  | none =>
      rw [attached] at failed
      simp at failed
  | model =>
      rw [attached] at failed
      simp only [throw_eq_error_iff] at failed
      rw [← failed.1] at conflict
      cases conflict
  | obj acl =>
      rw [attached] at failed
      simp only [seq_eq_error_iff, modify_ne_error, and_false, exists_false,
        or_false] at failed
      unfold aclStore at failed
      cases named : acl.id with
      | none =>
          have same : { acl with id := none } = acl := by rw [← named]
          rw [named, ← same] at failed
          exact aclSave_conflict failed conflict attached
      | some id =>
          rw [named] at failed
          simp only [get_seq, seq_eq_error_iff, attempt_eq_error_iff,
            attempt_eq_ok_iff, ensure_eq_error_iff, runIf_eq_error_iff,
            Session.onBcdb, onPart_eq_error_iff, onPart_eq_ok_iff] at failed
          rcases failed with ⟨⟨_, rfl⟩, _⟩ | ⟨_, _, ⟨_, rfl⟩, failed⟩
          · cases conflict
          rcases failed with ⟨_, ungot, _⟩ | ⟨stored, _, ⟨bcdb, got, rfl⟩, failed⟩
          · exact (get_quiet _ _ _ _ _ ungot).elim conflict
          have same := (get_eq_ok got).1
          subst same
          rcases failed with ⟨uncompared, _⟩ | ⟨_, _, ⟨_, rfl⟩, _, failed⟩
          · exact (aclDiffers_quiet _ _ _ uncompared).elim conflict
          · exact aclSave_conflict failed conflict attached

/-- No save makes the store forget an id that it handed out. -/
theorem nextId_closed (bound : Nat) :
    BCDB.Closed (fun bcdb => bound ≤ bcdb.storclient.nextId) where
  modelAdd := by
    intro bcdb reached url done holds
    obtain ⟨schema, _, rfl⟩ := BCDB.modelAdd_eq_ok_iff.mp done
    rw [(BCDB.addModel_sameStore bcdb schema.model).storclient]
    exact holds
  schemaChange := by
    intro bcdb schema holds
    rw [(BCDB.schemaChange_sameStore bcdb schema).storclient]
    exact holds
  writeTable := by
    intro bcdb reached model change done holds
    obtain ⟨_, _, _, _, rfl⟩ := BCDB.writeTable_eq_ok done
    exact holds
  append := by
    intro bcdb data key client done holds
    rw [StorClient.nextId_append done]
    exact Nat.le_succ_of_le holds
  set := by
    intro bcdb key data client done holds
    exact Nat.le_trans holds (StorClient.nextId_le_set done)

/-! ## What is left behind -/

/-- Store, index and id of the object are what they were. -/
structure Unchanged (session reached : Session) : Prop where
  store : reached.bcdb.storclient = session.bcdb.storclient
  index : reached.bcdb.tables = session.bcdb.tables
  id : reached.obj.id = session.obj.id

/-- `if obj.acl_id is None: obj.acl_id = 0`. -/
def withAclId (root : JSXObjectRoot) : JSXObjectRoot :=
  { root with obj := { root.obj with aclId := some (root.obj.aclId.getD 0) } }

/-- The record that a set would write stands under the id of the object. -/
def AlreadyStored (bcdb : BCDB) (root : JSXObjectRoot) : Prop :=
  ∃ id message aclId, root.obj.id = some id ∧
    root.obj.toCapnp = .ok message ∧
    AttachedAclId bcdb (withAclId root) aclId ∧
    bcdb.storclient.get id =
      some (.record ({ root.obj with aclId := aclId }.record message))

theorem AttachedAclId.unique {bcdb : BCDB} {root : JSXObjectRoot}
    {aclId other : Option Nat} (attached : AttachedAclId bcdb root aclId)
    (attached' : AttachedAclId bcdb root other) : aclId = other := by
  unfold AttachedAclId at attached attached'
  cases acl : root.acl with
  | none =>
      rw [acl] at attached attached'
      exact attached.trans attached'.symm
  | model =>
      rw [acl] at attached
      exact attached.elim
  | obj acl' =>
      rw [acl] at attached attached'
      rcases attached with ⟨renewed, same⟩ | ⟨kept, same⟩ <;>
        rcases attached' with ⟨renewed', same'⟩ | ⟨kept', same'⟩
      · exact same.trans same'.symm
      · exact (kept' renewed).elim
      · exact (kept renewed').elim
      · exact same.trans same'.symm

/-- A `set` that fails on a unique value has left everything as it was exactly
when the ACL needed no save and the record was in the store already. -/
theorem set_unchanged_iff {url : Url} {session reached : Session} {problem : Exn}
    (failed : set url true true session = .error problem reached)
    (conflict : problem.reportsConflict = true)
    (own : ¬ AclConflicts session.bcdb session.toJSXObjectRoot) :
    Unchanged session reached ↔
      ¬ AclUnsaved session.bcdb session.toJSXObjectRoot ∧
        AlreadyStored session.bcdb session.toJSXObjectRoot := by
  rcases setWith_conflict failed conflict with failed | ⟨between, attached, stored⟩
  · have conflicts := attachAcl_conflict failed conflict
    exact (own conflicts).elim
  obtain ⟨aclId, sameObj, effect⟩ := attachAcl_eq_ok attached
  obtain ⟨message, id, client, written, stores, rfl⟩ := stored.effect
  have given : between.obj.id = session.obj.id := by rw [sameObj]
  have written' : session.obj.toCapnp = .ok message := by
    rw [sameObj] at written
    exact written
  have sameRecord : between.obj.record message =
      ({ session.obj with aclId := aclId } : JSXObject).record message := by
    rw [sameObj]
  rcases effect with ⟨settled, same, attachedId⟩ |
    ⟨acl, _, aclNr, _, isAcl, pending, _, _, puts⟩
  · constructor
    · rintro ⟨storeSame, _, idSame⟩
      refine ⟨settled, id, message, aclId, idSame.symm, written', attachedId, ?_⟩
      rw [given, ← idSame] at stores
      have inserted := StorClient.set_eq_ok stores.2
      change client = session.bcdb.storclient at storeSame
      rw [← sameRecord, ← storeSame, inserted]
      exact OrderedMap.lookup_insert_self _ _ _
    · rintro ⟨_, id', message', aclId', named, written'', attachedId', present⟩
      rw [written', Except.ok.injEq] at written''
      subst written''
      have sameAcl := attachedId.unique attachedId'
      subst sameAcl
      rw [given, named, same] at stores
      obtain ⟨rfl, updated⟩ := stores
      rw [sameRecord] at updated
      have inserted := StorClient.set_eq_ok updated
      rw [OrderedMap.insert_eq_self present] at inserted
      exact ⟨inserted, by rw [same], named.symm⟩
  · have aclGrows : session.bcdb.storclient.nextId <
        between.bcdb.storclient.nextId := by
      obtain ⟨_, _, aclStores⟩ := puts.stores
      exact aclStores.nextId_lt
    have grows := Nat.lt_of_lt_of_le aclGrows stores.nextId_le
    constructor
    · rintro ⟨storeSame, _⟩
      change client = session.bcdb.storclient at storeSame
      rw [storeSame] at grows
      exact (Nat.lt_irrefl _ grows).elim
    · rintro ⟨settled, _⟩
      exact (settled ⟨acl, isAcl, pending⟩).elim

/-! ## The ACL part of `save` -/

/-- The object after the ACL part of `save`, when no ACL was written. -/
def markedRoot (url : Url) (root : JSXObjectRoot) : JSXObjectRoot :=
  if url = aclUrl then root else { root with obj := markAcl root }

/-- The ACL was left alone, or a save of it that writes nothing went over
it. -/
def SameAcl (bcdb : BCDB) (acl acl' : AclRef) : Prop :=
  acl' = acl ∨ ∃ old new, acl = .obj old ∧ acl' = .obj new ∧
    old.id = none ∧ new.id = none ∧ ¬ Savable bcdb old ∧ ¬ Savable bcdb new

theorem SameAcl.unsaved_iff {bcdb : BCDB} {root root' : JSXObjectRoot}
    (same : SameAcl bcdb root.acl root'.acl) :
    AclUnsaved bcdb root' ↔ AclUnsaved bcdb root := by
  unfold AclUnsaved
  rcases same with same | ⟨old, new, isOld, isNew, _, _, oldFails, newFails⟩
  · rw [same]
  · constructor
    · rintro ⟨acl, isAcl, pending⟩
      rw [isNew] at isAcl
      cases isAcl
      exact (newFails pending.1).elim
    · rintro ⟨acl, isAcl, pending⟩
      rw [isOld] at isAcl
      cases isAcl
      exact (oldFails pending.1).elim

theorem SameAcl.attached_iff {bcdb : BCDB} {root root' : JSXObjectRoot}
    (same : SameAcl bcdb root.acl root'.acl) (obj : root'.obj = root.obj)
    (aclId : Option Nat) :
    AttachedAclId bcdb (withAclId root') aclId ↔
      AttachedAclId bcdb (withAclId root) aclId := by
  unfold AttachedAclId withAclId
  rcases same with same | ⟨old, new, isOld, isNew, oldId, newId, _, _⟩
  · simp only [same, obj]
  · simp [isOld, isNew, KeptAclId, not_aclRenewed_of_new oldId,
      not_aclRenewed_of_new newId, oldId, newId]

theorem SameAcl.stored_iff {bcdb : BCDB} {root root' : JSXObjectRoot}
    (same : SameAcl bcdb root.acl root'.acl) (obj : root'.obj = root.obj) :
    AlreadyStored bcdb root' ↔ AlreadyStored bcdb root := by
  simp only [AlreadyStored, same.attached_iff obj, obj]

theorem SameAcl.conflicts {bcdb : BCDB} {root root' : JSXObjectRoot}
    (same : SameAcl bcdb root.acl root'.acl)
    (conflicts : AclConflicts bcdb root') : AclConflicts bcdb root := by
  obtain ⟨acl, problem, reached, isAcl, failed, conflict⟩ := conflicts
  rcases same with same | ⟨old, new, isOld, isNew, _, _, _, newFails⟩
  · exact ⟨acl, problem, reached, by rw [← same, isAcl], failed, conflict⟩
  · rw [isNew] at isAcl
    cases isAcl
    exact (newFails (savable_of_conflict failed conflict)).elim

/-- `save` writes the attached ACL before it looks at the unique
properties. -/
def AclFirst (bcdb : BCDB) (url : Url) (root : JSXObjectRoot) : Prop :=
  url ≠ aclUrl ∧ ∃ acl, root.acl = .obj acl ∧ Savable bcdb acl ∧ acl.id = none

theorem AclFirst.unsaved {bcdb : BCDB} {url : Url} {root : JSXObjectRoot}
    (first : AclFirst bcdb url root) : AclUnsaved bcdb root := by
  obtain ⟨_, acl, isAcl, savable, isNew⟩ := first
  exact ⟨acl, isAcl, savable, .inl isNew⟩

/-- The ACL part of `save` writes a new ACL, or marks the object. -/
theorem saveAcl_eq_ok {url : Url} {session between : Session} {value : PUnit}
    (done : runIf (url ≠ aclUrl) saveAcl session = .ok value between) :
    AclFirst session.bcdb url session.toJSXObjectRoot ∧
        session.bcdb.storclient.nextId < between.bcdb.storclient.nextId ∨
      ¬ AclFirst session.bcdb url session.toJSXObjectRoot ∧
        between.bcdb = session.bcdb ∧
        between.obj = (markedRoot url session.toJSXObjectRoot).obj ∧
        SameAcl session.bcdb session.acl between.acl := by
  unfold markedRoot AclFirst
  rcases (runIf_eq_ok_iff.mp done) with ⟨isOther, done⟩ | ⟨isAclModel, rfl⟩
  · rw [if_neg isOther]
    simp only [saveAcl, get_seq] at done
    cases attached : session.acl with
    | none =>
        rw [attached] at done
        simp only [return_eq_ok_iff] at done
        rw [← done.2]
        exact .inr ⟨by simp, rfl, by simp only [markAcl, attached], .inl attached⟩
    | model =>
        rw [attached] at done
        simp at done
    | obj acl =>
        rw [attached] at done
        simp only [seq_eq_ok_iff, runIf_eq_ok_iff, modify_eq_ok_iff] at done
        obtain ⟨_, _, saved, rfl⟩ := done
        rcases saved with ⟨isNew, saved⟩ | ⟨isOld, rfl⟩
        · obtain ⟨sameObj, acl', isAcl, effect⟩ := aclSave_eq_ok saved
          rcases effect with ⟨fails, same, keptId, fails'⟩ |
            ⟨savable, _, _, _, _, _, puts⟩
          · rw [isNew] at keptId
            refine .inr ⟨?_, same, by simp only [markAcl, attached, isAcl, sameObj,
              keptId, isNew], .inr ⟨acl, acl', rfl, isAcl, isNew, keptId, fails, fails'⟩⟩
            rintro ⟨_, other, isOther, savable, _⟩
            cases isOther
            exact fails savable
          · rw [isNew] at puts
            obtain ⟨_, _, stores⟩ := puts.stores
            exact .inl ⟨⟨isOther, acl, rfl, savable, isNew⟩, stores.nextId_lt⟩
        · refine .inr ⟨?_, rfl, rfl, .inl attached⟩
          rintro ⟨_, other, isOther, _, isNew⟩
          cases isOther
          exact isOld isNew
  · rw [if_pos (not_not.mp isAclModel)]
    exact .inr ⟨fun first => isAclModel first.1, rfl, rfl, .inl rfl⟩

theorem saveAcl_conflict {url : Url} {session reached : Session} {problem : Exn}
    (failed : runIf (url ≠ aclUrl) saveAcl session = .error problem reached)
    (conflict : problem.reportsConflict = true) :
    AclConflicts session.bcdb session.toJSXObjectRoot := by
  rw [runIf_eq_error_iff] at failed
  obtain ⟨_, failed⟩ := failed
  simp only [saveAcl, get_seq] at failed
  cases attached : session.acl with
  | none =>
      rw [attached] at failed
      simp at failed
  | model =>
      rw [attached] at failed
      simp only [throw_eq_error_iff] at failed
      rw [← failed.1] at conflict
      cases conflict
  | obj acl =>
      rw [attached] at failed
      simp only [seq_eq_error_iff, runIf_eq_error_iff, modify_ne_error, and_false,
        exists_false, or_false] at failed
      obtain ⟨isNew, failed⟩ := failed
      have same : { acl with id := none } = acl := by rw [← isNew]
      rw [← same] at failed
      exact aclSave_conflict failed conflict attached

/-- A save that fails on a unique value writes nothing: the query of a unique
property finds another object before anything was written, or there is nothing
new to write. -/
def HarmlessSave (bcdb : BCDB) (url : Url) (model : Model)
    (root : JSXObjectRoot) : Prop :=
  ¬ AclFirst bcdb url root ∧
      (∃ prop ∈ model.schema.propertiesUnique,
        FindsOther bcdb url (markedRoot url root).obj prop) ∨
    ¬ AclUnsaved bcdb root ∧ AlreadyStored bcdb (markedRoot url root)

theorem markedRoot_acl (url : Url) (root : JSXObjectRoot) :
    (markedRoot url root).acl = root.acl := by
  unfold markedRoot
  split <;> rfl

theorem markedRoot_id (url : Url) (root : JSXObjectRoot) :
    (markedRoot url root).obj.id = root.obj.id := by
  unfold markedRoot markAcl
  split
  · rfl
  · split
    · split <;> rfl
    · rfl

theorem unchanged_after_acl {url : Url} {session between reached : Session}
    (same : between.bcdb = session.bcdb)
    (marked : between.obj = (markedRoot url session.toJSXObjectRoot).obj) :
    Unchanged session reached ↔ Unchanged between reached := by
  have id : between.obj.id = session.obj.id := by
    rw [marked]
    exact markedRoot_id url session.toJSXObjectRoot
  constructor
  · intro unchanged
    exact ⟨unchanged.store.trans (by rw [same]), unchanged.index.trans (by rw [same]),
      unchanged.id.trans id.symm⟩
  · intro unchanged
    exact ⟨unchanged.store.trans (by rw [same]), unchanged.index.trans (by rw [same]),
      unchanged.id.trans id⟩

theorem saveInModel_unchanged_iff {url : Url} {model : Model}
    {session reached : Session} {problem : Exn}
    (failed : saveInModel saveAcl attachAcl url model session =
      .error problem reached)
    (conflict : problem.reportsConflict = true)
    (own : ¬ AclConflicts session.bcdb session.toJSXObjectRoot) :
    Unchanged session reached ↔
      HarmlessSave session.bcdb url model session.toJSXObjectRoot := by
  simp only [saveInModel, get_seq, seq_eq_error_iff, attempt_eq_error_iff,
    attempt_eq_ok_iff, ensure_eq_error_iff, Session.onBcdb, onPart_eq_error_iff,
    onPart_eq_ok_iff] at failed
  rcases failed with ⟨unchecked, _⟩ | ⟨_, _, ⟨_, rfl⟩, failed⟩
  · exact (checkEmptyIndexedFields_quiet _ _ _ unchecked).elim conflict
  rcases failed with failed | ⟨_, between, acl, failed⟩
  · exact (own (saveAcl_conflict failed conflict)).elim
  have reads : ∀ prop ∈ model.schema.propertiesUnique,
      Reads (checkUnique url between.obj prop) :=
    fun prop _ => checkUnique_reads url between.obj prop
  -- what fails after the ACL part: the check, or the set
  have outcome :
      (reached = between ∧ ∃ prop ∈ model.schema.propertiesUnique,
        FindsOther between.bcdb url between.obj prop) ∨
      (¬ ∃ prop ∈ model.schema.propertiesUnique,
        FindsOther between.bcdb url between.obj prop) ∧
        set url true true between = .error problem reached := by
    rcases failed with ⟨bcdb, checked, rfl⟩ | ⟨_, _, ⟨bcdb, checked, rfl⟩, failed⟩
    · left
      obtain ⟨prop, member, failed⟩ := forM_eq_error reads checked
      obtain ⟨rfl, finds⟩ := checkUnique_conflict failed conflict
      exact ⟨rfl, prop, member, finds⟩
    · right
      obtain ⟨rfl, passes⟩ := (forM_eq_ok_iff reads).mp checked
      refine ⟨?_, ?_⟩
      · rintro ⟨prop, member, finds⟩
        exact not_findsOther_of_ok (passes prop member) finds
      · rcases failed with failed | ⟨_, _, _, ⟨_, rfl⟩, _⟩
        · exact failed
        · cases conflict
  rcases saveAcl_eq_ok acl with ⟨first, grows⟩ | ⟨notFirst, same, marked, sameAcl⟩
  · -- the ACL was written, and nothing takes it back
    have stays : between.bcdb.storclient.nextId ≤ reached.bcdb.storclient.nextId := by
      rcases outcome with ⟨rfl, _⟩ | ⟨_, failed⟩
      · exact Nat.le_refl _
      · exact (set_keeps (nextId_closed _) url true true).of_error failed
          (Nat.le_refl _)
    constructor
    · rintro ⟨storeSame, _⟩
      rw [storeSame] at stays
      exact (Nat.lt_irrefl _ (Nat.lt_of_lt_of_le grows stays)).elim
    · rintro (⟨notFirst, _⟩ | ⟨settled, _⟩)
      · exact (notFirst first).elim
      · exact (settled first.unsaved).elim
  · have unchangedIff : Unchanged session reached ↔ Unchanged between reached :=
      unchanged_after_acl same marked
    rw [unchangedIff]
    rcases outcome with ⟨rfl, finds⟩ | ⟨passes, failed⟩
    · rw [same, marked] at finds
      exact ⟨fun _ => .inl ⟨notFirst, finds⟩, fun _ => ⟨rfl, rfl, rfl⟩⟩
    · have own' : ¬ AclConflicts between.bcdb between.toJSXObjectRoot := by
        rw [same]
        exact fun conflicts => own (SameAcl.conflicts sameAcl conflicts)
      rw [set_unchanged_iff failed conflict own', same,
        SameAcl.unsaved_iff sameAcl,
        SameAcl.stored_iff (markedRoot_acl url session.toJSXObjectRoot ▸ sameAcl) marked]
      rw [same, marked] at passes
      constructor
      · exact .inr
      · rintro (⟨_, finds⟩ | harmless)
        · exact (passes finds).elim
        · exact harmless

/-! ## The two calls -/

/-- The calls that report a value which is not unique. -/
inductive SaveCall where
  | save
  | set (url : Url)

def SaveCall.run : SaveCall → SessionM Unit
  | .save => BCDBModel.save
  | .set url => BCDBModel.set url true true

/-- The call raises because the values of the object, and not those of the ACL
attached to it, are in conflict with those of another object. -/
structure RaisesConflict (call : SaveCall) (session reached : Session) : Prop where
  raised : ∃ problem, call.run session = .error problem reached ∧
    problem.reportsConflict = true
  own : ¬ AclConflicts session.bcdb session.toJSXObjectRoot

/-- The conditions under which a call that raises has written nothing. -/
def SaveCall.Harmless (session : Session) : SaveCall → Prop
  | .save => ∃ url model message, session.obj.model = some url ∧
      session.bcdb.models.find url = some model ∧
      session.obj.toCapnp = .ok message ∧
      HarmlessSave session.bcdb url model
        { session.toJSXObjectRoot with
          obj := { session.obj with capnpObj := message } }
  | .set _ =>
      ¬ AclUnsaved session.bcdb session.toJSXObjectRoot ∧
        AlreadyStored session.bcdb session.toJSXObjectRoot

/-- A second object of the first model. -/
def setSecond : Call :=
  .set "test.one" ⟨(nameSchema "test.one" "1").named "b" none, .none⟩ true true

/-- The second object is given the name of the first one and saved. -/
def renamed : Session where
  obj := (nameSchema "test.one" "1").named "a" (some 2)
  acl := .none
  bcdb := final setSecond.run afterSet

theorem renamed_raises :
    RaisesConflict .save renamed (final SaveCall.save.run renamed) where
  raised := ⟨.input (.notUnique "name"), rfl, rfl⟩
  own := by
    rintro ⟨_, _, _, impossible, _⟩
    cases impossible

/-- A new object with the name of a stored one is saved. -/
def duplicate : Session where
  obj := (nameSchema "test.one" "1").named "a" none
  acl := .none
  bcdb := afterSet

end BCDBModel

end JumpscaleX
