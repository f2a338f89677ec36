import JumpscaleX.UniqueSave
import JumpscaleX.Reindex

/-!
# Read-only databases

A slave opens the file of its index with `mode=ro`, and no call changes its
tables.  For the store the flag stops nothing, since the answer of
`_is_writable_check` is dropped: the store is safe when its own file was opened
with `mode=ro`, or when a call finds nothing to write.
-/

namespace JumpscaleX

open Fallible Stateful

/-- The file of the store was opened with `mode=ro`. -/
def StorClient.Sealed (client : StorClient) : Prop :=
  client.type = .SDB ∧ client.readonly = true

namespace StorClient

theorem Sealed.append_ne_ok {client : StorClient} (closed : client.Sealed)
    (data : Stored) (added : Nat × StorClient) : client.append data ≠ .ok added := by
  intro done
  simp only [append, writable, bind_eq_ok_iff, ensure_eq_ok_iff] at done
  obtain ⟨_, _, _, writable, _⟩ := done
  have notReadonly := writable closed.1
  simp [closed.2] at notReadonly

theorem Sealed.set_eq_ok {client reached : StorClient} (closed : client.Sealed)
    {key : Nat} {data : Stored} (done : client.set key data = .ok reached) :
    reached = client := by
  simp only [set, writable, bind_eq_ok_iff] at done
  obtain ⟨_, _, done⟩ := done
  split at done
  · exact (pure_eq_ok_iff.mp done).symm
  · simp only [bind_eq_ok_iff, ensure_eq_ok_iff] at done
    obtain ⟨_, writable, _⟩ := done
    have notReadonly := writable closed.1
    simp [closed.2] at notReadonly

theorem Sealed.delete_ne_ok {client : StorClient} (closed : client.Sealed)
    (key : Nat) (reached : StorClient) : client.delete key ≠ .ok reached := by
  intro done
  simp only [delete, writable, bind_eq_ok_iff, ensure_eq_ok_iff] at done
  obtain ⟨_, writable, _⟩ := done
  have notReadonly := writable closed.1
  simp [closed.2] at notReadonly

/-- Deleting what is not there writes nothing. -/
theorem delete_absent {client reached : StorClient} {key : Nat}
    (absent : client.get key = none) (done : client.delete key = .ok reached) :
    reached = client := by
  rw [delete_eq_ok done]
  congr 1
  exact OrderedMap.erase_eq_self absent

end StorClient

/-- Store and tables are those of the start, on a slave. -/
structure Untouched (start bcdb : BCDB) : Prop where
  storclient : bcdb.storclient = start.storclient
  tables : bcdb.tables = start.tables
  readonly : bcdb.readonly = true
  indexReadonly : bcdb.indexReadonly = true

/-- Reading and indexing touch nothing on a slave. -/
theorem untouched_closedRead (start : BCDB) : BCDB.ClosedRead (Untouched start) where
  modelAdd := by
    intro bcdb reached url done untouched
    obtain ⟨schema, _, rfl⟩ := BCDB.modelAdd_eq_ok_iff.mp done
    constructor
    · exact untouched.storclient
    · simp only [BCDB.addModel_tables, untouched.readonly, Bool.not_true,
        Bool.false_and, Bool.false_eq_true, if_false]
      exact untouched.tables
    · exact untouched.readonly
    · exact untouched.indexReadonly
  schemaChange := by
    intro bcdb schema untouched
    obtain ⟨_, storclient, tables, _⟩ := BCDB.schemaChange_frame bcdb schema
    have same := BCDB.schemaChange_sameStore bcdb schema
    constructor
    · exact storclient.trans untouched.storclient
    · exact tables.trans untouched.tables
    · exact same.readonly.trans untouched.readonly
    · exact same.indexReadonly.trans untouched.indexReadonly
  writeTable := by
    intro bcdb reached model change done untouched
    have writable := (BCDB.writeTable_eq_ok_iff.mp done).1
    rw [untouched.indexReadonly] at writable
    cases writable

/-- With a sealed store no primitive write touches anything. -/
theorem untouched_closedDelete {start : BCDB} (closed : start.storclient.Sealed) :
    BCDB.ClosedDelete (Untouched start) where
  toClosedRead := untouched_closedRead start
  append := by
    intro bcdb data key client done untouched
    rw [untouched.storclient] at done
    exact (closed.append_ne_ok data _ done).elim
  set := by
    intro bcdb key data client done untouched
    rw [untouched.storclient] at done
    have same := closed.set_eq_ok done
    exact ⟨same, untouched.tables, untouched.readonly, untouched.indexReadonly⟩
  delete := by
    intro bcdb key client done untouched
    rw [untouched.storclient] at done
    exact (closed.delete_ne_ok key client done).elim

namespace BCDBModel

/-! ## What a call wants to write -/

/-- The record of an object can be made, and does not stand under its id. -/
def RecordPending (bcdb : BCDB) (obj : JSXObject) : Prop :=
  ∃ message, obj.toCapnp = .ok message ∧ 0 < obj.nid ∧ obj.id.getD 0 < 2 ^ 32 ∧
    ∀ id, obj.id = some id →
      bcdb.storclient.get id ≠ some (.record (obj.record message))

/-- A save of an object without ACL gets to its record. -/
def SavePending (bcdb : BCDB) (obj : JSXObject) : Prop :=
  obj.changed = true ∧ ∃ url model message, obj.model = some url ∧
    bcdb.models.find url = some model ∧ model.nosave = false ∧
    obj.toCapnp = .ok message ∧
    checkEmptyIndexedFields model.schema.propertiesIndexSql
      { obj with capnpObj := message } = .ok () ∧
    model.schema.propertiesUnique.forM
      (checkUnique url { obj with capnpObj := message }) bcdb = .ok () bcdb ∧
    RecordPending bcdb
      { obj with capnpObj := message, aclId := some (obj.aclId.getD 0) }

/-- An attached ACL that `set` saves gets to its record. -/
def AclWrites (bcdb : BCDB) (root : JSXObjectRoot) : Prop :=
  ∃ acl, root.acl = .obj acl ∧
    (acl.id = none ∧ SavePending bcdb acl ∨
      AclRenewed bcdb acl ∧ SavePending bcdb { acl with id := none })

/-- A `set` gets to the record of the ACL or of the object. -/
def SetPending (bcdb : BCDB) (root : JSXObjectRoot) : Prop :=
  root.obj.nid ≠ 0 ∧
    (AclWrites bcdb root ∨ ∃ aclId, AttachedAclId bcdb (withAclId root) aclId ∧
      RecordPending bcdb { root.obj with aclId := aclId })

/-- A `save` gets to the record of the ACL or of the object. -/
def RootPending (bcdb : BCDB) (root : JSXObjectRoot) : Prop :=
  root.obj.changed = true ∧ ∃ url model message, root.obj.model = some url ∧
    bcdb.models.find url = some model ∧ model.nosave = false ∧
    root.obj.toCapnp = .ok message ∧
    checkEmptyIndexedFields model.schema.propertiesIndexSql
      { root.obj with capnpObj := message } = .ok () ∧
    (url ≠ aclUrl ∧ (∃ acl, root.acl = .obj acl ∧ acl.id = none ∧
        SavePending bcdb acl) ∨
      model.schema.propertiesUnique.forM (checkUnique url (markedRoot url
        { root with obj := { root.obj with capnpObj := message } }).obj) bcdb =
          .ok () bcdb ∧
      SetPending bcdb (markedRoot url
        { root with obj := { root.obj with capnpObj := message } }))

/-! ## Calls that find nothing to write -/

section Idle

variable {start : BCDB}

/-- The database of a session is untouched. -/
def UntouchedIn (start : BCDB) (session : Session) : Prop :=
  Untouched start session.bcdb

theorem data_eq_ok_bound {session reached : Session} {bdata : BData}
    (done : data session = .ok bdata reached) : session.obj.id.getD 0 < 2 ^ 32 := by
  simp only [data, get_seq, seq_eq_ok_iff, attempt_eq_ok_iff, Session.setObj,
    modify_seq, JSXObject.dumps, bind_eq_ok_iff, pure_eq_ok_iff,
    ensure_eq_ok_iff] at done
  obtain ⟨message, _, _, ⟨again, _, _, bound, _⟩, _⟩ := done
  exact bound

/-- Storing a record that is there already writes nothing. -/
theorem storSet_idle {session : Session} {id : Nat} {record : Record}
    (untouched : UntouchedIn start session) (named : session.obj.id = some id)
    (present : session.bcdb.storclient.get id = some (.record record)) :
    UntouchedIn start (final (storSet record) session) := by
  cases outcome : storSet record session with
  | ok value reached =>
      rw [final_of_ok outcome]
      obtain ⟨other, client, stores, rfl⟩ := storSet_eq_ok outcome
      rw [named] at stores
      have same := StorClient.set_eq_ok stores.2
      rw [OrderedMap.insert_eq_self present] at same
      have unchanged : client = session.bcdb.storclient := same
      exact ⟨unchanged.trans untouched.storclient, untouched.tables,
        untouched.readonly, untouched.indexReadonly⟩
  | error problem reached =>
      rw [final_of_error outcome]
      simp only [storSet, get_seq, named, Session.onBcdb, onPart_eq_error_iff,
        storUpdate, advance_eq_error_iff] at outcome
      obtain ⟨_, ⟨_, rfl⟩, rfl⟩ := outcome
      exact untouched

theorem setRecord_idle {session : Session} (untouched : UntouchedIn start session)
    (idle : ¬ RecordPending session.bcdb session.obj) :
    UntouchedIn start (final setRecord session) := by
  apply final_seq
  · intro problem reached failed
    exact data_keeps.of_error failed untouched
  intro bdata between serialised
  have bound := data_eq_ok_bound serialised
  obtain ⟨message, written, rfl, rfl⟩ := data_eq_ok serialised
  by_cases positive : 0 < session.obj.nid
  · -- the record could be made, so it stands under the id of the object
    have stored : ∃ id, session.obj.id = some id ∧ session.bcdb.storclient.get id =
        some (.record (session.obj.record message)) := by
      by_contra missing
      apply idle
      refine ⟨message, written, positive, bound, ?_⟩
      intro id named present
      exact missing ⟨id, named, present⟩
    obtain ⟨id, named, present⟩ := stored
    rw [final_get_seq, final_seq_of_ok (attempt_eq_ok_iff.mpr ⟨ensure_of positive, rfl⟩)]
    exact storSet_idle untouched named present
  · rw [final_get_seq, final_seq_of_error (attempt_eq_error_iff.mpr ⟨ensure_of_not positive, rfl⟩)]
    exact untouched

theorem setIndex_idle {session : Session} (untouched : UntouchedIn start session)
    (url : Url) (store : Bool) :
    UntouchedIn start (final (setIndex url store) session) :=
  setIndex_keeps (untouched_closedRead start) url store session untouched

/-- A `set` writes nothing when its ACL and its record write nothing. -/
theorem setWith_idle {attachAcl : SessionM Unit} {session : Session}
    (url : Url) (index store : Bool) (untouched : UntouchedIn start session)
    (attach : store = true → session.obj.nid ≠ 0 →
      UntouchedIn start (final attachAcl { session with
        obj := { session.obj with aclId := some (session.obj.aclId.getD 0) } }))
    (record : ∀ between, store = true → session.obj.nid ≠ 0 →
      attachAcl { session with
        obj := { session.obj with aclId := some (session.obj.aclId.getD 0) } } =
          .ok () between → ¬ RecordPending between.bcdb between.obj) :
    UntouchedIn start (final (setWith attachAcl url index store) session) := by
  rw [setWith, final_get_seq]
  apply final_seq
  · intro problem reached failed
    rw [← (attempt_eq_error_iff.mp failed).2]
    exact untouched
  intro value between checked
  obtain ⟨notZero, rfl⟩ := attempt_eq_ok_iff.mp checked
  rw [ensure_eq_ok_iff] at notZero
  have stored : UntouchedIn start
      (final (runIf (store = true) (setStore attachAcl)) session) := by
    by_cases stores : store = true
    · rw [runIf, if_pos stores, setStore, final_get_seq, Session.setObj,
        final_modify_seq]
      apply final_seq
      · intro problem reached failed
        have attached := attach stores notZero
        rw [final_of_error failed] at attached
        exact attached
      · intro value between done
        have attached := attach stores notZero
        rw [final_of_ok done] at attached
        exact setRecord_idle attached (record between stores notZero done)
    · rw [runIf_of_not stores]
      exact untouched
  apply final_seq
  · intro problem reached failed
    rw [final_of_error failed] at stored
    exact stored
  · intro value between done
    rw [final_of_ok done] at stored
    by_cases indexes : index = true
    · rw [runIf, if_pos indexes]
      exact setIndex_idle stored url store
    · rw [runIf_of_not indexes]
      exact stored

/-- A `save` writes nothing when its ACL writes nothing and the `set` behind its
checks writes nothing. -/
theorem saveInModel_idle {saveAcl attachAcl : SessionM Unit} {url : Url}
    {model : Model} {session : Session} (untouched : UntouchedIn start session)
    (acl : checkEmptyIndexedFields model.schema.propertiesIndexSql session.obj = .ok () →
      UntouchedIn start (final (runIf (url ≠ aclUrl) saveAcl) session))
    (sets : checkEmptyIndexedFields model.schema.propertiesIndexSql session.obj = .ok () →
      ∀ between, runIf (url ≠ aclUrl) saveAcl session = .ok () between →
      UntouchedIn start between →
      model.schema.propertiesUnique.forM (checkUnique url between.obj) between.bcdb =
        .ok () between.bcdb →
      UntouchedIn start (final (setWith attachAcl url true true) between)) :
    UntouchedIn start (final (saveInModel saveAcl attachAcl url model) session) := by
  rw [saveInModel, final_get_seq]
  apply final_seq
  · intro problem reached failed
    rw [← (attempt_eq_error_iff.mp failed).2]
    exact untouched
  intro value between checked
  obtain ⟨noneEmpty, rfl⟩ := attempt_eq_ok_iff.mp checked
  have saved := acl noneEmpty
  apply final_seq
  · intro problem reached failed
    rw [final_of_error failed] at saved
    exact saved
  intro value between done
  rw [final_of_ok done] at saved
  rw [final_get_seq]
  have reads : Keeps (UntouchedIn start) (Session.onBcdb
      (model.schema.propertiesUnique.forM (checkUnique url between.obj))) :=
    Session.onBcdb_keeps (.forM (fun prop _ =>
      checkUnique_keeps (untouched_closedRead start).toClosedOpen url between.obj prop))
  apply final_seq
  · intro problem reached failed
    exact reads.of_error failed saved
  intro value after unique
  simp only [Session.onBcdb, onPart_eq_ok_iff] at unique
  obtain ⟨bcdb, unique, rfl⟩ := unique
  have same := Reads.forM (fun prop _ => checkUnique_reads url between.obj prop)
    _ _ _ unique
  subst same
  have set := sets noneEmpty between done saved unique
  apply final_seq
  · intro problem reached failed
    rw [final_of_error failed] at set
    exact set
  · intro value reached stored
    rw [final_of_ok stored] at set
    rw [final_get_seq]
    exact Keeps.attempt _ reached set

/-- A `save` writes nothing unless it gets to its model. -/
theorem saveWith_idle {saveAcl attachAcl : SessionM Unit} {session : Session}
    (untouched : UntouchedIn start session)
    (inModel : ∀ url model message, session.obj.changed = true →
      session.obj.model = some url → session.bcdb.models.find url = some model →
      model.nosave = false → session.obj.toCapnp = .ok message →
      UntouchedIn start (final (saveInModel saveAcl attachAcl url model)
        { session with obj := { session.obj with capnpObj := message } })) :
    UntouchedIn start (final (saveWith saveAcl attachAcl) session) := by
  rw [saveWith, final_get_seq]
  by_cases changed : session.obj.changed = true
  · rw [runIf, if_pos changed, saveChanged, final_get_seq]
    apply final_seq
    · intro problem reached failed
      rw [← (attempt_eq_error_iff.mp failed).2]
      exact untouched
    intro message between serialised
    obtain ⟨written, rfl⟩ := attempt_eq_ok_iff.mp serialised
    rw [Session.setObj, final_modify_seq]
    cases attached : session.obj.model with
    | none => exact untouched
    | some url =>
        apply final_seq
        · intro problem reached failed
          simp only [Session.onBcdb, onPart_eq_error_iff, query_eq_error_iff] at failed
          obtain ⟨_, ⟨_, rfl⟩, rfl⟩ := failed
          exact untouched
        intro model between asked
        simp only [Session.onBcdb, onPart_eq_ok_iff, query_eq_ok_iff] at asked
        obtain ⟨_, ⟨found, rfl⟩, rfl⟩ := asked
        rw [BCDB.model_eq_ok_iff] at found
        by_cases keeps : model.nosave = false
        · rw [runIf, if_pos keeps]
          exact inModel url model message changed attached found keeps written
        · rw [runIf_of_not keeps]
          exact untouched
  · rw [runIf_of_not changed]
    exact untouched

/-! ### ACLs -/

/-- A save of an ACL that does not get to its record writes nothing. -/
theorem savePure_idle {session : Session} (untouched : UntouchedIn start session)
    (idle : ¬ SavePending session.bcdb session.obj) :
    UntouchedIn start (final (saveWith (pure ()) (pure ())) session) := by
  apply saveWith_idle untouched
  intro url model message changed attached found keeps written
  apply saveInModel_idle
  · exact untouched
  · intro _
    rw [runIf_return]
    exact untouched
  · intro noneEmpty between done touched unique
    rw [runIf_return] at done
    obtain ⟨_, rfl⟩ := return_eq_ok_iff.mp done
    apply setWith_idle url true true touched
    · intro _ _
      exact touched
    · intro after _ _ kept pending
      obtain ⟨_, rfl⟩ := return_eq_ok_iff.mp kept
      apply idle
      exact ⟨changed, url, model, message, attached, found, keeps, written, noneEmpty,
        unique, pending⟩

theorem aclSave_idle {acl : JSXObject} {session : Session}
    (untouched : UntouchedIn start session)
    (idle : ¬ SavePending session.bcdb acl) :
    UntouchedIn start (final (aclSave acl) session) := by
  have saved : UntouchedIn start (final (saveWith (pure ()) (pure ()))
      { session with obj := acl, acl := .none }) :=
    savePure_idle untouched idle
  rw [aclSave, Session.onAcl, final_onPart]
  exact saved

/-- An attached ACL that does not get to its record writes nothing. -/
theorem attachAcl_idle {session : Session} (untouched : UntouchedIn start session)
    (idle : ¬ AclWrites session.bcdb session.toJSXObjectRoot) :
    UntouchedIn start (final attachAcl session) := by
  rw [attachAcl, final_get_seq]
  cases attached : session.acl with
  | none => exact untouched
  | model => exact untouched
  | obj acl =>
      have stored : UntouchedIn start (final (aclStore acl) session) := by
        unfold aclStore
        cases named : acl.id with
        | none =>
            apply aclSave_idle untouched
            intro pending
            exact idle ⟨acl, attached, .inl ⟨named, pending⟩⟩
        | some id =>
            rw [final_get_seq]
            apply final_seq
            · intro problem reached failed
              rw [← (attempt_eq_error_iff.mp failed).2]
              exact untouched
            intro value between checked
            obtain ⟨_, rfl⟩ := attempt_eq_ok_iff.mp checked
            have reads : Keeps (UntouchedIn start)
                (Session.onBcdb (get aclUrl (some id))) :=
              Session.onBcdb_keeps (get_keeps (untouched_closedRead start).toClosedOpen aclUrl _)
            apply final_seq
            · intro problem reached failed
              exact reads.of_error failed untouched
            intro stored between got
            simp only [Session.onBcdb, onPart_eq_ok_iff] at got
            obtain ⟨bcdb, got, rfl⟩ := got
            have same := (get_eq_ok got).1
            subst same
            apply final_seq
            · intro problem reached failed
              rw [← (attempt_eq_error_iff.mp failed).2]
              exact untouched
            intro differs between checked
            obtain ⟨compared, rfl⟩ := attempt_eq_ok_iff.mp checked
            by_cases renewed : differs = true
            · rw [runIf, if_pos renewed]
              apply aclSave_idle untouched
              intro pending
              rw [renewed] at compared
              rw [← named] at got
              exact idle ⟨acl, attached, .inr ⟨⟨stored, got, compared⟩, pending⟩⟩
            · rw [runIf_of_not renewed]
              exact untouched
      apply final_seq
      · intro problem reached failed
        rw [final_of_error failed] at stored
        exact stored
      · intro value between done
        rw [final_of_ok done] at stored
        exact stored

/-- After an ACL that wrote nothing the object has the id of that ACL. -/
theorem attachAcl_idle_ok {session between : Session} {value : PUnit}
    (untouched : UntouchedIn start session)
    (idle : ¬ AclWrites session.bcdb session.toJSXObjectRoot)
    (done : attachAcl session = .ok value between) :
    between.bcdb = session.bcdb ∧ ∃ aclId,
      between.obj = { session.obj with aclId := aclId } ∧
      AttachedAclId session.bcdb session.toJSXObjectRoot aclId := by
  have same := attachAcl_idle untouched idle
  rw [final_of_ok done] at same
  obtain ⟨aclId, obj, effect⟩ := attachAcl_eq_ok done
  rcases effect with ⟨_, unchanged, attached⟩ | ⟨_, _, _, _, _, _, _, _, puts⟩
  · exact ⟨unchanged, aclId, obj, attached⟩
  · -- an ACL that was put took a new id
    obtain ⟨_, _, stores⟩ := puts.stores
    have grown := stores.nextId_lt
    rw [same.storclient, untouched.storclient] at grown
    exact (Nat.lt_irrefl _ grown).elim

/-! ### The calls -/

theorem set_idle {session : Session} (url : Url) (index store : Bool)
    (untouched : UntouchedIn start session)
    (idle : store = true → ¬ SetPending session.bcdb session.toJSXObjectRoot) :
    UntouchedIn start (final (set url index store) session) := by
  have aclIdle : store = true → session.obj.nid ≠ 0 →
      ¬ AclWrites session.bcdb (withAclId session.toJSXObjectRoot) :=
    fun stores notZero writes => idle stores ⟨notZero, .inl writes⟩
  have prepared : UntouchedIn start { session with
      obj := { session.obj with aclId := some (session.obj.aclId.getD 0) } } := untouched
  apply setWith_idle url index store untouched
  · intro stores notZero
    exact attachAcl_idle prepared (aclIdle stores notZero)
  · intro between stores notZero done pending
    obtain ⟨same, aclId, obj, attached⟩ :=
      attachAcl_idle_ok prepared (aclIdle stores notZero) done
    rw [same, obj] at pending
    exact idle stores ⟨notZero, .inr ⟨aclId, attached, pending⟩⟩

theorem SavePending.savable {bcdb : BCDB} {obj : JSXObject}
    (pending : SavePending bcdb obj) : Savable bcdb obj := by
  obtain ⟨changed, url, model, _, attached, found, keeps, _⟩ := pending
  exact ⟨changed, url, model, attached, found, keeps⟩

/-- An ACL over which a save went that writes nothing still writes nothing. -/
theorem SameAcl.setPending {bcdb : BCDB} {root root' : JSXObjectRoot}
    (same : SameAcl bcdb root.acl root'.acl) (obj : root'.obj = root.obj)
    (pending : SetPending bcdb root') : SetPending bcdb root := by
  obtain ⟨notZero, writes⟩ := pending
  rw [obj] at notZero
  refine ⟨notZero, ?_⟩
  rcases writes with ⟨acl, isAcl, writes⟩ | ⟨aclId, attached, record⟩
  · left
    rcases same with same | ⟨old, new, _, isNew, _, newId, _, fails⟩
    · exact ⟨acl, by rw [← same, isAcl], writes⟩
    · rw [isNew] at isAcl
      cases isAcl
      rcases writes with ⟨_, pending⟩ | ⟨renewed, _⟩
      · exact (fails pending.savable).elim
      · exact (not_aclRenewed_of_new newId renewed).elim
  · right
    rw [obj] at record
    exact ⟨aclId, (same.attached_iff obj aclId).mp attached, record⟩

theorem saveAcl_idle {session : Session} {url : Url}
    (untouched : UntouchedIn start session)
    (idle : url ≠ aclUrl → ∀ acl, session.acl = .obj acl → acl.id = none →
      ¬ SavePending session.bcdb acl) :
    UntouchedIn start (final (runIf (url ≠ aclUrl) saveAcl) session) := by
  by_cases isOther : url ≠ aclUrl
  · rw [runIf, if_pos isOther, saveAcl, final_get_seq]
    cases attached : session.acl with
    | none => exact untouched
    | model => exact untouched
    | obj acl =>
        have saved : UntouchedIn start
            (final (runIf (acl.id = none) (aclSave acl)) session) := by
          by_cases isNew : acl.id = none
          · rw [runIf, if_pos isNew]
            exact aclSave_idle untouched (idle isOther acl attached isNew)
          · rw [runIf_of_not isNew]
            exact untouched
        apply final_seq
        · intro problem reached failed
          rw [final_of_error failed] at saved
          exact saved
        · intro value between done
          rw [final_of_ok done] at saved
          exact saved
  · rw [runIf_of_not isOther]
    exact untouched

/-- A `save` that does not get to a record writes nothing. -/
theorem save_idle {session : Session} (untouched : UntouchedIn start session)
    (idle : ¬ RootPending session.bcdb session.toJSXObjectRoot) :
    UntouchedIn start (final save session) := by
  apply saveWith_idle untouched
  intro url model message changed attached found keeps written
  -- the object after its message was renewed
  generalize prepared : ({ session with
    obj := { session.obj with capnpObj := message } } : Session) = renewed
  have touched : UntouchedIn start renewed := by
    rw [← prepared]
    exact untouched
  have isBcdb : renewed.bcdb = session.bcdb := by rw [← prepared]
  have isAcl : renewed.acl = session.acl := by rw [← prepared]
  have isObj : renewed.obj = { session.obj with capnpObj := message } := by
    rw [← prepared]
  have isRoot : renewed.toJSXObjectRoot = { session.toJSXObjectRoot with
      obj := { session.obj with capnpObj := message } } := by rw [← prepared]
  have aclIdle : checkEmptyIndexedFields model.schema.propertiesIndexSql renewed.obj =
      .ok () → url ≠ aclUrl → ∀ acl, renewed.acl = .obj acl → acl.id = none →
        ¬ SavePending renewed.bcdb acl := by
    intro noneEmpty isOther acl isAcl' isNew pending
    rw [isObj] at noneEmpty
    rw [isAcl] at isAcl'
    rw [isBcdb] at pending
    exact idle ⟨changed, url, model, message, attached, found, keeps, written, noneEmpty,
      .inl ⟨isOther, acl, isAcl', isNew, pending⟩⟩
  apply saveInModel_idle touched
  · intro noneEmpty
    exact saveAcl_idle touched (aclIdle noneEmpty)
  · intro noneEmpty between done saved unique
    rcases saveAcl_eq_ok done with ⟨_, grown⟩ | ⟨_, same, obj, sameAcl⟩
    · rw [saved.storclient, touched.storclient] at grown
      exact (Nat.lt_irrefl _ grown).elim
    apply set_idle url true true saved
    intro _ pending
    apply idle
    rw [isObj] at noneEmpty
    rw [obj, same, isBcdb, isRoot] at unique
    refine ⟨changed, url, model, message, attached, found, keeps, written, noneEmpty,
      .inr ⟨unique, ?_⟩⟩
    rw [same, isBcdb] at pending
    rw [isBcdb, isAcl] at sameAcl
    rw [isRoot] at obj
    refine SameAcl.setPending ?_ obj pending
    unfold markedRoot
    split
    · exact sameAcl
    · exact sameAcl

/-! ### Deleting -/

/-- Deleting from a sealed store, or what is not there, writes nothing. -/
theorem storDelete_idle {id : Nat}
    (idle : start.storclient.Sealed ∨ start.storclient.get id = none) :
    Keeps (Untouched start) (storDelete id) := by
  apply Keeps.advance
  intro bcdb reached done untouched
  simp only [bind_eq_ok_iff, pure_eq_ok_iff] at done
  obtain ⟨client, deleted, rfl⟩ := done
  rw [untouched.storclient] at deleted
  have same : client = start.storclient := by
    rcases idle with closed | absent
    · exact (closed.delete_ne_ok id client deleted).elim
    · exact StorClient.delete_absent absent deleted
  exact ⟨same, untouched.tables, untouched.readonly, untouched.indexReadonly⟩

theorem deleteStored_idle {id : Nat} (url : Url)
    (idle : start.storclient.Sealed ∨ start.storclient.get id = none) :
    Keeps (Untouched start) (deleteStored url id) :=
  .bind (storDelete_idle idle) (fun _ =>
    indexDeleteById_keeps (untouched_closedRead start) url id)

theorem deleteObj_idle {session : Session} (url : Url)
    (untouched : UntouchedIn start session)
    (idle : start.storclient.Sealed ∨ (session.obj.nid ≠ 0 →
      ∀ id, session.obj.id = some id → start.storclient.get id = none)) :
    UntouchedIn start (final (deleteObj url) session) := by
  rw [deleteObj, final_get_seq]
  apply final_seq
  · intro problem reached failed
    rw [← (attempt_eq_error_iff.mp failed).2]
    exact untouched
  intro value between checked
  obtain ⟨notZero, rfl⟩ := attempt_eq_ok_iff.mp checked
  rw [ensure_eq_ok_iff] at notZero
  cases named : session.obj.id with
  | none => exact untouched
  | some id =>
      apply Session.onBcdb_keeps (deleteStored_idle url ?_) session untouched
      rcases idle with closed | absent
      · exact .inl closed
      · exact .inr (absent notZero id named)

theorem reset_idle : Keeps (UntouchedIn start) reset :=
  .bind .get (fun _ => .bind (.attempt _) (fun _ => Session.setObj_keeps _))

theorem objDelete_idle {session : Session} (untouched : UntouchedIn start session)
    (idle : start.storclient.Sealed ∨ ∀ url model, session.obj.model = some url →
      session.bcdb.models.find url = some model → model.nosave = false →
      model.readonly = false → url ≠ aclUrl → session.obj.nid ≠ 0 →
      ∀ id, session.obj.id = some id → start.storclient.get id = none) :
    UntouchedIn start (final objDelete session) := by
  rw [objDelete, final_get_seq]
  cases attached : session.obj.model with
  | none => exact reset_idle session untouched
  | some url =>
      apply final_seq
      · intro problem reached failed
        simp only [Session.onBcdb, onPart_eq_error_iff, query_eq_error_iff] at failed
        obtain ⟨_, ⟨_, rfl⟩, rfl⟩ := failed
        exact untouched
      intro model between asked
      simp only [Session.onBcdb, onPart_eq_ok_iff, query_eq_ok_iff] at asked
      obtain ⟨_, ⟨found, rfl⟩, rfl⟩ := asked
      rw [BCDB.model_eq_ok_iff] at found
      by_cases keeps : model.nosave = false
      · rw [runIf, if_pos keeps, objDeleteInModel]
        apply final_seq
        · intro problem reached failed
          rw [← (attempt_eq_error_iff.mp failed).2]
          exact untouched
        intro value between checked
        obtain ⟨writable, rfl⟩ := attempt_eq_ok_iff.mp checked
        rw [ensure_eq_ok_iff] at writable
        have deleted : UntouchedIn start
            (final (runIf (url ≠ aclUrl) (deleteObj url)) session) := by
          by_cases isOther : url ≠ aclUrl
          · rw [runIf, if_pos isOther]
            apply deleteObj_idle url untouched
            rcases idle with closed | absent
            · exact .inl closed
            · exact .inr (absent url model attached found keeps writable isOther)
          · rw [runIf_of_not isOther]
            exact untouched
        apply final_seq
        · intro problem reached failed
          rw [final_of_error failed] at deleted
          exact deleted
        · intro value reached done
          rw [final_of_ok done] at deleted
          exact reset_idle reached deleted
      · rw [runIf_of_not keeps]
        exact untouched

/-! ### Maintenance -/

theorem indexDestroy_idle (url : Url) (nid : Option Nat) :
    Keeps (Untouched start) (indexDestroy url nid) := by
  apply Keeps.advance
  intro bcdb reached done untouched
  simp only [bind_eq_ok_iff] at done
  obtain ⟨model, _, written⟩ := done
  exact (untouched_closedRead start).writeTable bcdb reached model _ written untouched

theorem destroy_idle {bcdb : BCDB} (url : Url) (nid : Nat)
    (untouched : Untouched start bcdb)
    (idle : start.storclient.Sealed ∨ (0 < nid →
      ∀ ids, findIds url (some nid) [] bcdb = .ok ids →
      ∀ id ∈ ids, start.storclient.get id = none)) :
    Untouched start (final (destroy url nid) bcdb) := by
  rw [destroy]
  apply final_seq
  · intro problem reached failed
    rw [← (attempt_eq_error_iff.mp failed).2]
    exact untouched
  intro value between checked
  obtain ⟨positive, rfl⟩ := attempt_eq_ok_iff.mp checked
  rw [ensure_eq_ok_iff] at positive
  apply final_seq
  · intro problem reached failed
    rw [← (query_eq_error_iff.mp failed).2]
    exact untouched
  intro ids between found
  obtain ⟨asked, rfl⟩ := query_eq_ok_iff.mp found
  have deletes : Keeps (Untouched start) (ids.forM storDelete) := by
    apply Keeps.forM
    intro id member
    apply storDelete_idle
    rcases idle with closed | absent
    · exact .inl closed
    · exact .inr (absent positive ids asked id member)
  exact (Keeps.bind deletes (fun _ => indexDestroy_idle url (some 1))) bcdb untouched

theorem reindex_idle (url : Url) (id : Nat) :
    Keeps (Untouched start) (reindex url id) := by
  apply Keeps.bind
  · exact get_keeps (untouched_closedRead start).toClosedOpen url (some id)
  intro obj
  apply JSXObjectRoot.on_keeps
  intro session untouched
  exact set_idle url true false untouched (fun stores => by cases stores)

theorem indexRebuild_idle (url : Url) (nid : Nat) :
    Keeps (Untouched start) (indexRebuild url nid) :=
  .bind (indexDestroy_idle url (some nid)) (fun _ => .bind (.query _) (fun _ =>
    .forM (fun id _ => reindex_idle url id)))

theorem dynamicObj_idle (url : Url) (data : DynamicData) (objId nid : Option Nat) :
    Keeps (Untouched start) (dynamicObj url data objId nid) := by
  apply Keeps.bind
  · exact .query _
  intro model
  cases data with
  | json data => exact .attempt _
  | obj data => exact .attempt _
  | dict data => exact .attempt _
  | bytes data =>
      exact .bind (.query _) (fun obj => .bind (.runIf (fun _ => .modify
        (fun bcdb untouched =>
          (untouched_closedRead start).schemaChange bcdb obj.schema untouched)))
        (fun _ => .bind (.attempt _) (fun _ => .pure _)))

end Idle

end BCDBModel

/-! ## Runs of a slave -/

/-- A call that may write. -/
inductive Request where
  | call (call : Call)
  | indexRebuild (url : Url) (nid : Nat)
  | destroy (url : Url) (nid : Nat)
  | save (root : JSXObjectRoot)
  | objDelete (root : JSXObjectRoot)

namespace Request

def run : Request → BCDBM Unit
  | .call inner => inner.run
  | .indexRebuild url nid => BCDBModel.indexRebuild url nid
  | .destroy url nid => BCDBModel.destroy url nid
  | .save root => root.on BCDBModel.save
  | .objDelete root => root.on BCDBModel.objDelete

/-- The request comes to its end, by returning or by raising. -/
def Step (request : Request) (bcdb reached : BCDB) : Prop :=
  final request.run bcdb = reached

/-- The request finds something to write to the store, or to delete from it. -/
def Pending (bcdb : BCDB) : Request → Prop
  | .call (.set _ root _ store) => store = true ∧ BCDBModel.SetPending bcdb root
  | .call (.setDynamic url data objId nid) => ∃ root between,
      BCDBModel.dynamicObj url data objId nid bcdb = .ok root between ∧
        BCDBModel.SetPending between root
  | .call (.deleteId _ id) => 0 < id ∧ bcdb.storclient.get id ≠ none
  | .call (.deleteObj _ root) => root.obj.nid ≠ 0 ∧ ∃ id, root.obj.id = some id ∧
      bcdb.storclient.get id ≠ none
  | .indexRebuild _ _ => False
  | .destroy url nid => 0 < nid ∧ ∃ ids,
      BCDBModel.findIds url (some nid) [] bcdb = .ok ids ∧
        ∃ id ∈ ids, bcdb.storclient.get id ≠ none
  | .save root => BCDBModel.RootPending bcdb root
  | .objDelete root => ∃ url model id, root.obj.model = some url ∧
      bcdb.models.find url = some model ∧ model.nosave = false ∧
      model.readonly = false ∧ url ≠ aclUrl ∧ root.obj.nid ≠ 0 ∧
      root.obj.id = some id ∧ bcdb.storclient.get id ≠ none

/-- A request on a sealed store, or one that finds nothing to write. -/
def QuietStep (request : Request) (bcdb reached : BCDB) : Prop :=
  (bcdb.storclient.Sealed ∨ ¬ request.Pending bcdb) ∧ request.Step bcdb reached

/-- One such request leaves a slave as it is. -/
theorem QuietStep.untouched {request : Request} {start bcdb reached : BCDB}
    (step : request.QuietStep bcdb reached) (untouched : Untouched start bcdb) :
    Untouched start reached := by
  obtain ⟨quiet, rfl⟩ := step
  rw [untouched.storclient] at quiet
  have idleSet : ∀ url root index store bcdb, Untouched start bcdb →
      (start.storclient.Sealed ∨
        (store = true → ¬ BCDBModel.SetPending bcdb root)) →
      Untouched start (final (root.on (BCDBModel.set url index store)) bcdb) := by
    intro url root index store bcdb untouched quiet
    rcases quiet with closed | idle
    · apply JSXObjectRoot.on_keeps root
      · exact BCDBModel.set_keeps (untouched_closedDelete closed).toClosed url index store
      · exact untouched
    · rw [JSXObjectRoot.on, final_onPart]
      exact BCDBModel.set_idle url index store untouched idle
  cases request with
  | call call =>
      cases call with
      | set url root index store =>
          apply idleSet url root index store bcdb untouched
          rcases quiet with closed | idle
          · exact .inl closed
          · exact .inr (fun stores pending => idle ⟨stores, pending⟩)
      | setDynamic url data objId nid =>
          change Untouched start (final (BCDBModel.setDynamic url data objId nid) bcdb)
          rw [BCDBModel.setDynamic, final_get_seq]
          have makes : Keeps (Untouched start)
              (BCDBModel.dynamicObj url data objId nid) :=
            BCDBModel.dynamicObj_idle url data objId nid
          apply final_seq
          · intro problem reached failed
            exact makes.of_error failed untouched
          intro root between done
          apply idleSet url root true true between (makes.of_ok done untouched)
          rcases quiet with closed | idle
          · exact .inl closed
          · exact .inr (fun _ pending => idle ⟨root, between, done, pending⟩)
      | deleteId url id =>
          change Untouched start (final (BCDBModel.deleteId url id) bcdb)
          rw [BCDBModel.deleteId, final_get_seq]
          apply final_seq
          · intro problem reached failed
            rw [← (attempt_eq_error_iff.mp failed).2]
            exact untouched
          intro value between checked
          obtain ⟨positive, rfl⟩ := attempt_eq_ok_iff.mp checked
          rw [ensure_eq_ok_iff] at positive
          apply BCDBModel.deleteStored_idle url
          · rcases quiet with closed | idle
            · exact .inl closed
            · right
              rw [← untouched.storclient]
              by_contra present
              exact idle ⟨positive, present⟩
          · exact untouched
      | deleteObj url root =>
          change Untouched start (final (root.on (BCDBModel.deleteObj url)) bcdb)
          rw [JSXObjectRoot.on, final_onPart]
          apply BCDBModel.deleteObj_idle url
          · exact untouched
          rcases quiet with closed | idle
          · exact .inl closed
          · right
            intro notZero id named
            rw [← untouched.storclient]
            by_contra present
            exact idle ⟨notZero, id, named, present⟩
  | indexRebuild url nid =>
      exact BCDBModel.indexRebuild_idle url nid bcdb untouched
  | destroy url nid =>
      apply BCDBModel.destroy_idle url nid untouched
      rcases quiet with closed | idle
      · exact .inl closed
      · right
        intro positive ids asked id member
        rw [← untouched.storclient]
        by_contra present
        exact idle ⟨positive, ids, asked, id, member, present⟩
  | save root =>
      rcases quiet with closed | idle
      · apply JSXObjectRoot.on_keeps root
        · exact BCDBModel.save_keeps (untouched_closedDelete closed).toClosed
        · exact untouched
      · change Untouched start (final (root.on BCDBModel.save) bcdb)
        rw [JSXObjectRoot.on, final_onPart]
        exact BCDBModel.save_idle untouched idle
  | objDelete root =>
      change Untouched start (final (root.on BCDBModel.objDelete) bcdb)
      rw [JSXObjectRoot.on, final_onPart]
      have touched : BCDBModel.UntouchedIn start { root with bcdb := bcdb } := untouched
      apply BCDBModel.objDelete_idle touched
      rcases quiet with closed | idle
      · exact .inl closed
      · right
        intro url model attached found keeps writable isOther notZero id named
        rw [← untouched.storclient]
        by_contra present
        exact idle ⟨url, model, id, attached, found, keeps, writable, isOther, notZero,
          named, present⟩

end Request

/-- The database of a master, opened by a slave. -/
def slaveOf (bcdb : BCDB) (storeReadonly : Bool) : BCDB :=
  { bcdb with
    readonly := true
    indexReadonly := true
    storclient := { bcdb.storclient with readonly := storeReadonly } }

/-- The object that the master stored is deleted. -/
def deleteStoredObj : Request := .call (.deleteId "test.one" 1)

end JumpscaleX
