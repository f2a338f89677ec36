import JumpscaleX.Effects

/-!
# What all operations keep

A property of the database that the primitive writes keep is kept by every
operation that is built from them, whether it returns or fails.
-/

namespace JumpscaleX

open Stateful

/-- What reading objects does to a database keeps the property. -/
structure BCDB.ClosedOpen (property : BCDB → Prop) : Prop where
  modelAdd : ∀ bcdb reached url, bcdb.modelAdd url = .ok reached →
    property bcdb → property reached
  schemaChange : ∀ bcdb schema, property bcdb →
    property (bcdb.schemaChange schema)

/-- What indexing does to a database keeps the property, too. -/
structure BCDB.ClosedRead (property : BCDB → Prop) : Prop
    extends BCDB.ClosedOpen property where
  writeTable : ∀ bcdb reached model change,
    bcdb.writeTable model change = .ok reached → property bcdb → property reached

/-- What saving does to the store keeps the property, too. -/
structure BCDB.Closed (property : BCDB → Prop) : Prop
    extends BCDB.ClosedRead property where
  append : ∀ (bcdb : BCDB) data key client,
    bcdb.storclient.append data = .ok (key, client) →
      property bcdb → property { bcdb with storclient := client }
  set : ∀ (bcdb : BCDB) key data client,
    bcdb.storclient.set key data = .ok client →
      property bcdb → property { bcdb with storclient := client }

/-- A deletion from the store keeps the property, too. -/
structure BCDB.ClosedDelete (property : BCDB → Prop) : Prop
    extends BCDB.Closed property where
  delete : ∀ (bcdb : BCDB) key client,
    bcdb.storclient.delete key = .ok client →
      property bcdb → property { bcdb with storclient := client }

namespace BCDB

variable {property : BCDB → Prop}

theorem unserialize_keeps (closed : ClosedOpen property) (id : Nat) (data : Stored)
    (schema? : Option Schema) : Keeps property (unserialize id data schema?) := by
  unfold unserialize
  split
  · refine .bind (.query _) (fun schema => .bind (.advance ?_) (fun _ =>
      .bind (.query _) (fun obj => .bind (.runIf (fun _ => .modify ?_)) (fun _ =>
      .bind (.attempt _) (fun _ => .pure _)))))
    · intro bcdb reached got holds
      unfold modelGet at got
      split at got
      · cases got
        exact closed.schemaChange bcdb schema holds
      · exact closed.modelAdd bcdb reached _ got holds
    · exact fun bcdb holds => closed.schemaChange bcdb _ holds
  · exact .throw _

theorem iterateEntry_keeps (closed : ClosedOpen property) (entry : Nat × Stored) :
    Keeps property (iterateEntry entry) := by
  unfold iterateEntry
  split
  · exact .bind (unserialize_keeps closed _ _ _) (fun _ => .pure _)
  · exact .pure _

theorem iterate_keeps (closed : ClosedOpen property) : Keeps property iterate :=
  .bind .get (fun _ => .mapM (fun entry _ => iterateEntry_keeps closed entry))

end BCDB

namespace Session

variable {property : BCDB → Prop}

theorem onBcdb_keeps {α : Type} {computation : BCDBM α}
    (keeps : Keeps property computation) :
    Keeps (fun session => property session.bcdb) (onBcdb computation) :=
  .onPart keeps (fun _ holds => holds) (fun _ _ holds => holds)

theorem onAcl_keeps {α : Type} {computation : SessionM α} (acl : JSXObject)
    (keeps : Keeps (fun session => property session.bcdb) computation) :
    Keeps (fun session => property session.bcdb) (onAcl acl computation) :=
  .onPart keeps (fun _ holds => holds) (fun _ _ holds => holds)

theorem setObj_keeps (obj : JSXObject) :
    Keeps (fun session => property session.bcdb) (setObj obj) :=
  .modify (fun _ holds => holds)

end Session

theorem JSXObjectRoot.on_keeps {α : Type} {property : BCDB → Prop}
    {computation : SessionM α} (root : JSXObjectRoot)
    (keeps : Keeps (fun session => property session.bcdb) computation) :
    Keeps property (root.on computation) :=
  .onPart keeps (fun _ holds => holds) (fun _ _ holds => holds)

namespace BCDBModel

variable {property : BCDB → Prop}

/-! ## Reading -/

theorem get_keeps (closed : BCDB.ClosedOpen property) (url : Url)
    (objId : Option Nat) : Keeps property (get url objId) :=
  .bind (.attempt _) (fun _ => .bind (.query _) (fun _ =>
    .bind (.query _) (fun _ =>
    .bind (BCDB.unserialize_keeps closed _ _ _) (fun _ =>
    .bind (.query _) (fun _ => .bind (.attempt _) (fun _ => .pure _))))))

theorem getOrSkip_keeps (closed : BCDB.ClosedOpen property) (url : Url) (id : Nat) :
    Keeps property (getOrSkip url id) := by
  intro bcdb holds
  have reached := get_keeps closed url (some id) bcdb holds
  unfold final at reached ⊢
  unfold getOrSkip
  split at reached
  · rename_i outcome
    rw [outcome]
    exact reached
  · rename_i problem _ outcome
    rw [outcome]
    cases problem <;> exact reached

theorem find_keeps (closed : BCDB.ClosedOpen property) (url : Url)
    (nid : Option Nat) (kwargs : DataDict) : Keeps property (find url nid kwargs) :=
  .bind (.query _) (fun _ =>
    .bind (.mapM (fun id _ => getOrSkip_keeps closed url id)) (fun _ => .pure _))

theorem checkUnique_keeps (closed : BCDB.ClosedOpen property) (url : Url)
    (obj : JSXObject) (prop : SchemaProperty) :
    Keeps property (checkUnique url obj prop) :=
  .bind (.attempt _) (fun _ =>
    .bind (find_keeps closed url none _) (fun _ => .attempt _))

/-! ## Storing and indexing -/

theorem data_keeps : Keeps (fun session => property session.bcdb) data :=
  .bind .get (fun _ => .bind (.attempt _) (fun _ =>
    .bind (Session.setObj_keeps _) (fun _ => .bind .get (fun _ => .attempt _))))

theorem storAppend_keeps (closed : BCDB.Closed property) (record : Record) :
    Keeps (fun session => property session.bcdb) (storAppend record) := by
  intro session holds
  cases outcome : session.bcdb.storclient.append (.record record) with
  | ok added =>
      have done : storAppend record session = .ok () { session with
          bcdb := { session.bcdb with storclient := added.2 }
          obj := { session.obj with id := some added.1 } } := by
        rw [storAppend, get_seq, attempt_seq_of_ok outcome]
        rfl
      rw [final_of_ok done]
      exact closed.append session.bcdb _ added.1 added.2 outcome holds
  | error problem =>
      have failed : storAppend record session = .error problem session := by
        rw [storAppend, get_seq, attempt_seq_of_error outcome]
      rw [final_of_error failed]
      exact holds

theorem storSet_keeps (closed : BCDB.Closed property) (record : Record) :
    Keeps (fun session => property session.bcdb) (storSet record) := by
  refine .bind .get (fun session => ?_)
  split
  · exact .bind (storAppend_keeps closed record) (fun _ => .bind .get (fun _ =>
      .bind (.runIf (fun _ => storAppend_keeps closed record)) (fun _ =>
      .bind .get (fun _ => .attempt _))))
  · refine Session.onBcdb_keeps (.advance ?_)
    intro bcdb reached done holds
    simp only [Fallible.bind_eq_ok_iff, Fallible.pure_eq_ok_iff] at done
    obtain ⟨client, stored, rfl⟩ := done
    exact closed.set bcdb _ _ client stored holds

theorem setRecord_keeps (closed : BCDB.Closed property) :
    Keeps (fun session => property session.bcdb) setRecord :=
  .bind data_keeps (fun _ => .bind .get (fun _ => .bind (.attempt _) (fun _ =>
    storSet_keeps closed _)))

theorem indexSet_keeps (closed : BCDB.ClosedRead property) (url : Url) :
    Keeps (fun session => property session.bcdb) (indexSet url) :=
  .bind .get (fun _ => .bind (.attempt _) (fun _ => .bind (.attempt _) (fun _ =>
    .bind (Session.onBcdb_keeps (.query _)) (fun model =>
    .bind (.attempt _) (fun _ =>
    Session.onBcdb_keeps (.advance (fun bcdb reached done =>
      closed.writeTable bcdb reached model _ done)))))))

theorem indexDeleteById_keeps (closed : BCDB.ClosedRead property) (url : Url)
    (id : Nat) : Keeps property (indexDeleteById url id) := by
  refine .advance ?_
  intro bcdb reached done holds
  simp only [Fallible.bind_eq_ok_iff] at done
  obtain ⟨model, _, written⟩ := done
  exact closed.writeTable bcdb reached model _ written holds

theorem indexDelete_keeps (closed : BCDB.ClosedRead property) (url : Url) :
    Keeps (fun session => property session.bcdb) (indexDelete url) := by
  refine .bind .get (fun session => ?_)
  split
  · exact .pure _
  · refine .bind (Session.onBcdb_keeps (indexDeleteById_keeps closed url _)) (fun _ =>
      .runIf (fun _ => Session.onBcdb_keeps ?_))
    exact .bind (.query _) (fun model => .bind (.attempt _) (fun _ =>
      .advance (fun bcdb reached done =>
        closed.writeTable bcdb reached model _ done)))

theorem setIndex_keeps (closed : BCDB.ClosedRead property) (url : Url)
    (store : Bool) :
    Keeps (fun session => property session.bcdb) (setIndex url store) :=
  .bind (.runIf (fun _ => indexDelete_keeps closed url)) (fun _ =>
    .rename (indexSet_keeps closed url))

theorem setWith_keeps (closed : BCDB.Closed property)
    {attachAcl : SessionM Unit}
    (attachKeeps : Keeps (fun session => property session.bcdb) attachAcl)
    (url : Url) (index store : Bool) :
    Keeps (fun session => property session.bcdb)
      (setWith attachAcl url index store) := by
  refine .bind .get (fun _ => .bind (.attempt _) (fun _ =>
    .bind (.runIf (fun _ => ?_)) (fun _ =>
    .runIf (fun _ => setIndex_keeps closed.toClosedRead url store))))
  exact .bind .get (fun _ => .bind (Session.setObj_keeps _) (fun _ =>
    .bind attachKeeps (fun _ => setRecord_keeps closed)))

/-! ## Saving -/

theorem saveWith_keeps (closed : BCDB.Closed property)
    {saveAcl attachAcl : SessionM Unit}
    (saveKeeps : Keeps (fun session => property session.bcdb) saveAcl)
    (attachKeeps : Keeps (fun session => property session.bcdb) attachAcl) :
    Keeps (fun session => property session.bcdb) (saveWith saveAcl attachAcl) := by
  refine .bind .get (fun _ => .runIf (fun _ => .bind .get (fun session =>
    .bind (.attempt _) (fun _ => .bind (Session.setObj_keeps _) (fun _ => ?_)))))
  split
  · exact Session.setObj_keeps _
  · rename_i url _
    refine .bind (Session.onBcdb_keeps (.query _)) (fun model =>
      .runIf (fun _ => .bind .get (fun _ => .bind (.attempt _) (fun _ =>
      .bind (.runIf (fun _ => saveKeeps)) (fun _ => .bind .get (fun session =>
      .bind (Session.onBcdb_keeps (.forM ?_)) (fun _ =>
      .bind (setWith_keeps closed attachKeeps url true true) (fun _ =>
      .bind .get (fun _ => .attempt _)))))))))
    exact fun prop _ => checkUnique_keeps closed.toClosedOpen url session.obj prop

theorem aclSave_keeps (closed : BCDB.Closed property) (acl : JSXObject) :
    Keeps (fun session => property session.bcdb) (aclSave acl) :=
  Session.onAcl_keeps acl (saveWith_keeps closed (.pure _) (.pure _))

theorem saveAcl_keeps (closed : BCDB.Closed property) :
    Keeps (fun session => property session.bcdb) saveAcl := by
  refine .bind .get (fun session => ?_)
  split
  · exact .pure _
  · exact .throw _
  · exact .bind (.runIf (fun _ => aclSave_keeps closed _)) (fun _ =>
      .modify (fun _ holds => holds))

theorem aclStore_keeps (closed : BCDB.Closed property) (acl : JSXObject) :
    Keeps (fun session => property session.bcdb) (aclStore acl) := by
  unfold aclStore
  split
  · exact aclSave_keeps closed acl
  · exact .bind .get (fun _ => .bind (.attempt _) (fun _ =>
      .bind (Session.onBcdb_keeps (get_keeps closed.toClosedOpen aclUrl _)) (fun _ =>
      .bind (.attempt _) (fun _ => .runIf (fun _ =>
      aclSave_keeps closed _)))))

theorem attachAcl_keeps (closed : BCDB.Closed property) :
    Keeps (fun session => property session.bcdb) attachAcl := by
  refine .bind .get (fun session => ?_)
  split
  · exact .pure _
  · exact .throw _
  · exact .bind (aclStore_keeps closed _) (fun _ => .modify (fun _ holds => holds))

theorem set_keeps (closed : BCDB.Closed property) (url : Url)
    (index store : Bool) :
    Keeps (fun session => property session.bcdb) (set url index store) :=
  setWith_keeps closed (attachAcl_keeps closed) url index store

theorem save_keeps (closed : BCDB.Closed property) :
    Keeps (fun session => property session.bcdb) save :=
  saveWith_keeps closed (saveAcl_keeps closed) (attachAcl_keeps closed)

end BCDBModel

end JumpscaleX
