import JumpscaleX.Effects

/-!
# Which operations report a conflict

Only the uniqueness check of `save` and the unique columns of the index report
a value as not unique.  No other operation on the way of a save does.
-/

namespace JumpscaleX

open Stateful

/-- The outcome is no report of a value that is not unique. -/
abbrev Quiet {α : Type} (outcome : Except Exn α) : Prop :=
  Fallible.RaisesOnly Exn.Plain outcome

/-- The computation never reports a value as not unique. -/
abbrev QuietM {σ α : Type} (computation : EStateM Exn σ α) : Prop :=
  Stateful.RaisesOnly Exn.Plain computation

open Fallible.RaisesOnly

/-! ## Reading and serialising an object -/

theorem readField_quiet (prop : SchemaProperty) (message : Message) :
    Quiet (readField prop message) :=
  prop.jumpscaletype.cleanRaises _

namespace JSXObject

theorem readProp_quiet (obj : JSXObject) (prop : SchemaProperty) :
    Quiet (obj.readProp prop) := by
  unfold readProp
  split
  · exact .ok _
  · exact readField_quiet prop _

theorem getattr_quiet (obj : JSXObject) (name : String) :
    Quiet (obj.getattr name) := by
  unfold getattr
  split
  · exact readProp_quiet obj _
  · exact .error rfl

theorem toCapnp_quiet (obj : JSXObject) : Quiet obj.toCapnp := by
  unfold toCapnp
  split
  · refine .foldlM (fun message prop _ => ?_)
    unfold writeField
    split
    · exact .ok _
    · exact .bind (prop.jumpscaletype.toDataRaises _) (fun _ => .ok _)
  · exact .ok _

theorem dumps_quiet (obj : JSXObject) : Quiet obj.dumps :=
  .bind (toCapnp_quiet obj) (fun _ => .bind (.ensure rfl) (fun _ => .ok _))

theorem columnValue_quiet (obj : JSXObject) (field : IndexField) :
    Quiet (obj.columnValue field) := by
  unfold columnValue
  split
  · exact getattr_quiet obj _
  · split
    · split
      · split
        · exact readProp_quiet obj _
        · exact getattr_quiet obj _
      · exact getattr_quiet obj _
    · refine .bind (getattr_quiet obj _) (fun value => ?_)
      split
      · split
        · exact .ok _
        · exact .error rfl
      · exact .error rfl

theorem indexRow_quiet (obj : JSXObject) (fields : List IndexField) :
    Quiet (obj.indexRow fields) := by
  refine .bind (.mapM (fun field _ => ?_)) (fun _ => .ok _)
  exact .bind (columnValue_quiet obj field) (fun value =>
    .bind (field.jumpscaletype.columnValueRaises value) (fun _ => .ok _))

end JSXObject

/-! ## The store -/

namespace StorClient

theorem writable_quiet (client : StorClient) : Quiet client.writable :=
  .ensure rfl

theorem encodable_quiet (client : StorClient) (data : Stored) :
    Quiet (client.encodable data) :=
  .ensure rfl

theorem append_quiet (client : StorClient) (data : Stored) :
    Quiet (client.append data) :=
  .bind (encodable_quiet client data) (fun _ =>
    .bind (writable_quiet client) (fun _ => .ok _))

theorem set_quiet (client : StorClient) (key : Nat) (data : Stored) :
    Quiet (client.set key data) := by
  refine .bind (encodable_quiet client data) (fun _ => ?_)
  split
  · exact .ok _
  · exact .bind (writable_quiet client) (fun _ => .ok _)

end StorClient

/-! ## Reading from the database -/

namespace SchemaFactory

theorem getFromMd5_quiet (factory : SchemaFactory) (md5 : Md5) :
    Quiet (factory.getFromMd5 md5) := by
  unfold getFromMd5
  split
  · exact .ok _
  · exact .error rfl

theorem getFromUrl_quiet (factory : SchemaFactory) (url : Url) :
    Quiet (factory.getFromUrl url) := by
  unfold getFromUrl
  split
  · exact .ok _
  · exact .error rfl

theorem loads_quiet (factory : SchemaFactory) (bdata : BData)
    (model : Option Url) : Quiet (factory.loads bdata model) :=
  .bind (getFromMd5_quiet factory _) (fun _ =>
    .bind (getFromUrl_quiet factory _) (fun _ => .ok _))

end SchemaFactory

namespace BCDB

theorem model_quiet (url : Url) (bcdb : BCDB) : Quiet (BCDB.model url bcdb) := by
  unfold model
  split
  · exact .ok _
  · exact .error rfl

theorem modelGet_quiet (bcdb : BCDB) (schema : Schema) :
    Quiet (bcdb.modelGet schema) := by
  unfold modelGet
  split
  · exact .ok _
  · exact .bind (SchemaFactory.getFromUrl_quiet _ _) (fun _ => .ok _)

theorem versionOf_quiet (record : Record) (schema? : Option Schema)
    (bcdb : BCDB) : Quiet (versionOf record schema? bcdb) := by
  unfold versionOf
  split
  · exact .ok _
  · exact SchemaFactory.getFromMd5_quiet _ _

theorem unserialize_quiet (id : Nat) (data : Stored) (schema? : Option Schema) :
    QuietM (unserialize id data schema?) := by
  unfold unserialize
  split
  · exact .bind (.query (versionOf_quiet _ _)) (fun schema =>
      .bind (.advance (fun bcdb => modelGet_quiet bcdb schema)) (fun _ =>
      .bind (.query (fun _ => SchemaFactory.loads_quiet _ _ _)) (fun _ =>
      .bind (.runIf (.modify _)) (fun _ =>
      .bind (.attempt (.ensure rfl)) (fun _ => .pure _)))))
  · exact .throw rfl

end BCDB

namespace BCDBModel

theorem schemaOf_quiet (url : Url) (bcdb : BCDB) : Quiet (schemaOf url bcdb) :=
  .map (BCDB.model_quiet url bcdb)

theorem storedData_quiet (id : Nat) (bcdb : BCDB) :
    Quiet (storedData id bcdb) := by
  unfold storedData
  split
  · split
    · exact .ok _
    · exact .error rfl
  · exact .error rfl

theorem get_quiet (url : Url) (objId : Option Nat) : QuietM (get url objId) :=
  .bind (.attempt (.ensure rfl)) (fun _ =>
    .bind (.query (storedData_quiet _)) (fun _ =>
    .bind (.query (schemaOf_quiet url)) (fun _ =>
    .bind (BCDB.unserialize_quiet _ _ _) (fun _ =>
    .bind (.query (schemaOf_quiet url)) (fun _ =>
    .bind (.attempt (.ensure rfl)) (fun _ => .pure _))))))

theorem getOrSkip_quiet (url : Url) (id : Nat) : QuietM (getOrSkip url id) := by
  intro bcdb problem reached failed
  unfold getOrSkip at failed
  split at failed
  · cases failed
  · cases failed
  · rename_i failure _ _ outcome
    cases failed
    exact get_quiet url _ _ _ _ outcome

theorem findIds_quiet (url : Url) (nid : Option Nat) (kwargs : DataDict)
    (bcdb : BCDB) : Quiet (findIds url nid kwargs bcdb) := by
  refine .bind (.bind (BCDB.model_quiet url bcdb) (fun model => ?_)) (fun table =>
    .bind (.mapM (fun item _ => ?_)) (fun _ =>
    .bind (.ensure rfl) (fun _ => .ok _)))
  · split
    · exact .ok _
    · exact .error rfl
  · refine .bind ?_ (fun _ => .ok _)
    unfold bindValue
    split
    all_goals first | exact .ok _ | exact .error rfl

theorem find_quiet (url : Url) (nid : Option Nat) (kwargs : DataDict) :
    QuietM (find url nid kwargs) :=
  .bind (.query (findIds_quiet url nid kwargs)) (fun _ =>
    .bind (.mapM (fun id _ => getOrSkip_quiet url id)) (fun _ => .pure _))

/-! ## Storing an object -/

theorem data_quiet : QuietM data :=
  .bind .get (fun session =>
    .bind (.attempt (JSXObject.toCapnp_quiet session.obj)) (fun _ =>
    .bind (.modify _) (fun _ =>
    .bind .get (fun session => .attempt (JSXObject.dumps_quiet session.obj)))))

theorem storAppend_quiet (record : Record) : QuietM (storAppend record) :=
  .bind .get (fun _ =>
    .bind (.attempt (StorClient.append_quiet _ _)) (fun _ => .modify _))

theorem storSet_quiet (record : Record) : QuietM (storSet record) := by
  refine .bind .get (fun session => ?_)
  split
  · exact .bind (storAppend_quiet record) (fun _ =>
      .bind .get (fun _ =>
      .bind (.runIf (storAppend_quiet record)) (fun _ =>
      .bind .get (fun _ => .attempt (.ensure rfl)))))
  · exact .onPart (.advance (fun bcdb =>
      .bind (StorClient.set_quiet _ _ _) (fun _ => .ok _)))

theorem setRecord_quiet : QuietM setRecord :=
  .bind data_quiet (fun _ =>
    .bind .get (fun _ =>
    .bind (.attempt (.ensure rfl)) (fun _ => storSet_quiet _)))

/-! ## The checks of a save -/

theorem checkedValue_quiet (obj : JSXObject) (name : String) :
    Quiet (checkedValue obj name) := by
  unfold checkedValue
  split
  · refine .bind (JSXObject.getattr_quiet obj _) (fun value => ?_)
    split
    · split
      · exact .ok _
      · exact .error rfl
    · exact .error rfl
  · exact JSXObject.getattr_quiet obj _

theorem checkEmptyIndexedFields_quiet (fields : List IndexField)
    (obj : JSXObject) : Quiet (checkEmptyIndexedFields fields obj) :=
  .forM (fun _ _ =>
    .bind (.ensure rfl) (fun _ =>
    .bind (checkedValue_quiet obj _) (fun _ => .ensure rfl)))

theorem aclDiffers_quiet (acl stored : JSXObject) :
    Quiet (aclDiffers acl stored) :=
  .bind (JSXObject.getattr_quiet acl _) (fun _ =>
    .bind (JSXObject.getattr_quiet stored _) (fun _ => .ok _))

end BCDBModel

end JumpscaleX
