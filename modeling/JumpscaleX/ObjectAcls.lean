import JumpscaleX.CircleClosure
import JumpscaleX.Library.Runs

/-!
# The ACLs of objects

`JSXObjectRoot.acl` and the branch of `BCDBModel.set` for the ACL of an object.
Every new ACL has the same name, which has to be unique, and the property
answers the model of the ACLs for an object that has one stored.  So objects
leave each other alone as long as one of them alone is given rights, and what
is asked of an ACL is answered as long as the object has not been loaded.
-/

namespace JumpscaleX

open Stateful

namespace ACL

/-- The attribute `_acl`. -/
inductive Slot where
  | unset
  | own (acl : Acl)
  /-- The model of the ACLs. -/
  | model

/-- What an object knows of its ACL.  The rest of it is left out but for
whether it has changed. -/
structure AclObject where
  /-- `acl_id`, where `none` is `None`. -/
  aclId : Option Nat
  slot : Slot
  changed : Bool
  /-- The `acl_id` in the store, once the object has been stored. -/
  stored : Option (Option Nat)

/-- A new object. -/
def AclObject.new : AclObject where
  aclId := some 0
  slot := .unset
  changed := true
  stored := none

/-- A stored object that has no ACL. -/
def AclObject.withoutAcl : AclObject where
  aclId := none
  slot := .unset
  changed := false
  stored := some none

structure Calling where
  db : Db
  object : AclObject

abbrev CallM := EStateM Exn Calling

inductive Call where
  | rightsUpdate (action : Action) (userids circleids : List Int) (rights : List String)
  | rightsCheck (id : Int) (rights : List String)
  | save
  /-- The object is read from the database again. -/
  | load

def setSlot (slot : Slot) : CallM Unit :=
  modify (fun calling => { calling with object := { calling.object with slot := slot } })

/-- `JSXObjectRoot.acl`. -/
def getAcl : CallM Slot := do
  let calling ← getThe Calling
  match calling.object.slot with
  | .unset => do
      let slot := if calling.object.aclId = some 0 then .own .new else .model
      setSlot slot
      return slot
  | slot => return slot

/-- A computation on the ACL of the object. -/
def onAcl {α : Type} (acl : Acl) (circleids : List Int) (computation : UpdateM α) : CallM α :=
  onPart (fun calling => { db := calling.db, acl := acl, circleids := circleids })
    (fun calling updating =>
      { db := updating.db, object := { calling.object with slot := .own updating.acl } })
    computation

/-- Whether an ACL that has not been saved has changed. -/
def Acl.changed (acl : Acl) : Bool :=
  !acl.users.list.isEmpty || !acl.circles.list.isEmpty || acl.md5.isSome

/-- `acl.save()`, of an ACL that has not been saved. -/
def saveNewAcl (acl : Acl) : CallM Unit :=
  runIf (acl.changed = true) (onAcl acl [] saveAcl)

/-- The ACL branch of `BCDBModel.set`. -/
def setAcl : CallM Unit := do
  let calling ← getThe Calling
  match calling.object.slot with
  | .own acl =>
      match acl.id with
      | none => saveNewAcl acl
      | some id =>
          match calling.db.acls.lookup id with
          | none => throw (.notFound "could not find obj")
          | some acl2 =>
              runIf (acl.md5 ≠ acl2.md5) (onAcl { acl with id := none } [] saveAcl)
  | _ => pure ()

/-- The rest of `BCDBModel.set`: the `acl_id` is stored with the object. -/
def store : CallM Unit :=
  modify (fun calling =>
    let aclId :=
      match calling.object.slot with
      | .own acl => acl.id
      | _ => some (calling.object.aclId.getD 0)
    { calling with object := { calling.object with aclId := aclId, stored := some aclId } })

/-- `JSXObjectRoot.save`, where the object itself can be written. -/
def saveObject : CallM Unit := do
  let calling ← getThe Calling
  if calling.object.changed then
    match calling.object.slot with
    | .unset => store
    | .model => throw (.attributeError "id")
    | .own acl => do
        runIf (acl.id = none) (saveNewAcl acl)
        setAcl
        store
  else pure ()

/-- The object that is read from the store.  An `acl_id` of 0 or `None` is not
taken over. -/
def loadObject : CallM Unit := do
  let calling ← getThe Calling
  match calling.object.stored with
  | none => throw (.notFound "could not find obj")
  | some aclId =>
      modify (fun calling => { calling with object :=
        { aclId := if aclId = some 0 then none else aclId
          slot := .unset
          changed := false
          stored := some aclId } })

/-- `rights_add` and `rights_delete` of what the property answers. -/
def updateOn (md5 : Acl → Md5) (action : Action) (userids circleids : List Int)
    (rights : List String) : Slot → CallM (Option Bool)
  | .own acl => do
      let calling ← getThe Calling
      onAcl acl circleids (rightsUpdate md5 (calling.db.enough circleids) action userids rights)
  | _ => throw (.typeError "missing 1 required positional argument: 'acl'")

/-- `rights_check` of what the property answers. -/
def checkOn (id : Int) (rights : List String) : Slot → CallM (Option Bool)
  | .own acl => query (fun calling => (rightsCheck calling.db acl id rights).map some)
  | _ => throw (.typeError "missing 1 required positional argument: 'rights'")

/-- What a call answers: nothing, or whether something has changed or holds. -/
def callObject (md5 : Acl → Md5) : Call → CallM (Option Bool)
  | .rightsUpdate action userids circleids rights =>
      getAcl >>= updateOn md5 action userids circleids rights
  | .rightsCheck id rights => getAcl >>= checkOn id rights
  | .save => do
      saveObject
      return none
  | .load => do
      loadObject
      return none

/-- A database with objects. -/
structure Bcdb where
  db : Db
  objects : Nat → AclObject

/-- A call on one of the objects. -/
def perform (md5 : Acl → Md5) (call : Nat × Call) : EStateM Exn Bcdb (Option Bool) :=
  onPart (fun bcdb => { db := bcdb.db, object := bcdb.objects call.1 })
    (fun bcdb calling =>
      { db := calling.db, objects := Function.update bcdb.objects call.1 calling.object })
    (callObject md5 call.2)

/-! ### Calls that leave the database alone -/

/-- The object has been given no rights. -/
def AclObject.Quiet (object : AclObject) : Prop :=
  object.slot = .unset ∨ object.slot = .own .new ∨ object.slot = .model

/-- The call adds or deletes rights. -/
def Call.GivesRights : Call → Prop
  | .rightsUpdate _ _ _ _ => True
  | _ => False

variable {md5 : Acl → Md5}

theorem rightsCheck_congr {db other : Db} (users : db.users = other.users)
    (circles : db.circles = other.circles) (acl : Acl) (id : Int) (rights : List String) :
    rightsCheck db acl id rights = rightsCheck other acl id rights := by
  have loop (entries : List Entry) :
      userHasRights db id rights entries = userHasRights other id rights entries := by
    induction entries with
    | nil => rfl
    | cons entry entries induction => simp only [userHasRights, circles, induction]
  simp only [rightsCheck, users, circles, loop]

/-- What the property leads to. -/
def AclObject.withAcl (object : AclObject) : AclObject :=
  match object.slot with
  | .unset => { object with slot := if object.aclId = some 0 then .own .new else .model }
  | _ => object

theorem getAcl_eq (db : Db) (object : AclObject) :
    getAcl ⟨db, object⟩ = .ok object.withAcl.slot ⟨db, object.withAcl⟩ := by
  obtain ⟨aclId, slot, changed, stored⟩ := object
  cases slot <;> rfl

theorem AclObject.Quiet.withAcl {object : AclObject} (quiet : object.Quiet) :
    object.withAcl.Quiet := by
  obtain ⟨aclId, slot, changed, stored⟩ := object
  cases slot with
  | unset =>
      by_cases fresh : aclId = some 0
      · exact .inr (.inl (if_pos fresh))
      · exact .inr (.inr (if_neg fresh))
  | own acl => exact quiet
  | model => exact quiet

theorem final_checkOn (id : Int) (rights : List String) (slot : Slot) (calling : Calling) :
    final (checkOn id rights slot) calling = calling := by
  cases slot with
  | own acl =>
      rw [checkOn, final, query]
      cases (rightsCheck calling.db acl id rights).map some <;> rfl
  | unset => rfl
  | model => rfl

/-- The object behind `save()`, when it has been given no rights. -/
def AclObject.saved (object : AclObject) : AclObject :=
  match object.changed, object.slot with
  | false, _ => object
  | true, .unset =>
      { object with aclId := some (object.aclId.getD 0), stored := some (some (object.aclId.getD 0)) }
  | true, .own acl => { object with aclId := acl.id, stored := some acl.id }
  | true, .model => object

theorem final_saveObject {object : AclObject} (quiet : object.Quiet) (db : Db) :
    final saveObject ⟨db, object⟩ = ⟨db, object.saved⟩ := by
  obtain ⟨aclId, slot, changed, stored⟩ := object
  cases changed with
  | false => rfl
  | true =>
      rcases quiet with unset | own | model
      · cases unset
        rfl
      · cases own
        rfl
      · cases model
        rfl

/-- The object that is read again. -/
def AclObject.loaded (object : AclObject) : AclObject :=
  match object.stored with
  | none => object
  | some aclId =>
      { aclId := if aclId = some 0 then none else aclId
        slot := .unset
        changed := false
        stored := some aclId }

theorem final_loadObject (object : AclObject) (db : Db) :
    final loadObject ⟨db, object⟩ = ⟨db, object.loaded⟩ := by
  obtain ⟨aclId, slot, changed, stored⟩ := object
  cases stored <;> rfl

theorem final_seq_return {α β : Type} (computation : CallM α) (value : β) (calling : Calling) :
    final (do let _ ← computation; return value) calling = final computation calling := by
  cases run : computation calling with
  | ok result reached =>
      rw [final_of_ok run]
      exact final_of_ok (seq_of_ok run)
  | error problem failed =>
      rw [final_of_error run]
      exact final_of_error (seq_of_error run)

/-- An object without rights stays so, and leaves the database as it is. -/
theorem final_of_quiet (md5 : Acl → Md5) {object : AclObject} (quiet : object.Quiet) {call : Call}
    (plain : ¬ call.GivesRights) :
    ∃ after : AclObject, after.Quiet ∧
      ∀ db, final (callObject md5 call) ⟨db, object⟩ = ⟨db, after⟩ := by
  cases call with
  | rightsUpdate action userids circleids rights => exact absurd trivial plain
  | rightsCheck id rights =>
      refine ⟨object.withAcl, quiet.withAcl, ?_⟩
      intro db
      exact (final_seq_of_ok (getAcl_eq db object)).trans (final_checkOn id rights _ _)
  | save =>
      refine ⟨object.saved, ?_, fun db =>
        (final_seq_return _ _ _).trans (final_saveObject quiet db)⟩
      obtain ⟨aclId, slot, changed, stored⟩ := object
      cases changed <;> cases slot <;> exact quiet
  | load =>
      refine ⟨object.loaded, ?_, fun db =>
        (final_seq_return _ _ _).trans (final_loadObject object db)⟩
      obtain ⟨aclId, slot, changed, stored⟩ := object
      cases stored with
      | none => exact quiet
      | some aclId => exact .inl rfl

/-- What an object without rights answers does not depend on any ACL. -/
theorem outcome_of_quiet {object : AclObject} (quiet : object.Quiet) {call : Call}
    (plain : ¬ call.GivesRights) {db other : Db} (users : db.users = other.users)
    (circles : db.circles = other.circles) :
    outcome (callObject md5 call) ⟨db, object⟩ = outcome (callObject md5 call) ⟨other, object⟩ := by
  cases call with
  | rightsUpdate action userids circleids rights => exact absurd trivial plain
  | rightsCheck id rights =>
      have checked (db : Db) : outcome (callObject md5 (.rightsCheck id rights)) ⟨db, object⟩ =
          outcome (checkOn id rights object.withAcl.slot) ⟨db, object.withAcl⟩ :=
        outcome_seq_of_ok (getAcl_eq db object)
      rw [checked, checked]
      cases object.withAcl.slot with
      | own acl =>
          have same := rightsCheck_congr users circles acl id rights
          simp only [outcome, checkOn, query, same]
          cases (rightsCheck other acl id rights).map some <;> rfl
      | unset => rfl
      | model => rfl
  | save =>
      obtain ⟨aclId, slot, changed, stored⟩ := object
      cases changed with
      | false => rfl
      | true =>
          rcases quiet with unset | own | model
          · cases unset
            rfl
          · cases own
            rfl
          · cases model
            rfl
  | load =>
      obtain ⟨aclId, slot, changed, stored⟩ := object
      cases stored <;> rfl

/-! ### Users and circles stay as they are -/

/-- The users and the circles of the database. -/
def Db.Has (db : Db) (users : List Int) (circles : OrderedMap Int Circle) : Prop :=
  db.users = users ∧ db.circles = circles

section

variable {users : List Int} {circles : OrderedMap Int Circle}

theorem saveEntry_keeps (kind : Kind) (name : String) (entry : Entry) (new : Bool) :
    Keeps (fun updating : Updating => updating.db.Has users circles)
      (saveEntry kind name entry new) := by
  intro updating has
  rw [final, saveEntry]
  by_cases dirty : PyVal.none ∈ entry.rights
  · simpa only [if_pos dirty] using has
  · simp only [if_neg dirty]
    cases new with
    | false => exact has
    | true =>
        by_cases taken : name ∈ updating.db.names kind
        · simpa [taken, Db.Has] using has
        · cases kind <;> simpa [taken, Db.Has, Db.addName] using has

theorem updateEntry_keeps (kind : Kind) (action : Action) (rights : List String) (changed : Bool)
    (id : Int) :
    Keeps (fun updating : Updating => updating.db.Has users circles)
      (updateEntry kind action rights changed id) := by
  rw [updateEntry]
  refine .bind .get fun updating => ?_
  split
  · refine .bind (.modify fun _ has => has) fun _ => ?_
    exact .bind (saveEntry_keeps _ _ _ _) fun _ => .pure _
  · refine .bind (saveEntry_keeps _ _ _ _) fun _ => ?_
    exact .bind (.modify fun _ has => has) fun _ => .pure _

theorem updateCircles_keeps (action : Action) (rights : List String) (fuel : Nat)
    (visited : List Int) (changed : Bool) :
    Keeps (fun updating : Updating => updating.db.Has users circles)
      (updateCircles action rights fuel visited changed) := by
  induction fuel generalizing visited changed with
  | zero =>
      rintro ⟨db, acl, circleids⟩ has
      cases circleids <;> exact has
  | succ fuel induction =>
      rintro ⟨db, acl, circleids⟩ has
      cases circleids with
      | nil => exact has
      | cons circleid pending =>
          have one : Keeps (fun updating : Updating => updating.db.Has users circles)
              (updateCircle action rights visited changed circleid) := by
            refine .bind (updateEntry_keeps _ _ _ _ _) fun changed => ?_
            refine .bind ?_ fun circle => .bind (.modify fun _ has => has) fun _ => .pure _
            intro updating has
            rw [final, getCircle]
            cases updating.db.circles.lookup circleid <;> exact has
          exact (Keeps.bind one fun changed => induction (circleid :: visited) changed)
            ⟨db, acl, pending⟩ has

theorem saveAcl_keeps :
    Keeps (fun updating : Updating => updating.db.Has users circles) saveAcl := by
  rintro ⟨db, ⟨id, name, aclUsers, aclCircles, md5⟩, circleids⟩ has
  rw [final, saveAcl]
  by_cases named : name = ""
  · simpa only [if_pos named] using has
  · by_cases set : md5 = none
    · simpa only [if_neg named, if_pos set] using has
    · simp only [if_neg named, if_neg set]
      cases taken : db.aclNames.entries.any (fun row =>
        decide (row.2 = name ∧ some row.1 ≠ id)) <;> cases id <;> simp only [taken] <;> exact has

theorem rightsUpdate_keeps (fuel : Nat) (action : Action) (userids : List Int)
    (rights : List String) :
    Keeps (fun updating : Updating => updating.db.Has users circles)
      (rightsUpdate md5 fuel action userids rights) := by
  have loop : ∀ changed, Keeps (fun updating : Updating => updating.db.Has users circles)
      (userids.foldlM (updateEntry .user action rights) changed) := by
    induction userids with
    | nil => exact fun changed => .pure changed
    | cons userid userids induction =>
        intro changed
        rw [List.foldlM_cons]
        exact .bind (updateEntry_keeps _ _ _ _ _) induction
  refine .bind (loop false) fun changed => .bind (updateCircles_keeps _ _ _ _ _) fun looped => ?_
  cases looped with
  | none => exact .pure _
  | some changed =>
      exact .bind (.modify fun _ has => has) fun _ => .bind saveAcl_keeps fun _ => .pure _

theorem onAcl_keeps {α : Type} {acl : Acl} {circleids : List Int} {computation : UpdateM α}
    (keeps : Keeps (fun updating : Updating => updating.db.Has users circles) computation) :
    Keeps (fun calling : Calling => calling.db.Has users circles)
      (onAcl acl circleids computation) :=
  .onPart keeps (fun _ has => has) fun _ _ has => has

theorem saveNewAcl_keeps (acl : Acl) :
    Keeps (fun calling : Calling => calling.db.Has users circles) (saveNewAcl acl) :=
  .runIf fun _ => onAcl_keeps saveAcl_keeps

theorem setAcl_keeps : Keeps (fun calling : Calling => calling.db.Has users circles) setAcl := by
  refine .bind .get fun calling => ?_
  cases calling.object.slot with
  | unset => exact .pure _
  | model => exact .pure _
  | own acl =>
      simp only
      split
      · exact saveNewAcl_keeps acl
      · split
        · exact .throw _
        · exact .runIf fun _ => onAcl_keeps saveAcl_keeps

theorem callObject_keeps (call : Call) :
    Keeps (fun calling : Calling => calling.db.Has users circles) (callObject md5 call) := by
  have asked : Keeps (fun calling : Calling => calling.db.Has users circles) getAcl := by
    rintro ⟨db, object⟩ has
    rw [final_of_ok (getAcl_eq db object)]
    exact has
  cases call with
  | rightsUpdate action userids circleids rights =>
      refine .bind asked fun slot => ?_
      cases slot with
      | own acl => exact .bind .get fun calling => onAcl_keeps (rightsUpdate_keeps _ _ _ _)
      | unset => exact .throw _
      | model => exact .throw _
  | rightsCheck id rights =>
      refine .bind asked fun slot => ?_
      intro calling has
      rw [final_checkOn]
      exact has
  | save =>
      refine .bind (.bind .get fun calling => ?_) fun _ => .pure _
      split
      · split
        · exact .modify fun _ has => has
        · exact .throw _
        · exact .bind (.runIf fun _ => saveNewAcl_keeps _) fun _ =>
            .bind setAcl_keeps fun _ => .modify fun _ has => has
      · exact .pure _
  | load =>
      rintro ⟨db, object⟩ has
      have same : final (callObject md5 .load) ⟨db, object⟩ = ⟨db, object.loaded⟩ :=
        (final_seq_return _ _ _).trans (final_loadObject object db)
      rw [same]
      exact has

end

/-! ### Objects leave each other alone -/

/-- Rights are given to one object only, and what is asked of an ACL is asked
of an object that has not been loaded. -/
def FitsObject (chosen : Nat) (bcdb : Bcdb) (call : Nat × Call) : Prop :=
  (call.2.GivesRights → call.1 = chosen) ∧
    (call.2.GivesRights ∨ (∃ id rights, call.2 = .rightsCheck id rights) →
      (bcdb.objects call.1).withAcl.slot ≠ .model)

/-- The database behind a call. -/
def behind (md5 : Acl → Md5) (bcdb : Bcdb) (call : Nat × Call) : Bcdb :=
  final (perform md5 call) bcdb

theorem behind_eq (bcdb : Bcdb) (call : Nat × Call) :
    behind md5 bcdb call =
      { db := (final (callObject md5 call.2) ⟨bcdb.db, bcdb.objects call.1⟩).db
        objects := Function.update bcdb.objects call.1
          (final (callObject md5 call.2) ⟨bcdb.db, bcdb.objects call.1⟩).object } :=
  final_onPart

theorem outcome_perform (bcdb : Bcdb) (call : Nat × Call) :
    outcome (perform md5 call) bcdb =
      outcome (callObject md5 call.2) ⟨bcdb.db, bcdb.objects call.1⟩ := by
  rw [outcome, perform, onPart, outcome]
  cases callObject md5 call.2 ⟨bcdb.db, bcdb.objects call.1⟩ <;> rfl

/-- Two databases look alike to an object. -/
structure Alike (chosen object : Nat) (bcdb other : Bcdb) : Prop where
  own : bcdb.objects object = other.objects object
  users : bcdb.db.users = other.db.users
  circles : bcdb.db.circles = other.db.circles
  /-- The chosen object is the only one that the ACLs in the database are of. -/
  acls : object = chosen → bcdb.db = other.db

theorem alike_self (chosen object : Nat) (bcdb : Bcdb) : Alike chosen object bcdb bcdb :=
  ⟨rfl, rfl, rfl, fun _ => rfl⟩

/-- All objects but the chosen one have been given no rights. -/
def OthersQuiet (chosen : Nat) (bcdb : Bcdb) : Prop :=
  ∀ object, object ≠ chosen → (bcdb.objects object).Quiet

theorem othersQuiet_behind (md5 : Acl → Md5) {chosen : Nat} {bcdb : Bcdb} (quiet : OthersQuiet chosen bcdb)
    {call : Nat × Call} (fits : FitsObject chosen bcdb call) :
    OthersQuiet chosen (behind md5 bcdb call) := by
  intro object other
  rw [behind_eq]
  by_cases same : object = call.1
  · subst same
    have plain : ¬ call.2.GivesRights := fun gives => other (fits.1 gives)
    obtain ⟨after, still, ends⟩ := final_of_quiet md5 (quiet _ other) plain
    simpa [ends] using still
  · simpa [Function.update_of_ne same] using quiet object other

theorem users_circles_behind (md5 : Acl → Md5) (bcdb : Bcdb) (call : Nat × Call) :
    (behind md5 bcdb call).db.users = bcdb.db.users ∧
      (behind md5 bcdb call).db.circles = bcdb.db.circles := by
  rw [behind_eq]
  exact callObject_keeps call.2 ⟨bcdb.db, bcdb.objects call.1⟩ ⟨rfl, rfl⟩

/-- The calls on other objects change nothing for an object. -/
theorem Alike.other {chosen object : Nat} {bcdb other : Bcdb}
    (alike : Alike chosen object bcdb other) (quiet : OthersQuiet chosen bcdb)
    {call : Nat × Call} (fits : FitsObject chosen bcdb call) (different : call.1 ≠ object) :
    Alike chosen object (behind md5 bcdb call) other := by
  obtain ⟨users, circles⟩ := users_circles_behind md5 bcdb call
  refine ⟨?_, users.trans alike.users, circles.trans alike.circles, ?_⟩
  · rw [behind_eq, ← alike.own]
    exact Function.update_of_ne (Ne.symm different) _ _
  · intro same
    subst same
    have plain : ¬ call.2.GivesRights := fun gives => different (fits.1 gives)
    obtain ⟨after, _, ends⟩ := final_of_quiet md5 (quiet _ different) plain
    rw [behind_eq, ends]
    exact alike.acls rfl

/-- The calls on an object do the same in both databases. -/
theorem Alike.own_call {chosen : Nat} {bcdb other : Bcdb} {call : Nat × Call}
    (alike : Alike chosen call.1 bcdb other) (quiet : OthersQuiet chosen bcdb)
    (fits : FitsObject chosen bcdb call) :
    Alike chosen call.1 (behind md5 bcdb call) (behind md5 other call) ∧
      outcome (perform md5 call) bcdb = outcome (perform md5 call) other := by
  obtain ⟨users, circles⟩ := users_circles_behind md5 bcdb call
  obtain ⟨users', circles'⟩ := users_circles_behind md5 other call
  have sameUsers : (behind md5 bcdb call).db.users = (behind md5 other call).db.users :=
    users.trans (alike.users.trans users'.symm)
  have sameCircles : (behind md5 bcdb call).db.circles = (behind md5 other call).db.circles :=
    circles.trans (alike.circles.trans circles'.symm)
  rw [outcome_perform, outcome_perform]
  by_cases same : call.1 = chosen
  · have calling : (⟨bcdb.db, bcdb.objects call.1⟩ : Calling) =
        ⟨other.db, other.objects call.1⟩ := by
      rw [alike.acls same, alike.own]
    refine ⟨⟨?_, sameUsers, sameCircles, fun _ => ?_⟩, by rw [calling]⟩
    · rw [behind_eq, behind_eq, calling]
      simp
    · rw [behind_eq, behind_eq, calling]
  · have plain : ¬ call.2.GivesRights := fun gives => same (fits.1 gives)
    obtain ⟨after, _, ends⟩ := final_of_quiet md5 (quiet _ same) plain
    refine ⟨⟨?_, sameUsers, sameCircles, fun impossible => absurd impossible same⟩, ?_⟩
    · rw [behind_eq, behind_eq, ← alike.own, ends, ends]
      simp
    · rw [← alike.own]
      exact outcome_of_quiet (quiet _ same) plain alike.users alike.circles

/-- A run and the part of it that is made on one object look alike to it. -/
theorem alike_run {chosen object : Nat} {calls : List (Nat × Call)} {bcdb other : Bcdb}
    (alike : Alike chosen object bcdb other) (quiet : OthersQuiet chosen bcdb)
    (fits : Along (FitsObject chosen) (behind md5) bcdb calls) :
    Alike chosen object (Runs.run (behind md5) bcdb calls)
        (Runs.run (behind md5) other (calls.filter (fun call => call.1 = object))) ∧
      OthersQuiet chosen (Runs.run (behind md5) bcdb calls) := by
  induction calls generalizing bcdb other with
  | nil => exact ⟨alike, quiet⟩
  | cons call calls induction =>
      obtain ⟨first, rest⟩ := fits
      have still := othersQuiet_behind md5 quiet first
      by_cases same : call.1 = object
      · subst same
        rw [List.filter_cons_of_pos (by simp)]
        exact induction (alike.own_call quiet first).1 still rest
      · rw [List.filter_cons_of_neg (by simpa using same)]
        exact induction (alike.other quiet first same) still rest

/-- New objects, and old ones without an ACL, in a database without ACLs. -/
def startObjects (users : List Int) (circles : OrderedMap Int Circle) (lastId : Nat)
    (old : Nat → Bool) : Bcdb where
  db :=
    { users := users
      circles := circles
      userNames := []
      circleNames := []
      acls := .empty
      aclNames := .empty
      lastId := lastId }
  objects := fun object => if old object then .withoutAcl else .new

theorem othersQuiet_start (users : List Int) (circles : OrderedMap Int Circle) (lastId : Nat)
    (old : Nat → Bool) (chosen : Nat) :
    OthersQuiet chosen (startObjects users circles lastId old) := by
  intro object _
  change (if old object = true then AclObject.withoutAcl else AclObject.new).slot = .unset ∨ _
  left
  split <;> rfl

/-- What an object answers depends on the calls that were made on it, and a
check is answered from the rights of its ACL. -/
def AnswersAlone (md5 : Acl → Md5) (start : Bcdb) (earlier : List (Nat × Call))
    (call : Nat × Call) : Prop :=
  outcome (perform md5 call) (Runs.run (behind md5) start earlier) =
      outcome (perform md5 call)
        (Runs.run (behind md5) start (earlier.filter (fun other => other.1 = call.1))) ∧
    ∀ id rights, call.2 = .rightsCheck id rights → ∃ acl,
      outcome (perform md5 call) (Runs.run (behind md5) start earlier) =
        (rightsCheck (Runs.run (behind md5) start earlier).db acl id rights).map some

/-- A check of an object with an ACL of its own is answered from it. -/
theorem outcome_check {object : AclObject} (id : Int) (rights : List String)
    (quiet : object.withAcl.slot ≠ .model) (db : Db) :
    ∃ acl, outcome (callObject md5 (.rightsCheck id rights)) ⟨db, object⟩ =
      (rightsCheck db acl id rights).map some := by
  have checked : outcome (callObject md5 (.rightsCheck id rights)) ⟨db, object⟩ =
      outcome (checkOn id rights object.withAcl.slot) ⟨db, object.withAcl⟩ :=
    outcome_seq_of_ok (getAcl_eq db object)
  cases slot : object.withAcl.slot with
  | own acl =>
      refine ⟨acl, ?_⟩
      rw [checked, slot, outcome, checkOn, query]
      cases (rightsCheck db acl id rights).map some <;> rfl
  | model => exact absurd slot quiet
  | unset =>
      exfalso
      obtain ⟨aclId, own, changed, stored⟩ := object
      cases own with
      | unset =>
          by_cases fresh : aclId = some 0
          · simp [AclObject.withAcl, fresh] at slot
          · simp [AclObject.withAcl, fresh] at slot
      | own acl => cases slot
      | model => cases slot

/-- A database with two new objects. -/
def twoObjects : Bcdb := startObjects [1, 2] .empty 2 (fun _ => false)

/-- One object is given a right, and the other one is saved. -/
def oneWithRights : List (Nat × Call) :=
  [(0, .rightsUpdate .add [1] [] ["r"]), (1, .save)]

end ACL

end JumpscaleX
