import JumpscaleX.Types
import JumpscaleX.Library.OrderedMap
import JumpscaleX.Library.Worklist

/-!
# Access control lists

`models_system/ACL.py`: the rights of users and circles in an ACL, how they
are added and deleted along the circles, and how they are checked.  The
records of `acl.user` and `acl.circle` that are stored next to an ACL are kept
as their names only, since nothing reads their rights.
-/

namespace JumpscaleX

open Stateful

namespace ACL

/-- A record of `acl.user` or of `acl.circle`, with its `uid` or its `cid`. -/
structure Entry where
  id : Int
  rights : List PyVal

/-- The users or the circles of an ACL, with one record for each. -/
structure Entries where
  list : List Entry
  nodup : (list.map Entry.id).Nodup

namespace Entries

def empty : Entries := ⟨[], List.nodup_nil⟩

/-- The record that the loop over the list ends at. -/
def find (entries : Entries) (id : Int) : Option Entry :=
  entries.list.find? (fun entry => entry.id = id)

/-- A record in the place of the one with its id, or behind all others. -/
def putList (entry : Entry) : List Entry → List Entry
  | [] => [entry]
  | first :: rest => if first.id = entry.id then entry :: rest else first :: putList entry rest

theorem mem_putList {entry other : Entry} {list : List Entry} (member : other ∈ putList entry list) :
    other = entry ∨ other ∈ list := by
  induction list with
  | nil => exact .inl (List.mem_singleton.mp member)
  | cons first rest induction =>
      rw [putList] at member
      split at member
      · rcases List.mem_cons.mp member with here | later
        · exact .inl here
        · exact .inr (List.mem_cons_of_mem _ later)
      · rcases List.mem_cons.mp member with here | later
        · exact .inr (here ▸ List.mem_cons_self)
        · exact (induction later).imp_right (List.mem_cons_of_mem _)

theorem putList_nodup {entry : Entry} {list : List Entry} (nodup : (list.map Entry.id).Nodup) :
    ((putList entry list).map Entry.id).Nodup := by
  induction list with
  | nil => exact List.nodup_singleton _
  | cons first rest induction =>
      rw [List.map_cons, List.nodup_cons] at nodup
      rw [putList]
      split
      · rename_i same
        rw [List.map_cons, List.nodup_cons, ← same]
        exact nodup
      · rename_i different
        rw [List.map_cons, List.nodup_cons]
        refine ⟨?_, induction nodup.2⟩
        intro member
        obtain ⟨other, listed, same⟩ := List.mem_map.mp member
        rcases mem_putList listed with here | later
        · exact different (here ▸ same.symm)
        · exact nodup.1 (List.mem_map.mpr ⟨other, later, same⟩)

def put (entries : Entries) (entry : Entry) : Entries :=
  ⟨putList entry entries.list, putList_nodup entries.nodup⟩

theorem find_put (entries : Entries) (entry : Entry) (id : Int) :
    (entries.put entry).find id = if id = entry.id then some entry else entries.find id := by
  obtain ⟨list, nodup⟩ := entries
  simp only [find, put]
  clear nodup
  induction list with
  | nil =>
      simp only [putList, List.find?_cons, List.find?_nil]
      by_cases same : id = entry.id
      · simp [same]
      · have other : ¬ entry.id = id := fun impossible => same impossible.symm
        simp [same, other]
  | cons first rest induction =>
      rw [putList]
      by_cases here : first.id = entry.id
      · simp only [here, if_true, List.find?_cons]
        by_cases same : id = entry.id
        · simp [same]
        · have other : ¬ entry.id = id := fun impossible => same impossible.symm
          simp [same, other]
      · simp only [here, if_false, List.find?_cons]
        by_cases found : first.id = id
        · have other : ¬ id = entry.id := fun impossible => here (found.trans impossible)
          simp [found, other]
        · simpa [found] using induction

@[simp] theorem find_put_self (entries : Entries) (entry : Entry) :
    (entries.put entry).find entry.id = some entry := by
  rw [find_put, if_pos rfl]

theorem find_put_of_ne (entries : Entries) {entry : Entry} {id : Int} (other : id ≠ entry.id) :
    (entries.put entry).find id = entries.find id := by
  rw [find_put, if_neg other]

theorem id_of_find {entries : Entries} {id : Int} {entry : Entry}
    (found : entries.find id = some entry) : entry.id = id := by
  simpa using List.find?_some found

/-- The rights of a user or circle, of which there are none without a record. -/
def rightsOf (entries : Entries) (id : Int) : List PyVal :=
  (entries.find id).elim [] Entry.rights

end Entries

/-- What rights are given to. -/
inductive Kind where
  | user
  | circle
  deriving DecidableEq

def Kind.word : Kind → String
  | .user => "user"
  | .circle => "circle"

inductive Action where
  | add
  | delete
  deriving DecidableEq

/-- An object of `acl.2`.  There is no `md5` before rights have been set. -/
structure Acl where
  id : Option Nat
  name : String
  users : Entries
  circles : Entries
  md5 : Option Md5

/-- The ACL that `new` answers. -/
def Acl.new : Acl where
  id := none
  name := "acl2"
  users := .empty
  circles := .empty
  md5 := none

def Acl.entries (acl : Acl) : Kind → Entries
  | .user => acl.users
  | .circle => acl.circles

def Acl.put (acl : Acl) (kind : Kind) (entry : Entry) : Acl :=
  match kind with
  | .user => { acl with users := acl.users.put entry }
  | .circle => { acl with circles := acl.circles.put entry }

/-- The members of an object of `circle.2`. -/
structure Circle where
  userMembers : List Int
  circleMembers : List Int

/-- What is stored of users, circles and ACLs.  All models take their ids from
one store; an ACL that could not be put in the index is stored all the same. -/
structure Db where
  users : List Int
  circles : OrderedMap Int Circle
  /-- The names in the index of `acl.user.2`. -/
  userNames : List String
  /-- The names in the index of `acl.circle.2`. -/
  circleNames : List String
  acls : OrderedMap Nat Acl
  /-- The ids and the names in the index of `acl.2`. -/
  aclNames : OrderedMap Nat String
  lastId : Nat

def Db.names (db : Db) : Kind → List String
  | .user => db.userNames
  | .circle => db.circleNames

def Db.addName (db : Db) (kind : Kind) (name : String) : Db :=
  match kind with
  | .user => { db with userNames := name :: db.userNames }
  | .circle => { db with circleNames := name :: db.circleNames }

/-- The circles that are direct members of a circle. -/
def Db.circleMembers (db : Db) (circleid : Int) : List Int :=
  (db.circles.lookup circleid).elim [] Circle.circleMembers

/-- An update of an ACL, with the list of circle ids that the caller has given,
its end first. -/
structure Updating where
  db : Db
  acl : Acl
  circleids : List Int

abbrev UpdateM := EStateM Exn Updating

/-- The body of the loop over the rights, with the rights that are held and
whether something has changed. -/
def updateRight (action : Action) (held : List PyVal × Bool) (right : String) :
    List PyVal × Bool :=
  match action with
  | .add =>
      if .str right ∉ held.1 then (held.1 ++ [StringType.cleanText right], true) else held
  | .delete => if .str right ∈ held.1 then (held.1.erase (.str right), true) else held

def entryName (kind : Kind) (acl : Acl) (id : Int) : String :=
  kind.word ++ "_" ++ acl.name ++ "_" ++ toString id

/-- `user.save()` and `circle.save()`.  What has been stored keeps its name,
and a new record needs one of its own. -/
def saveEntry (kind : Kind) (name : String) (entry : Entry) (new : Bool) : UpdateM Unit :=
  fun updating =>
    if .none ∈ entry.rights then
      .error (.base "could not create capnp message") updating
    else if new then
      let db := { updating.db with lastId := updating.db.lastId + 1 }
      if name ∈ db.names kind then
        .error (.input (.constraintFailed (.unique "name"))) { updating with db := db }
      else .ok () { updating with db := db.addName kind name }
    else .ok () updating

/-- The body of the loops over users and circles. -/
def updateEntry (kind : Kind) (action : Action) (rights : List String) (changed : Bool)
    (id : Int) : UpdateM Bool := do
  let updating ← getThe Updating
  let name := entryName kind updating.acl id
  match (updating.acl.entries kind).find id with
  | some entry => do
      let (held, changed) := rights.foldl (updateRight action) (entry.rights, changed)
      let entry := { entry with rights := held }
      -- The record in the list is the one that is changed.
      modify (fun updating => { updating with acl := updating.acl.put kind entry })
      saveEntry kind name entry false
      return changed
  | none => do
      let (held, changed) := rights.foldl (updateRight action) ([], true)
      let entry := { id := id, rights := held }
      saveEntry kind name entry true
      modify (fun updating => { updating with acl := updating.acl.put kind entry })
      return changed

/-- `circles_model.get`. -/
def getCircle (circleid : Int) : UpdateM Circle := fun updating =>
  match updating.db.circles.lookup circleid with
  | some circle => .ok circle updating
  | none => .error (.notFound "could not find obj") updating

/-- The body of the loop over the circles. -/
def updateCircle (action : Action) (rights : List String) (visited : List Int) (changed : Bool)
    (circleid : Int) : UpdateM Bool := do
  let changed ← updateEntry .circle action rights changed circleid
  let circle ← getCircle circleid
  modify (fun updating =>
    { updating with
      circleids := Worklist.pendingBehind (fun _ => circle.circleMembers) visited circleid
        updating.circleids })
  return changed

/-- The loop over the circles.  It may run out of fuel. -/
def updateCircles (action : Action) (rights : List String) :
    Nat → List Int → Bool → UpdateM (Option Bool)
  | 0, _, changed => fun updating =>
      match updating.circleids with
      | [] => .ok (some changed) updating
      | _ :: _ => .ok none updating
  | fuel + 1, visited, changed => fun updating =>
      match updating.circleids with
      | [] => .ok (some changed) updating
      | circleid :: pending =>
          (updateCircle action rights visited changed circleid >>= fun changed =>
            updateCircles action rights fuel (circleid :: visited) changed)
          { updating with circleids := pending }

/-- `acl.save()`, of an ACL that has changed. -/
def saveAcl : UpdateM Unit := fun updating =>
  let acl := updating.acl
  let db := updating.db
  let taken := db.aclNames.entries.any (fun row => row.2 = acl.name ∧ some row.1 ≠ acl.id)
  if acl.name = "" then .error (.input (.emptyIndexedField "name")) updating
  else if acl.md5 = none then .error (.input (.emptyIndexedField "md5")) updating
  else
    match acl.id with
    | some id =>
        if taken then .error (.input (.notUnique "name")) updating
        else
          let db := { db with acls := db.acls.insert id acl }
          let db := { db with aclNames := db.aclNames.insert id acl.name }
          .ok () { updating with db := db }
    | none =>
        let id := db.lastId + 1
        let acl := { acl with id := some id }
        let db := { db with acls := db.acls.insert id acl, lastId := id }
        if taken then
          .error (.input (.constraintFailed (.unique "name")))
            { updating with db := db, acl := acl }
        else
          let db := { db with aclNames := db.aclNames.insert id acl.name }
          .ok () { updating with db := db, acl := acl }

/-- `_rights_update`, with the md5 of the data of an ACL.  The caller's list of
circle ids is in the state. -/
def rightsUpdate (md5 : Acl → Md5) (fuel : Nat) (action : Action) (userids : List Int)
    (rights : List String) : UpdateM (Option Bool) := do
  let changed ← userids.foldlM (updateEntry .user action rights) false
  match ← updateCircles action rights fuel [] changed with
  | none => return none
  | some changed => do
      modify (fun updating =>
        { updating with acl := { updating.acl with md5 := some (md5 updating.acl) } })
      saveAcl
      return some changed

/-! ### Checks -/

/-- `_compare_rights`. -/
def compareRights (aclRights : List PyVal) (rights : List String) : Bool :=
  rights.all (fun right => .str right ∈ aclRights)

/-- `_user_has_rights`: a loop over the circles of the ACL. -/
def userHasRights (db : Db) (userId : Int) (rights : List String) :
    List Entry → Except Exn Bool
  | [] => .ok false
  | aclCircle :: rest =>
      match db.circles.lookup aclCircle.id with
      | none => .error (.notFound "could not find obj")
      | some circle =>
          if compareRights aclCircle.rights rights ∧ userId ∈ circle.userMembers then .ok true
          else userHasRights db userId rights rest

/-- `_circle_has_rights`. -/
def circleHasRights (acl : Acl) (circleId : Int) (rights : List String) : Bool :=
  acl.circles.list.any (fun aclCircle =>
    aclCircle.id = circleId && compareRights aclCircle.rights rights)

/-- `rights_check`. -/
def rightsCheck (db : Db) (acl : Acl) (id : Int) (rights : List String) : Except Exn Bool :=
  if id ∈ db.users then
    if acl.users.list.any (fun aclUser =>
        aclUser.id = id && compareRights aclUser.rights rights) then .ok true
    else userHasRights db id rights acl.circles.list
  else if (db.circles.lookup id).isSome then .ok (circleHasRights acl id rights)
  else .error (.base "Can't find users or circles")

end ACL

end JumpscaleX
